import FlashLink.Link.Apply
import FlashLink.Proofs.Addresses
import FlashLink.Proofs.Branches
import FlashLink.Proofs.Fields
import FlashLink.Proofs.Trampolining
import Mathlib.Tactic.IntervalCases
import Mathlib.Tactic.Zify

/-!
A call that was linked reaches its symbol. Three programs have to agree for this: the linker computes a
distance and scatters its bits over two halfwords, and the interpreter gathers them again and adds them
to its program counter, where addresses wrap around.

A distance is odd where the symbol has the Thumb bit. The encoding drops this bit, and so the machine goes
on at the address without it.
-/

namespace FlashLink

/-! ### Where the branch goes -/

/-- Without its Thumb bit an address is rounded down to a halfword. -/
lemma toNat_bare (x : Addr) : (x &&& ~~~1).toNat = x.toNat - x.toNat % 2 := by
  have hbit : (x &&& 1).toNat = x.toNat % 2 :=
    (UInt32.toNat_and x 1).trans (Nat.and_two_pow_sub_one_eq_mod x.toNat 1)
  have hdisjoint : (x.toBitVec &&& ~~~1#32) &&& (x.toBitVec &&& 1#32) = 0#32 := by
    rw [BitVec.and_assoc, ← BitVec.and_assoc (~~~1#32), BitVec.and_comm (~~~1#32), BitVec.and_assoc]
    simp
  have hsum : (x &&& ~~~1).toNat + (x &&& 1).toNat = x.toNat :=
    calc (x &&& ~~~1).toNat + (x &&& 1).toNat
        = ((x.toBitVec &&& ~~~1#32) + (x.toBitVec &&& 1#32)).toNat :=
          (BitVec.toNat_add_of_and_eq_zero hdisjoint).symm
      _ = (x &&& ~~~1 ||| x &&& 1).toNat := by
          rw [BitVec.add_eq_or_of_and_eq_zero _ _ hdisjoint]
          rfl
      _ = x.toNat := by rw [or_one_eq]
  omega

lemma toNat_ofInt (d : Int) : ((UInt32.ofInt d).toNat : Int) = d % 2 ^ 32 := by
  rw [UInt32.ofInt, UInt32.toNat_ofNat']
  omega

namespace Relocation

/-- From the place, over the distance without its lowest bit, and four bytes further. -/
lemma place_add_distance {target place : Addr} {addend : Int} (hplace : place.toNat % 2 = 0)
    (haddend : addend % 2 = 0) :
    place + 4 + UInt32.ofInt (distance target addend place - distance target addend place % 2) =
      (target &&& ~~~1) + UInt32.ofInt addend + 4 := by
  apply UInt32.toNat_inj.1
  zify
  simp only [UInt32.toNat_add]
  push_cast
  rw [toNat_ofInt, toNat_ofInt, toNat_bare]
  unfold distance
  simp
  omega

end Relocation

/-! ### Halfwords -/

namespace Bytes

/-- A halfword is read back from its bytes. -/
lemma u16_ofU16 (v : UInt16) : (ofU16 v).u16 0 = v := by
  refine UInt16.toBitVec_inj.1 (BitVec.eq_of_getLsbD_eq fun i hi => ?_)
  change ((v.toUInt8.toUInt16 ||| (v >>> 8).toUInt8.toUInt16 <<< 8).toBitVec).getLsbD i = _
  simp only [UInt16.toBitVec_or, UInt16.toBitVec_shiftLeft, UInt8.toBitVec_toUInt16,
    UInt16.toBitVec_toUInt8, UInt16.toBitVec_shiftRight]
  interval_cases i <;> simp

/-- The low half of a word is its first halfword. -/
lemma toUInt16_u32 (b : Bytes) (i : Nat) : (b.u32 i).toUInt16 = b.u16 i := by
  refine UInt16.toBitVec_inj.1 (BitVec.eq_of_getLsbD_eq fun j hj => ?_)
  simp [u32, u16]

/-- Two halfwords are written over a field, and nothing else. -/
lemma overwrite_halfwords (hi lo : UInt16) {b : Bytes} {i : Nat} (h : i + 4 ≤ b.size) :
    (b.overwrite i (ofU16 hi ++ ofU16 lo)).u16 i = hi ∧
      (b.overwrite i (ofU16 hi ++ ofU16 lo)).u16 (i + 2) = lo ∧
      b.SameOn (fun j => j < i ∨ i + 4 ≤ j) (b.overwrite i (ofU16 hi ++ ofU16 lo)) := by
  have hfield := slice_overwrite (b := b) (s := i) (d := ofU16 hi ++ ofU16 lo) (n := 4) rfl h
  refine ⟨?_, ?_, sameOn_overwrite b fun _ hj => hj⟩
  · rw [← Nat.add_zero i, ← u16_slice _ _ (by omega), Nat.add_zero, hfield]
    exact u16_ofU16 hi
  · rw [← u16_slice _ _ (by omega), hfield]
    exact u16_ofU16 lo

end Bytes

/-! ### Relocating a call -/

namespace Relocation

open Act

variable {σ : Type} {resolve : Nat → Act σ Addr} {r : Relocation} {s s' : σ} {es : List Event}
  {target : Addr} {first : Nat} {buf : Bytes}

lemma callField_eq {hi lo : UInt16} {place : Addr} {d : Int}
    (hd : distance target (Branch.decode hi lo) place = d) : callField hi lo target place =
      if Branch.inRange d then
        .ok (Bytes.ofU16 (Branch.encode hi lo d).1 ++ Bytes.ofU16 (Branch.encode hi lo d).2)
      else .error d := by
  rw [← hd]
  rfl

/-- Of two buffers the second has a call where the first has one with another displacement. -/
structure Linked (buf linked : Bytes) (i : Nat) (d : Int) : Prop where
  high : linked.u16 i = (Branch.encode (buf.u16 i) (buf.u16 (i + 2)) d).1
  low : linked.u16 (i + 2) = (Branch.encode (buf.u16 i) (buf.u16 (i + 2)) d).2
  around : buf.SameOn (fun j => j < i ∨ i + 4 ≤ j) linked

lemma linked_encode {i : Nat} (h : i + 4 ≤ buf.size) (d : Int) :
    Linked buf (buf.overwrite i (Bytes.ofU16 (Branch.encode (buf.u16 i) (buf.u16 (i + 2)) d).1 ++
      Bytes.ofU16 (Branch.encode (buf.u16 i) (buf.u16 (i + 2)) d).2)) i d := by
  obtain ⟨hhigh, hlow, haround⟩ := Bytes.overwrite_halfwords
    (Branch.encode (buf.u16 i) (buf.u16 (i + 2)) d).1
    (Branch.encode (buf.u16 i) (buf.u16 (i + 2)) d).2 h
  exact ⟨hhigh, hlow, haround⟩

/-- A call in range is written in full; of one out of range nothing is. -/
lemma apply_call_sat (hkind : r.kind = .call) (hfirst : first ≤ r.start) {i : Nat}
    (hi : r.start - first = i) (hfits : i + 4 ≤ buf.size)
    (hresolve : resolve r.symbol s = ⟨.ok target, s', es⟩) (base : Addr) (strict : Bool) {d : Int}
    (hd : distance target (Branch.decode (buf.u16 i) (buf.u16 (i + 2))) (base + r.offset) = d) :
    Sat (r.apply first base strict resolve) (buf, s)
      (fun a t => a = .patched ∧ Branch.inRange d ∧ Linked buf t.1 i d ∧ t.2 = s')
      fun e t => e = .relocationRange r.start (Int32.ofInt d) ∧ ¬ Branch.inRange d ∧
        t = (buf, s') := by
  have hfound : Sat (zoom (Part.second (α := Bytes)) (resolve r.symbol)) (buf, s)
      (fun a t => a = target ∧ t = (buf, s')) fun _ _ => False := by
    rw [sat_zoom]
    unfold Sat
    dsimp only [Part.second]
    rw [hresolve]
    exact ⟨rfl, rfl⟩
  unfold apply
  refine Sat.get_bind ?_
  rw [hi, if_pos (by simp; omega)]
  dsimp only
  rw [hkind]
  refine Sat.bind hfound ?_ fun _ _ h => h.elim
  rintro a _ ⟨rfl, rfl⟩
  refine Sat.get_bind ?_
  dsimp only
  by_cases hrange : Branch.inRange d
  · rw [callField_eq hd, if_pos hrange]
    refine Sat.modify_bind ⟨rfl, hrange, ?_, rfl⟩
    dsimp only
    exact linked_encode hfits d
  · rw [callField_eq hd, if_neg hrange]
    exact ⟨rfl, hrange, rfl⟩

end Relocation

/-! ### Executing it -/

namespace Machine

variable {μ : Type} [Memory μ] {R : μ → μ → Prop} {m : μ} {c : Cpu} {x : Machine μ} {a : Addr}
  {w hi lo : UInt16}

/-- The halfword that is fetched at `a`: from the stack if it is there, else from memory. -/
def Fetched (m : μ) (c : Cpu) (a : Addr) (w : UInt16) : Prop :=
  match c.stackSpan? a 2 with
  | some start => c.stack.u16 start = w
  | none => ∃ b m', Memory.read a 2 m = .ok b m' ∧ b.u16 0 = w

lemma load_fetched (hR : Memory.Steady R) (h : Fetched m c a w) (hx : Shows R m c x) :
    Op.Sat (load a 2) x (fun v x' => v.toUInt16 = w ∧ Shows R m c x') fun _ _ => False := by
  obtain ⟨_, m1⟩ := x
  obtain ⟨rfl, hm⟩ := hx
  have hsim := hR.read a 2 hm
  have hkept := hR.kept m a 2
  unfold Fetched at h
  unfold Op.Sim at hsim
  unfold Op.Sat at hkept ⊢
  unfold load Op.zoom memPart
  dsimp only at h hsim hkept hm ⊢
  rcases hspan : Cpu.stackSpan? _ a 2 with _ | start <;> rw [hspan] at h <;> dsimp only at h ⊢
  · obtain ⟨b, m', hread, rfl⟩ := h
    rw [hread] at hsim hkept
    generalize Memory.read a 2 m1 = o at hsim ⊢
    rcases o with ⟨d, m2⟩ | ⟨e, m2⟩
    · exact ⟨hsim.1 ▸ Bytes.toUInt16_u32 b 0, rfl, hR.equivalence.trans hkept hsim.2⟩
    · exact hsim
  · refine ⟨?_, rfl, hm⟩
    rw [Bytes.toUInt16_u32, ← h]
    simp [Bytes.u16, Bytes.byte_slice]

/-- A call that is fetched goes on at its displacement, and leaves the address after it behind. -/
lemma executeAt_link (hR : Memory.Steady R) (hhi : Fetched m c a hi) (hlo : Fetched m c (a + 2) lo)
    (hlink : Branch.isLink hi lo) :
    Op.Sat (executeAt a) ⟨c, m⟩
      (fun pc x => pc = a + 4 + UInt32.ofInt (Branch.decode hi lo) ∧
        Shows R m { c.setReg Reg.lr ((a + 4) ||| 1) with
          stats.instructions := c.stats.instructions + 1 } x)
      fun _ _ => False := by
  have hwide : Instruction.isWide hi := by
    simp only [Branch.isLink, Bool.and_eq_true, beq_iff_eq] at hlink
    have hmask : (0xf000 : UInt16).toNat ≤ hi.toNat := by
      rw [← hlink.1, UInt16.toNat_and]
      exact Nat.and_le_left
    rw [Instruction.isWide, decide_eq_true_eq, UInt16.le_iff_toNat_le]
    exact Nat.le_trans (by decide) hmask
  unfold executeAt
  refine Op.Sat.modify_bind ?_
  refine (load_fetched (c := { c with stats.instructions := c.stats.instructions + 1 }) hR hhi
    ⟨rfl, hR.equivalence.refl m⟩).bind ?_ fun _ _ h => h.elim
  rintro _ x1 ⟨rfl, hx1⟩
  dsimp only
  rw [if_pos hwide]
  refine (load_fetched (c := { c with stats.instructions := c.stats.instructions + 1 }) hR hlo
    hx1).bind ?_ fun _ _ h => h.elim
  rintro _ x2 ⟨rfl, hx2⟩
  unfold Instruction.decodeWide
  rw [if_pos hlink]
  unfold execute
  refine Op.Sat.get_bind ?_
  exact ⟨rfl, by dsimp only; rw [hx2.1]; rfl, hx2.2⟩

/-- What one instruction does, a run begins with. -/
lemma run_of_executeAt {y : Machine μ} {pc : Addr} (hpc : a ≠ Cpu.returnAddress &&& ~~~1)
    (hhost : x.cpu.host? a = none) (h : executeAt a x = .ok pc y) (n : Nat) :
    run (n + 1) a x = run n pc y := by
  have hexec : Op.Sat (executeAt a) x (fun pc' y' => pc' = pc ∧ y' = y) fun _ _ => False := by
    unfold Op.Sat
    rw [h]
    exact ⟨rfl, rfl⟩
  have hstep : Op.Sat (step a) x (fun pc' y' => pc' = pc ∧ y' = y) fun _ _ => False := by
    unfold step
    refine Op.Sat.get_bind ?_
    rw [hhost]
    exact hexec
  obtain ⟨_, _, hsteps, rfl, rfl⟩ := hstep.exists_ok
  exact run_succ hpc hsteps

end Machine

namespace Relocation

open Machine

variable {σ : Type} {resolve : Nat → Act σ Addr} {r : Relocation} {s s' : σ} {es : List Event}
  {target base : Addr} {first : Nat} {buf : Bytes}

/-- **A linked call reaches its symbol.** A call at an even place, whose symbol is at `target`, is written
exactly if its distance is in range, and else left alone. Once it is written it is a call still, and
nothing around it has changed. A machine that executes it, on its stack or in any memory, goes on at the
symbol without its Thumb bit, plus the addend it had, plus four; the link register holds the address after
the call with the Thumb bit, and all other registers, the stack and the memory are as they were. -/
theorem apply_call_reaches (hkind : r.kind = .call) (hfirst : first ≤ r.start)
    (hfits : r.start - first + 4 ≤ buf.size) (hresolve : resolve r.symbol s = ⟨.ok target, s', es⟩)
    (heven : (base + r.offset).toNat % 2 = 0)
    (hlink : Branch.isLink (buf.u16 (r.start - first)) (buf.u16 (r.start - first + 2)))
    (strict : Bool) :
    let i := r.start - first
    let place := base + r.offset
    let addend := Branch.decode (buf.u16 i) (buf.u16 (i + 2))
    let d := (target.toNat : Int) + addend - place.toNat
    let o := r.apply first base strict resolve (buf, s)
    (o.result = .ok .patched ↔ -2 ^ 24 ≤ d ∧ d < 2 ^ 24) ∧
    (¬ (-2 ^ 24 ≤ d ∧ d < 2 ^ 24) →
      o.result = .error (.relocationRange r.start (Int32.ofInt d)) ∧ o.state = (buf, s')) ∧
    (-2 ^ 24 ≤ d ∧ d < 2 ^ 24 → ∃ linked, o.state = (linked, s') ∧
      buf.SameOn (fun j => j < i ∨ i + 4 ≤ j) linked ∧
      Branch.isLink (linked.u16 i) (linked.u16 (i + 2)) ∧
      ∀ {μ : Type} [Memory μ] {R : μ → μ → Prop}, Memory.Steady R → ∀ (c : Cpu) (m : μ),
        Fetched m c place (linked.u16 i) → Fetched m c (place + 2) (linked.u16 (i + 2)) →
        ∃ m', R m m' ∧
          let y : Machine μ := ⟨{ c with
            regs := c.regs.set Reg.lr ((place + 4) ||| 1)
            stats.instructions := c.stats.instructions + 1 }, m'⟩
          executeAt place ⟨c, m⟩ = .ok ((target &&& ~~~1) + UInt32.ofInt addend + 4) y ∧
          (place ≠ Cpu.returnAddress &&& ~~~1 → c.host? place = none → ∀ n,
            run (n + 1) place ⟨c, m⟩ =
              run n ((target &&& ~~~1) + UInt32.ofInt addend + 4) y)) := by
  intro i place addend d
  have hsat := apply_call_sat hkind hfirst rfl hfits hresolve base strict rfl
  unfold Act.Sat at hsat
  dsimp only at hsat ⊢
  rw [← Branch.inRange_iff]
  generalize r.apply first base strict resolve (buf, s) = o at hsat ⊢
  rcases o with ⟨e | a, ⟨linked, t⟩, evs⟩
  · obtain ⟨rfl, hrange, hleft⟩ := hsat
    exact ⟨iff_of_false (fun h => nomatch h) hrange, fun _ => ⟨rfl, hleft⟩,
      fun h => absurd h hrange⟩
  · obtain ⟨rfl, hrange, ⟨hhigh, hlow, haround⟩, rfl⟩ := hsat
    have hstill : Branch.isLink (linked.u16 i) (linked.u16 (i + 2)) :=
      hhigh ▸ hlow ▸ Branch.isLink_encode hlink
    refine ⟨iff_of_true rfl hrange, fun h => absurd hrange h, fun _ =>
      ⟨linked, rfl, haround, hstill, fun hR c m hfetchHigh hfetchLow => ?_⟩⟩
    obtain ⟨pc, ⟨_, m'⟩, hexec, hpc, rfl, hm'⟩ :=
      (executeAt_link hR hfetchHigh hfetchLow hstill).exists_ok
    have htarget : pc = (target &&& ~~~1) + UInt32.ofInt addend + 4 := by
      rw [hpc, hhigh, hlow, Branch.decode_encode hrange]
      exact place_add_distance heven (Branch.decode_even _ _)
    subst htarget
    exact ⟨m', hm', hexec, fun hpc hhost n => run_of_executeAt hpc hhost hexec n⟩

/-- A call whose addend makes up for the program counter, as compilers emit it. -/
def placeholder : Bytes := #[0xff, 0xf7, 0xfe, 0xff]

/-- Memory that begins with the call after it was linked. -/
def calling : Context := { Small.context with pool.mem := #[0x00, 0xf0, 0x7e, 0xf8] }

theorem apply_call_reaches_placeholder :
    let o := apply 0 0x20000000 false (fun _ => pure 0x20000101) ⟨0, 0x10a⟩ (placeholder, ())
    o.result = .ok .patched ∧ o.state = (calling.pool.mem, ()) ∧
      ∃ m', calling.unread = m'.unread ∧
        executeAt 0x20000000 (⟨Cpu.create, calling⟩ : Machine Context) = .ok 0x20000100
          ⟨{ Cpu.create with
            regs := Cpu.create.regs.set Reg.lr 0x20000005 Reg.lr.isLt
            stats.instructions := 1 }, m'⟩ := by
  obtain ⟨hpatched, -, hlinked⟩ := @apply_call_reaches Unit (fun _ => pure 0x20000101) ⟨0, 0x10a⟩
    () () [] 0x20000101 0x20000000 0 placeholder (by decide) (by decide) (by decide) rfl (by decide)
    (by decide) false
  obtain ⟨linked, hstate, -, -, hexec⟩ := hlinked (by decide)
  have hmem : linked = calling.pool.mem := by
    have hsame : (calling.pool.mem, ()) = (linked, ()) := by
      rw [← hstate]
      decide +kernel
    exact (congrArg Prod.fst hsame).symm
  subst hmem
  obtain ⟨m', hm', hexec, -⟩ := hexec Context.steady Cpu.create calling
    ⟨_, _, rfl, by decide⟩ ⟨_, _, rfl, by decide⟩
  exact ⟨hpatched.2 (by decide), hstate, m', hm', hexec⟩

end Relocation

end FlashLink
