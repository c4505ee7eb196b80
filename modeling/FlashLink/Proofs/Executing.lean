import FlashLink.Proofs.Accesses
import FlashLink.Proofs.Addresses
import FlashLink.Proofs.NameTables
import FlashLink.Proofs.Trampolining

/-!
Running code that lies in memory, one instruction at a time. A step depends on the halfword at the
program counter and on the registers; what has been read before makes no difference. In an address space
whose ranges have no address in common, flash and the pool can be read wherever something was put.
-/

namespace FlashLink

/-! ### Memory -/

namespace Memory

variable {μ : Type} [Memory μ] {R : μ → μ → Prop} {m m₁ : μ} {a : Addr} {b : Bytes}
  (hR : Steady R)

include hR

/-- The memory goes on answering them. -/
lemma Answers.steady (h : Answers m a b) (hm : R m m₁) : Answers m₁ a b := by
  intro i len hlen hi
  obtain ⟨_, m₂, hread, rfl, -⟩ := (h.read hR hm hlen hi).exists_ok
  exact ⟨m₂, hread⟩

lemma Answers.readWord (h : Answers m a b) (hm : R m m₁) {i : Nat} {v : UInt32}
    (hv : b.HasAt i (Bytes.ofU32 v)) (hi : i + 4 ≤ b.size) :
    Op.Sat (Memory.readWord (a + UInt32.ofNat i)) m₁ (fun w m₂ => w = v ∧ R m m₂) fun _ _ => False := by
  unfold Memory.readWord
  refine (h.read hR hm (by omega) hi).bind ?_ fun _ _ h => h
  rintro _ m₂ ⟨rfl, hm₂⟩
  exact ⟨by rw [Bytes.u32_slice, hv.u32_eq], hm₂⟩

/-- **Text** that ends before the limit is read back. -/
lemma Answers.readText {s : String} {limit : Nat} (h : Answers m a ((Bytes.ofText s).push 0)) (hm : R m m₁)
    (hzero : 0 ∉ Bytes.ofText s) (hlimit : (Bytes.ofText s).size < limit) :
    Op.Sat (Memory.readText a limit) m₁ (fun t m₂ => t = s ∧ R m m₂) fun _ _ => False := by
  generalize hb : Bytes.ofText s = b at h hzero hlimit
  -- `i` bytes have been seen, none of them zero
  suffices hfrom : ∀ fuel i m₁, R m m₁ → i ≤ b.size → b.size < i + fuel →
      Op.Sat (readTextFrom a limit fuel (a + UInt32.ofNat i) (b.slice 0 i)) m₁
        (fun t m₂ => t = s ∧ R m m₂) fun _ _ => False by
    have hstart := hfrom limit 0 m₁ hm (Nat.zero_le _) (by omega)
    rw [Bytes.slice_zero_size, show (UInt32.ofNat 0 : UInt32) = 0 from rfl, UInt32.add_zero] at hstart
    exact hstart
  intro fuel
  induction fuel with
  | zero => omega
  | succ fuel ih =>
    intro i m₁ hm hle hfuel
    have hsize : (b.push 0).size = b.size + 1 := Array.size_push ..
    unfold readTextFrom
    refine (h.read hR hm Nat.one_pos (by omega)).bind ?_ fun _ _ h => h
    rintro _ m₂ ⟨rfl, hm₂⟩
    rw [Bytes.byte_slice Nat.one_pos, Nat.add_zero]
    dsimp only
    rcases Nat.lt_or_ge i b.size with hlt | hge
    · have hbyte : Bytes.byte (b.push 0) i = b[i] := by
        rw [Bytes.byte_eq, Array.getElem?_push_lt hlt]
        rfl
      have hseen : (b.slice 0 i).push b[i] = b.slice 0 (i + 1) := by
        rw [Bytes.slice, Bytes.slice, Nat.zero_add, Nat.zero_add, Array.extract_succ_right (by omega) hlt]
      have hne : b[i] ≠ 0 := fun hz => hzero (hz ▸ Array.getElem_mem hlt)
      rw [hbyte, if_neg hne, hseen, show (1 : UInt32) = UInt32.ofNat 1 from rfl, add_ofNat_ofNat]
      exact ih (i + 1) m₂ hm₂ hlt (by omega)
    · obtain rfl : i = b.size := by omega
      have hbyte : Bytes.byte (b.push 0) b.size = 0 := by
        rw [Bytes.byte_eq, Array.getElem?_push_size]
        rfl
      rw [hbyte, if_pos rfl, Bytes.slice_whole, ← hb, Bytes.text?_ofText]
      exact ⟨rfl, hm₂⟩

end Memory

namespace Cpu

/-- The CPUs differ in nothing but their registers, their stack's contents, and what they have counted. -/
structure Kin (c d : Cpu) : Prop where
  stack : d.stack.size = c.stack.size
  stackBase : d.stackBase = c.stackBase
  hosts : d.hosts = c.hosts
  hostBase : d.hostBase = c.hostBase
  stepLimit : d.stepLimit = c.stepLimit

/-- The CPU after one more instruction. -/
def counted (c : Cpu) : Cpu := { c with stats.instructions := c.stats.instructions + 1 }

variable {c d e : Cpu}

lemma Kin.refl (c : Cpu) : c.Kin c := ⟨rfl, rfl, rfl, rfl, rfl⟩

lemma Kin.trans (h : c.Kin d) (h' : d.Kin e) : c.Kin e :=
  ⟨h'.1.trans h.1, h'.2.trans h.2, h'.3.trans h.3, h'.4.trans h.4, h'.5.trans h.5⟩

lemma kin_counted (c : Cpu) : c.Kin c.counted := ⟨rfl, rfl, rfl, rfl, rfl⟩

lemma kin_setReg (c : Cpu) (r : Reg) (v : UInt32) : c.Kin (c.setReg r v) := ⟨rfl, rfl, rfl, rfl, rfl⟩

lemma kin_entered (c : Cpu) (base : Addr) (args : List UInt32) : c.Kin (Machine.entered base args c) := by
  unfold Machine.entered
  exact ⟨rfl, rfl, rfl, rfl, rfl⟩

end Cpu

namespace Machine

variable {μ : Type} [Memory μ] {R : μ → μ → Prop} {m : μ} {a : Addr} {b : Bytes} {c d : Cpu}
  {x : Machine μ} {i : Nat}

lemma CodeAt.moved (h : CodeAt m c a b) (hd : c.Kin d) : CodeAt m d a b := by
  refine ⟨h.answers, fun i hi => ?_, fun i hi => ?_⟩
  · rw [← h.off_stack i hi, Cpu.stackSpan?, Cpu.stackSpan?, hd.stack, hd.stackBase]
  · rw [← h.off_stubs i hi, Cpu.host?, Cpu.host?, hd.hosts, hd.hostBase]

/-- One instruction of a halfword is fetched, counted and executed. -/
lemma step_narrow (hR : Memory.Steady R) (h : CodeAt m c a b) (hx : Shows R m c x) (hi : i + 2 ≤ b.size)
    {hw : UInt16} {ins : Instruction} (hhw : (b.slice i 2).u32 0 = hw.toUInt32)
    (hnarrow : Instruction.isWide hw = false) (hdecode : Instruction.decodeNarrow hw = some ins)
    {P : Addr → Machine μ → Prop} {E : Error → Machine μ → Prop}
    (hthen : ∀ x', Shows R m c.counted x' →
      Op.Sat (execute (a + UInt32.ofNat i) (a + UInt32.ofNat (i + 2)) ins) x' P E) :
    Op.Sat (step (a + UInt32.ofNat i)) x P E := by
  unfold step
  refine Op.Sat.get_bind ?_
  rw [hx.1, h.off_stubs i (by omega)]
  unfold executeAt
  refine Op.Sat.modify_bind ?_
  have hx' : Shows R m c.counted { x with cpu.stats.instructions := x.cpu.stats.instructions + 1 } :=
    ⟨by dsimp only; rw [hx.1]; rfl, hx.2⟩
  refine (load_code hR (h.moved c.kin_counted) hx' hi (by omega)).bind ?_ fun _ _ h => h.elim
  rintro _ x₁ ⟨rfl, hx₁⟩
  rw [hhw, UInt16.toUInt16_toUInt32]
  dsimp only
  rw [hnarrow, hdecode]
  dsimp only
  have hnext : a + UInt32.ofNat i + 2 = a + UInt32.ofNat (i + 2) := add_ofNat_ofNat a i 2
  rw [hnext]
  exact hthen x₁ hx₁

/-! ### Instructions -/

section

variable (hR : Memory.Steady R) (h : CodeAt m c a b) (hx : Shows R m c x) (hi : i + 2 ≤ b.size)
  (hw : UInt16) (hhw : (b.slice i 2).u32 0 = hw.toUInt32) (hnarrow : Instruction.isWide hw = false)

include hR h hx hi hhw hnarrow

lemma step_addImm {rd rn : Reg} {n : UInt32}
    (hdecode : Instruction.decodeNarrow hw = some (.addImm rd rn n)) :
    Op.Sat (step (a + UInt32.ofNat i)) x
      (fun pc y => pc = a + UInt32.ofNat (i + 2) ∧
        Shows R m (c.counted.setReg rd (c.regs[rn] + n)) y) fun _ _ => False := by
  refine step_narrow hR h hx hi hhw hnarrow hdecode fun y hy => ?_
  unfold execute
  refine Op.Sat.get_bind ?_
  rw [hy.1]
  exact ⟨rfl, by dsimp only; rw [hy.1]; rfl, hy.2⟩

lemma step_jump_to {rm : Reg} (hdecode : Instruction.decodeNarrow hw = some (.jump rm))
    (hrm : rm ≠ Reg.pc) (hthumb : c.regs[rm] &&& 1 ≠ 0) :
    Op.Sat (step (a + UInt32.ofNat i)) x
      (fun pc y => pc = c.regs[rm] &&& ~~~1 ∧ Shows R m c.counted y) fun _ _ => False := by
  refine step_narrow hR h hx hi hhw hnarrow hdecode fun y hy => ?_
  unfold execute
  refine Op.Sat.get_bind ?_
  have hreg : y.cpu.reg rm (a + UInt32.ofNat i) = c.regs[rm] := by
    rw [Cpu.reg, if_neg hrm, hy.1]
    rfl
  dsimp only
  rw [hreg, interwork, if_neg hthumb]
  exact ⟨rfl, hy⟩

end

/-- A branch to the link register returns what is in the first register. -/
lemma run_return (hR : Memory.Steady R) (h : CodeAt m c a b) (hx : Shows R m c x) (hi : i + 2 ≤ b.size)
    (hhw : (b.slice i 2).u32 0 = 0x4770) (hlr : c.regs[Reg.lr] = Cpu.returnAddress)
    (hpc : a + UInt32.ofNat i ≠ Cpu.returnAddress &&& ~~~1) (n : Nat) :
    ∃ y, run (n + 2) (a + UInt32.ofNat i) x = .ok c.regs[Reg.result] y ∧ Shows R m c.counted y := by
  have hdecode : Instruction.decodeNarrow 0x4770 = some (.jump Reg.lr) := by decide
  obtain ⟨_, y, hstep, rfl, hy⟩ := (step_jump_to hR h hx hi 0x4770 hhw (by decide) hdecode (by decide)
    (by rw [hlr]; decide)).exists_ok
  refine ⟨y, (run_succ hpc hstep).trans ?_, hy⟩
  rw [hlr]
  unfold run
  rw [if_pos rfl, hy.1]
  rfl

end Machine

/-! ### The address space -/

lemma covers_self {start : Addr} {len i : Nat} (hfits : start.toNat + len ≤ UInt32.size) (hi : i < len) :
    covers start len (start + UInt32.ofNat i) := by
  rw [UInt32.size] at hfits
  rw [covers_iff, UInt32.toNat_add, UInt32.toNat_ofNat']
  omega

/-- An address in a range is that many bytes from its start. -/
lemma toNat_add_sub {start : Addr} {len i : Nat} (hfits : start.toNat + len ≤ UInt32.size) (hi : i < len) :
    (start + UInt32.ofNat i - start).toNat = i := by
  rw [UInt32.size] at hfits
  rw [UInt32.add_comm, UInt32.add_sub_cancel, UInt32.toNat_ofNat', Nat.mod_eq_of_lt (by omega)]

namespace Cpu

variable {c : Cpu} {a : Addr}

lemma stackSpan?_of_uncovered (h : covers c.stackBase c.stack.size a = false) :
    c.stackSpan? a 1 = none := by
  unfold covers at h
  unfold stackSpan?
  dsimp only
  rw [if_neg]
  simpa [Nat.succ_le_iff] using h

lemma host?_of_uncovered (h : covers c.hostBase (4 * c.hosts.size) a = false) : c.host? a = none := by
  unfold covers at h
  unfold host?
  dsimp only
  split_ifs with hin
  · simp only [Bool.and_eq_true, decide_eq_true_eq, Bool.and_eq_false_iff, decide_eq_false_iff_not] at h hin
    rw [Array.getElem?_eq_none]
    have hpast := h.resolve_left (not_not_intro hin.1)
    omega
  · rfl

end Cpu

/-- A sound region can be read. -/
lemma Region.read_sound {r : Region} (hr : r.Sound) {offset len : Nat} (h : offset + len ≤ r.partition.size) :
    Op.Sat (read offset len) r (fun b _ => b = r.bytes offset len) fun _ _ => False := by
  have hfits := hr.fits
  unfold read
  refine Op.Sat.bind ((checkSpan_sat offset len r).mono (fun _ _ h => h) fun _ _ hno => hno.2 h) ?_
    fun _ _ h => h
  rintro _ _ ⟨rfl, -⟩
  refine Op.Sat.get_bind (Op.sat_zoom.2 ?_)
  unfold Op.Sat Nor.read devicePart
  dsimp only
  rw [if_neg (by omega)]
  exact rfl

namespace Context

variable {c : Context} {b : Bytes} {k : Nat}

/-- What is in execute-in-place flash is read from there. -/
lemma answers_flash (hsound : c.xip.Sound)
    (hfits : c.xip.partition.base.toNat + c.xip.partition.size ≤ UInt32.size)
    (hle : k + b.size ≤ c.xip.partition.size) (hb : c.xip.bytes k b.size = b) :
    Memory.Answers c (c.xip.address k) b := by
  intro i len hlen hi
  have haddr : c.xip.address k + UInt32.ofNat i = c.xip.address (k + i) := add_ofNat_ofNat _ _ _
  have hsat : Op.Sat (Region.read (k + i) len) c.xip (fun d _ => d = c.xip.bytes (k + i) len)
      fun _ _ => False := Region.read_sound hsound (by omega)
  obtain ⟨_, r, hread, rfl⟩ := hsat.exists_ok
  refine ⟨{ c with xip := r }, ?_⟩
  change Context.read _ _ _ = _
  unfold Context.read Op.zoom xipPart
  rw [haddr, Region.offsetOf?_address hfits (by omega)]
  dsimp only
  rw [hread]
  dsimp only
  conv_rhs => rw [← hb, Region.bytes, Bytes.slice_slice _ hi, Nat.add_assoc, ← Region.bytes]

/-- What is in the pool is read from there, unless it is covered by flash. -/
lemma answers_pool (hfits : c.pool.base.toNat + c.pool.capacity ≤ UInt32.size)
    (hxip : ∀ a, c.xip.contains a → covers c.pool.base c.pool.capacity a = false)
    (hiflash : ∀ a, c.iflash.contains a → covers c.pool.base c.pool.capacity a = false)
    (hle : k + b.size ≤ c.pool.capacity) (hb : c.pool.mem.slice k b.size = b) :
    Memory.Answers c (c.pool.base + UInt32.ofNat k) b := by
  intro i len hlen hi
  have hin := covers_self (i := k + i) hfits (by omega)
  have hoffset := toNat_add_sub (i := k + i) hfits (by omega)
  have hnone : ∀ r : Region, (∀ a, r.contains a → covers c.pool.base c.pool.capacity a = false) →
      r.offsetOf? (c.pool.base + UInt32.ofNat (k + i)) = none := by
    intro r hr
    by_contra hsome
    have hout := hr _ (Option.isSome_iff_ne_none.2 hsome)
    rw [hin] at hout
    cases hout
  refine ⟨c, ?_⟩
  change Context.read _ _ _ = _
  unfold Context.read
  rw [add_ofNat_ofNat, hnone _ hxip, hnone _ hiflash]
  dsimp only
  rw [Pool.span?, Pool.offsetOf?, if_pos hin, hoffset]
  dsimp only
  rw [if_pos (by omega)]
  dsimp only
  conv_rhs => rw [← hb, Bytes.slice_slice _ hi]

end Context

namespace Machine

/-- What there is in the address space: both flashes, the pool, the stack and the stubs. -/
def ranges (x : Machine Context) : List (Addr × Nat) :=
  [(x.mem.xip.partition.base, x.mem.xip.partition.size),
    (x.mem.iflash.partition.base, x.mem.iflash.partition.size), (x.mem.pool.base, x.mem.pool.capacity),
    (x.cpu.stackBase, x.cpu.stack.size), (x.cpu.hostBase, 4 * x.cpu.hosts.size)]

/-- Ranges begin at words and end in the address space, and have no address in common. -/
structure Apart (x : Machine Context) : Prop where
  aligned : ∀ r ∈ x.ranges, r.1 &&& 3 = 0
  fits : ∀ r ∈ x.ranges, r.1.toNat + r.2 ≤ UInt32.size
  disjoint : x.ranges.Pairwise fun r s => ∀ a, covers r.1 r.2 a → covers s.1 s.2 a = false

lemma Apart.congr {x y : Machine Context} (h : x.Apart) (hxy : y.ranges = x.ranges) : y.Apart := by
  refine ⟨?_, ?_, ?_⟩ <;> rw [hxy]
  · exact h.aligned
  · exact h.fits
  · exact h.disjoint

end Machine

end FlashLink
