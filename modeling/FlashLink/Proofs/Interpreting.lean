import FlashLink.Proofs.Assembling
import FlashLink.Proofs.Executing
import Mathlib.Data.List.Induction

/-!
What an assembled program does. A machine that reads a finished program from somewhere does at each statement what
the statement says, and nothing else, wherever in the program the statement is. A load from the pool finds its
constant: the assembler counts words from the word after the load in the program, the machine from the one in the
address space, and these are the same as the program begins at a word.
-/

namespace FlashLink

/-! ### Statements -/

namespace Statement

open Machine

variable {μ : Type} [Memory μ]

/-- What a statement says at `pc`, where `next` is the address after it. A call has no target yet, but itself. -/
def effect (pc next : Addr) (s : Statement) : Op (Machine μ) Addr := do
  let v := (← get).cpu.regs.get
  match s with
  | movs rd imm => setReg (reg rd) imm.toUInt32; return next
  | adds rd imm => setReg (reg rd) (v (reg rd) + imm.toUInt32); return next
  | movsReg rd rm | mov rd rm => setReg (reg rd) (v (reg rm)); return next
  | str rt rn words => store (v (reg rn) + words.toUInt32 * 4) (v (reg rt)); return next
  | ldr rt rn words => setReg (reg rt) (← load (v (reg rn) + words.toUInt32 * 4) 4); return next
  | ldrWide rt rn imm => setReg (reg rt) (← load (v (reg rn) + imm.toUInt32) 4); return next
  | pushLr =>
    setReg Reg.sp (v Reg.sp - 4)
    store (v Reg.sp - 4) (v Reg.lr)
    return next
  | popPc =>
    let target ← load (v Reg.sp) 4
    setReg Reg.sp (v Reg.sp + 4)
    interwork target
  | bxLr => interwork (v Reg.lr)
  | blx rm =>
    setReg Reg.lr (next ||| 1)
    interwork (v (reg rm))
  | nop | align => return next
  | bl =>
    setReg Reg.lr (next ||| 1)
    return pc
  | ldrLiteral rt value => setReg (reg rt) value; return next

lemma reg_ne_pc {r : UInt8} (h : r.toNat < 15) : reg r ≠ Reg.pc := by
  intro heq
  have hval : r.toNat % 16 = 15 := congrArg Fin.val heq
  omega

/-- A register that is not the program counter is read as it is. -/
lemma reg_eq {r : UInt8} (h : r.toNat < 15) (c : Cpu) (pc : Addr) : c.reg (reg r) pc = c.regs.get (reg r) :=
  if_neg (reg_ne_pc h)

lemma loadTo_eq {r : UInt8} (h : r.toNat < 15) (next addr : Addr) :
    execute.loadTo (μ := μ) next (reg r) addr = (do setReg (reg r) (← load addr 4); return next) := by
  unfold execute.loadTo
  simp only [if_neg (reg_ne_pc h)]

lemma storeAll_one (r : Reg) (addr : Addr) :
    storeAll (μ := μ) [r] addr = (do store addr ((← get).cpu.regs.get r)) := by
  unfold storeAll storeAll
  simp only [bind_pure_unit]
  rfl

/-- Pushing the link register alone: it is read after the stack pointer has moved. -/
lemma execute_pushLr (pc next : Addr) (words : UInt8) (x : Machine μ) :
    execute pc next (Statement.pushLr.instruction words) x = Statement.pushLr.effect pc next x := by
  have hlist : (lowRegs 0 ++ if true = true then [Reg.lr] else []) = [Reg.lr] := by decide
  have hsize : UInt32.ofNat (4 * [Reg.lr].length) = 4 := rfl
  unfold execute effect
  refine (Op.bind_of_ok rfl _).trans (Eq.trans ?_ (Op.bind_of_ok rfl _).symm)
  rw [hlist, hsize, storeAll_one]
  refine (Op.bind_of_ok rfl _).trans (Eq.trans ?_ (Op.bind_of_ok rfl _).symm)
  rw [bind_assoc]
  refine (Op.bind_of_ok rfl _).trans ?_
  have hlr := Cpu.setReg_other x.cpu (by decide : Reg.sp ≠ Reg.lr) (x.cpu.regs.get Reg.sp - 4)
  exact congrFun (congrArg (fun v => store (x.cpu.regs.get Reg.sp - 4) v >>= fun _ => pure next) hlr) _

/-- **What a statement names** is what its instruction does, if the statement loads nothing from the pool. -/
lemma execute_eq {s : Statement} (h : s.InRange) (hs : s.literals 0 = []) (pc next : Addr) (words : UInt8)
    (x : Machine μ) : execute pc next (s.instruction words) x = s.effect pc next x := by
  have hbyte : ∀ b : UInt8, UInt32.ofNat b.toNat = b.toUInt32 := UInt32.ofNat_uInt8ToNat
  by_cases hpush : s = .pushLr
  · rw [hpush, execute_pushLr]
  unfold execute effect
  refine (Op.bind_of_ok rfl _).trans (Eq.trans ?_ (Op.bind_of_ok rfl _).symm)
  cases s with
  | movs rd imm => rw [instruction, hbyte]
  | adds rd imm =>
    rw [instruction, hbyte]
    rfl
  | movsReg rd rm =>
    rw [instruction]
    dsimp only
    rw [UInt32.shiftLeft_zero]
    rfl
  | mov rd rm =>
    rw [instruction]
    dsimp only
    unfold execute.write
    rw [if_neg (reg_ne_pc h.1), reg_eq h.2]
  | str rt rn words =>
    rw [instruction, hbyte]
    dsimp only
    rw [reg_eq (Nat.lt_trans h.1 (by decide))]
    rfl
  | ldr rt rn words =>
    rw [instruction, hbyte]
    dsimp only
    rw [loadTo_eq (Nat.lt_trans h.1 (by decide))]
    rfl
  | ldrWide rt rn imm =>
    rw [instruction, UInt32.ofNat_uInt16ToNat]
    dsimp only
    rw [loadTo_eq h.1]
    rfl
  | pushLr => exact (hpush rfl).elim
  | popPc =>
    rw [instruction]
    dsimp only
    rw [show lowRegs 0 = [] by decide]
    rfl
  | bxLr => rfl
  | blx rm =>
    rw [instruction]
    dsimp only
    rw [reg_eq h]
  | nop => rfl
  | align => rfl
  | bl =>
    have hback : pc + 4 + UInt32.ofInt (-4) = pc := by
      rw [UInt32.add_assoc, show (4 : UInt32) + UInt32.ofInt (-4) = 0 from rfl, UInt32.add_zero]
    rw [instruction]
    dsimp only
    rw [hback]
  | ldrLiteral rt value => cases hs

end Statement

/-! ### Fetching -/

namespace Machine

variable {μ : Type} [Memory μ] {R : μ → μ → Prop} {x : Machine μ} {a : Addr} {b : Bytes} {m : μ}

/-- The machine reads these bytes from `a` on, on its stack or in its memory. -/
def Reads (x : Machine μ) (a : Addr) (b : Bytes) : Prop :=
  ∀ i len, 0 < len → len ≤ 4 → i + len ≤ b.size →
    ∃ y, load (a + UInt32.ofNat i) len x = .ok ((b.slice i len).u32 0) y

section

variable (hR : Memory.Steady R)

include hR

/-- Loading changes nothing but what the memory notes about it. -/
lemma load_kept (addr : Addr) (len : Nat) :
    Op.Sat (load addr len) x (fun _ y => y.cpu = x.cpu ∧ R x.mem y.mem)
      fun _ y => y.cpu = x.cpu ∧ R x.mem y.mem := by
  have hkept := hR.kept x.mem addr len
  unfold Op.Sat at hkept ⊢
  unfold load Op.zoom memPart
  dsimp only
  rcases x.cpu.stackSpan? addr len with _ | start
  · dsimp only
    generalize Memory.read addr len x.mem = o at hkept ⊢
    rcases o with ⟨d, m'⟩ | ⟨e, m'⟩
    · exact ⟨rfl, hkept⟩
    · exact ⟨rfl, hkept⟩
  · exact ⟨rfl, hR.equivalence.refl _⟩

/-- The bytes are still there while an instruction is executed. -/
lemma Reads.load_counted (h : x.Reads a b) (hm : R x.mem m) {i len : Nat} (hlen : 0 < len) (hword : len ≤ 4)
    (hi : i + len ≤ b.size) : ∃ m', R x.mem m' ∧ load (a + UInt32.ofNat i) len ⟨x.cpu.counted, m⟩ =
      .ok ((b.slice i len).u32 0) ⟨x.cpu.counted, m'⟩ := by
  obtain ⟨y, hload⟩ := h i len hlen hword hi
  have hlags : Lags R x.cpu.stepLimit 1 x ⟨x.cpu.counted, m⟩ := ⟨rfl, hm⟩
  have hsim : Lockstep R x.cpu.stepLimit 1 (load (a + UInt32.ofNat i) len) x ⟨x.cpu.counted, m⟩ :=
    load_lockstep hR.toCoupled hlags len
  have hkept := load_kept hR (x := x) (a + UInt32.ofNat i) len
  unfold Lockstep Op.Sim at hsim
  unfold Op.Sat at hkept
  rw [hload] at hsim hkept
  dsimp only at hsim hkept
  generalize load (a + UInt32.ofNat i) len ⟨x.cpu.counted, m⟩ = o at hsim ⊢
  rcases o with ⟨v, c, m'⟩ | ⟨e, y'⟩
  · obtain ⟨rfl, hcpu, hmem⟩ := hsim
    obtain rfl : c = x.cpu.counted := by
      rw [hkept.1] at hcpu
      exact hcpu
    exact ⟨m', hR.equivalence.trans hkept.2 hmem, rfl⟩
  · exact hsim.elim

/-- A halfword of the code is fetched. -/
lemma Reads.fetch (h : x.Reads a b) (hm : R x.mem m) {i : Nat} {hw : UInt16} (hat : b.HasAt i (Bytes.ofU16 hw)) :
    ∃ v m', v.toUInt16 = hw ∧ R x.mem m' ∧
      load (a + UInt32.ofNat i) 2 ⟨x.cpu.counted, m⟩ = .ok v ⟨x.cpu.counted, m'⟩ := by
  have hsize : i + 2 ≤ b.size := hat.le (by decide : 0 < 2)
  obtain ⟨m', hm', hload⟩ := h.load_counted hR hm (by decide) (by decide) hsize
  refine ⟨_, m', ?_, hm', hload⟩
  have hslice : b.slice i 2 = Bytes.ofU16 hw := hat
  rw [Bytes.toUInt16_u32, hslice, Bytes.u16_ofU16]

/-- **One step** executes the instruction that the halfwords at the program counter are read as. -/
lemma Reads.steps (h : x.Reads a b) {i : Nat} (hhost : x.cpu.host? (a + UInt32.ofNat i) = none)
    {hws : List UInt16} (hat : b.HasAt i (Bytes.ofHalfwords hws)) {ins : Instruction}
    (hins : Instruction.Decodes hws ins) :
    ∃ m', R x.mem m' ∧ step (a + UInt32.ofNat i) x =
      execute (a + UInt32.ofNat i) (a + UInt32.ofNat (i + hws.length * 2)) ins ⟨x.cpu.counted, m'⟩ := by
  have hstep : step (a + UInt32.ofNat i) x = executeAt (a + UInt32.ofNat i) x := by
    refine (Op.bind_of_ok rfl _).trans ?_
    rw [hhost]
  have hsame : R x.mem x.mem := hR.equivalence.refl _
  rw [hstep]
  unfold executeAt
  match hws, hins with
  | [hw], ⟨hnarrow, hdecode⟩ =>
    rw [Bytes.ofHalfwords_one] at hat
    obtain ⟨v, m₁, rfl, hm₁, hload⟩ := h.fetch hR hsame hat
    refine ⟨m₁, hm₁, (Op.bind_of_ok rfl _).trans ((Op.bind_of_ok hload _).trans ?_)⟩
    have hnext : a + UInt32.ofNat i + 2 = a + UInt32.ofNat (i + 2) := add_ofNat_ofNat a i 2
    dsimp only
    rw [hnarrow, if_neg Bool.false_ne_true, hdecode, hnext]
    rfl
  | [hi, lo], ⟨hwide, hdecode⟩ =>
    obtain ⟨hfirst, hrest⟩ := Bytes.HasAt.parts hat
    have hsecond := (Bytes.HasAt.parts hrest).1
    obtain ⟨v, m₁, rfl, hm₁, hload⟩ := h.fetch hR hsame hfirst
    obtain ⟨w, m₂, rfl, hm₂, hload'⟩ := h.fetch hR hm₁ hsecond
    refine ⟨m₂, hm₂, (Op.bind_of_ok rfl _).trans ((Op.bind_of_ok hload _).trans ?_)⟩
    have hmiddle : a + UInt32.ofNat i + 2 = a + UInt32.ofNat (i + 2) := add_ofNat_ofNat a i 2
    have hnext : a + UInt32.ofNat i + 4 = a + UInt32.ofNat (i + 4) := add_ofNat_ofNat a i 4
    dsimp only
    rw [hwide, if_pos rfl, hmiddle]
    refine (Op.bind_of_ok hload' _).trans ?_
    rw [hdecode, hnext]
    rfl

end

end Machine

/-! ### Constants -/

/-- Without its lower two bits an address is rounded down to a word. -/
lemma toNat_word (x : Addr) : (x &&& ~~~3).toNat = x.toNat / 4 * 4 := by
  rw [UInt32.toNat_and]
  exact and_high (w := 32) (k := 2) (by decide) x.toNat_lt

/-- From a load of a program that begins at a word, as many words as it counts lead to the constant. -/
lemma literal_address {a : Addr} (ha : a &&& 3 = 0) {n offset : Nat} (hoffset : offset % 4 = 0)
    (hle : (n + 4) / 4 * 4 ≤ offset) (hnear : Assembler.literalDistance n offset ≤ 255) :
    ((a + UInt32.ofNat n + 4) &&& ~~~3) +
      UInt32.ofNat (UInt8.ofNat (Assembler.literalDistance n offset)).toNat * 4 = a + UInt32.ofNat offset := by
  have hword : (a + UInt32.ofNat n + 4) &&& ~~~3 = a + UInt32.ofNat ((n + 4) / 4 * 4) := by
    have hsum : a + UInt32.ofNat n + 4 = a + UInt32.ofNat (n + 4) := add_ofNat_ofNat a n 4
    rw [and_three_iff] at ha
    rw [hsum, ← UInt32.toNat_inj, toNat_word, UInt32.toNat_add, UInt32.toNat_add, UInt32.toNat_ofNat',
      UInt32.toNat_ofNat']
    omega
  have hwords : UInt32.ofNat (UInt8.ofNat (Assembler.literalDistance n offset)).toNat * 4 =
      UInt32.ofNat (offset - (n + 4) / 4 * 4) := by
    rw [UInt8.toNat_ofNat', Nat.mod_eq_of_lt (by omega), show (4 : UInt32) = UInt32.ofNat 4 from rfl,
      ← UInt32.ofNat_mul]
    congr 1
    unfold Assembler.literalDistance
    omega
  rw [hword, hwords, add_ofNat_ofNat]
  congr 2
  omega

/-! ### Programs -/

namespace Assembler

variable {ss pre post : List Statement} {s : Statement} {out : Assembled} {rt : UInt8} {value : UInt32}

lemma ofStatements_concat (pre : List Statement) (s : Statement) :
    ofStatements (pre ++ [s]) = (ofStatements pre).emit s := List.foldl_append

/-- What comes before a statement begins the program. -/
lemma begins_split (hsplit : ss = pre ++ s :: post) : Begins ((ofStatements pre).emit s) (ofStatements ss) := by
  have hall : ofStatements ss = post.foldl Assembler.emit ((ofStatements pre).emit s) := by
    rw [hsplit]
    exact List.foldl_append
  exact hall ▸ begins_foldl _ post

/-- Every constant is that of some load. -/
lemma exists_split {k insn : Nat} (hk : (ofStatements ss).literals[k]? = some (insn, value)) :
    ∃ pre rt post, ss = pre ++ .ldrLiteral rt value :: post ∧ insn = (ofStatements pre).here ∧
      k = (ofStatements pre).literals.length := by
  induction ss using List.reverseRecOn with
  | nil => cases hk
  | append_singleton ss s ih =>
    rw [ofStatements_concat, literals_emit] at hk
    rcases Nat.lt_or_ge k (ofStatements ss).literals.length with hlt | hge
    · rw [List.getElem?_append_left hlt] at hk
      obtain ⟨pre, rt, post, rfl, hinsn, hlen⟩ := ih hk
      exact ⟨pre, rt, post ++ [s], by rw [List.append_assoc, List.cons_append], hinsn, hlen⟩
    · rw [List.getElem?_append_right hge] at hk
      have hmem := List.mem_of_getElem? hk
      cases s <;> simp only [Statement.literals, List.not_mem_nil, List.mem_singleton] at hmem
      obtain ⟨rfl, rfl⟩ := Prod.mk.inj hmem
      have hfirst := (List.getElem?_eq_some_iff.1 hk).1
      simp only [Statement.literals, List.length_singleton] at hfirst
      exact ⟨ss, _, [], rfl, rfl, by omega⟩

/-- Offset of the constant that a load after `pre` loads. -/
def constantOffset (ss pre : List Statement) : Nat :=
  (ofStatements ss).poolStart + 4 * (ofStatements pre).literals.length

section

variable {μ : Type} [Memory μ] {R : μ → μ → Prop} {x : Machine μ} {a : Addr}

/-- **No constant** lies before the place that its load counts from. -/
lemma le_constantOffset (hsplit : ss = pre ++ .ldrLiteral rt value :: post) :
    ((ofStatements pre).here + 4) / 4 * 4 ≤ constantOffset ss pre :=
  Nat.le_trans ((sound_ofStatements ss).le_poolStart (List.mem_of_getElem? ((begins_split hsplit).literal)))
    (Nat.le_add_right ..)

/-- A program is refused exactly if a constant is out of reach. -/
lemma finish_refuses (ss : List Statement) : (ofStatements ss).finish = none ↔ ∃ pre rt value post,
    ss = pre ++ .ldrLiteral rt value :: post ∧
      255 < literalDistance (ofStatements pre).here (constantOffset ss pre) := by
  rw [finish_eq_none]
  constructor
  · rintro ⟨k, insn, value, hk, hfar⟩
    obtain ⟨pre, rt, post, hsplit, rfl, rfl⟩ := exists_split hk
    exact ⟨pre, rt, value, post, hsplit, hfar⟩
  · rintro ⟨pre, rt, value, post, hsplit, hfar⟩
    exact ⟨_, _, value, (begins_split hsplit).literal, hfar⟩

/-- The machine executes the instruction that a statement names. -/
lemma step_split (hsplit : ss = pre ++ s :: post) (hs : s.InRange)
    (hsome : (ofStatements pre).here < (ofStatements (pre ++ [s])).here)
    (hfinish : (ofStatements ss).finish = some out) (hR : Memory.Steady R) (hx : x.Reads a out.code)
    (hhost : x.cpu.host? (a + UInt32.ofNat (ofStatements pre).here) = none) :
    ∃ m, R x.mem m ∧ Machine.step (a + UInt32.ofNat (ofStatements pre).here) x =
      Machine.execute (a + UInt32.ofNat (ofStatements pre).here)
        (a + UInt32.ofNat (ofStatements (pre ++ [s])).here)
        (s.instruction (UInt8.ofNat (literalDistance (ofStatements pre).here (constantOffset ss pre))))
        ⟨x.cpu.counted, m⟩ := by
  have hat := finish_hasAt (sound_ofStatements pre) (sound_ofStatements ss) hfinish (begins_split hsplit)
  rw [← constantOffset] at hat
  generalize UInt8.ofNat (literalDistance (ofStatements pre).here (constantOffset ss pre)) = words at hat ⊢
  have hlength : (s.finished (ofStatements pre).here words).length =
      (s.finished (ofStatements pre).here 0).length := by
    cases s <;> rfl
  rw [ofStatements_concat, here_emit, ← hlength] at hsome ⊢
  refine hx.steps hR hhost hat (Statement.decodes hs fun hnil => ?_)
  rw [hnil] at hsome
  exact absurd hsome (Nat.lt_irrefl _)

/-- A load from the pool finds its constant. -/
lemma step_literal (hsplit : ss = pre ++ .ldrLiteral rt value :: post) (hrt : rt.toNat < 8)
    (hfinish : (ofStatements ss).finish = some out) (hR : Memory.Steady R) (ha : a &&& 3 = 0)
    (hx : x.Reads a out.code) (hhost : x.cpu.host? (a + UInt32.ofNat (ofStatements pre).here) = none) :
    out.literals[(ofStatements pre).literals.length]? = some (constantOffset ss pre) ∧
      out.code.HasAt (constantOffset ss pre) (Bytes.ofU32 value) ∧
      ∃ m m', R x.mem m ∧ R x.mem m' ∧
        Machine.step (a + UInt32.ofNat (ofStatements pre).here) x =
          Machine.execute.loadTo (a + UInt32.ofNat (ofStatements (pre ++ [.ldrLiteral rt value])).here)
            (Statement.reg rt) (a + UInt32.ofNat (constantOffset ss pre)) ⟨x.cpu.counted, m⟩ ∧
        Machine.step (a + UInt32.ofNat (ofStatements pre).here) x =
          (Statement.ldrLiteral rt value).effect (a + UInt32.ofNat (ofStatements pre).here)
            (a + UInt32.ofNat (ofStatements (pre ++ [.ldrLiteral rt value])).here) ⟨x.cpu.counted, m'⟩ := by
  have hsound := sound_ofStatements ss
  obtain ⟨hoffset, hnear, -, hword⟩ := (hsound.pooled hfinish).linked _ _ _ ((begins_split hsplit).literal)
  change _ = some (constantOffset ss pre) at hoffset
  change literalDistance _ (constantOffset ss pre) ≤ 255 at hnear
  change out.code.HasAt (constantOffset ss pre) _ at hword
  have hmod : constantOffset ss pre % 4 = 0 := by
    have hstart := hsound.poolStart_mod
    unfold constantOffset
    omega
  have hsome : (ofStatements pre).here < (ofStatements (pre ++ [.ldrLiteral rt value])).here := by
    rw [ofStatements_concat, here_emit]
    exact Nat.lt_add_of_pos_right (by decide : 0 < 1 * 2)
  obtain ⟨m, hm, hstep⟩ := step_split hsplit hrt hsome hfinish hR hx hhost
  have hload : Machine.step (a + UInt32.ofNat (ofStatements pre).here) x =
      Machine.execute.loadTo (a + UInt32.ofNat (ofStatements (pre ++ [.ldrLiteral rt value])).here)
        (Statement.reg rt) (a + UInt32.ofNat (constantOffset ss pre)) ⟨x.cpu.counted, m⟩ := by
    rw [hstep, ← literal_address ha hmod (le_constantOffset hsplit) hnear]
    rfl
  have hsize : constantOffset ss pre + 4 ≤ out.code.size := hword.le (by decide : 0 < 4)
  obtain ⟨m', hm', hvalue⟩ := hx.load_counted hR hm (by decide) (Nat.le_refl 4) hsize
  have hslice : out.code.slice (constantOffset ss pre) 4 = Bytes.ofU32 value := hword
  rw [hslice, Bytes.u32_ofU32] at hvalue
  refine ⟨hoffset, hword, m, m', hm, hm', hload, ?_⟩
  rw [hload, Statement.loadTo_eq (Nat.lt_trans hrt (by decide))]
  exact Op.bind_of_ok hvalue _

end

/-- **Assembler and interpreter agree.** No constant of a program lies before the place that its load counts from,
and a program is refused exactly if one lies more than 255 words after it. A finished program may be read from
anywhere, if it begins at a word: at each statement that is anything at all, the machine does what the statement
says, and the memory is as it was, but for what it has noted about reading. A load is known by the number of its
constant; it goes to where the constant of this number is, and loads the value that was asked for. -/
theorem finish_agrees {ss : List Statement} (hss : ∀ s ∈ ss, s.InRange) :
    (∀ pre rt value post, ss = pre ++ .ldrLiteral rt value :: post →
      ((ofStatements pre).here + 4) / 4 * 4 ≤ constantOffset ss pre) ∧
    ((ofStatements ss).finish = none ↔ ∃ pre rt value post, ss = pre ++ .ldrLiteral rt value :: post ∧
      255 < literalDistance (ofStatements pre).here (constantOffset ss pre)) ∧
    ∀ out, (ofStatements ss).finish = some out →
      ∀ {μ : Type} [Memory μ] {R : μ → μ → Prop}, Memory.Steady R →
      ∀ (x : Machine μ) (a : Addr), a &&& 3 = 0 → x.Reads a out.code →
      ∀ pre s post, ss = pre ++ s :: post →
        let pc := a + UInt32.ofNat (ofStatements pre).here
        let next := a + UInt32.ofNat (ofStatements (pre ++ [s])).here
        x.cpu.host? pc = none →
        ((ofStatements pre).here < (ofStatements (pre ++ [s])).here →
          ∃ m, R x.mem m ∧ Machine.step pc x = s.effect pc next ⟨x.cpu.counted, m⟩) ∧
        ∀ rt value, s = .ldrLiteral rt value → ∃ i m, (ofStatements pre).handle? s = some i ∧
          out.literals[i]? = some (constantOffset ss pre) ∧
          out.code.HasAt (constantOffset ss pre) (Bytes.ofU32 value) ∧ R x.mem m ∧
          Machine.step pc x = Machine.execute.loadTo next (Statement.reg rt)
            (a + UInt32.ofNat (constantOffset ss pre)) ⟨x.cpu.counted, m⟩ := by
  refine ⟨fun _ _ _ _ => le_constantOffset, finish_refuses ss, ?_⟩
  intro out hfinish μ _ R hR x a ha hx pre s post hsplit pc next hhost
  have hs : s.InRange := hss s (by rw [hsplit]; exact List.mem_append_right _ (.head _))
  obtain ⟨rt, value, rfl⟩ | hsame := s.load_or
  · obtain ⟨hoffset, hword, m, m', hm, hm', hfrom, heffect⟩ := step_literal hsplit hs hfinish hR ha hx hhost
    refine ⟨fun _ => ⟨m', hm', heffect⟩, ?_⟩
    rintro rt value ⟨⟩
    exact ⟨_, m, rfl, hoffset, hword, hm, hfrom⟩
  · have hnone := (hsame 0).1
    refine ⟨fun hsome => ?_, ?_⟩
    · obtain ⟨m, hm, hstep⟩ := step_split hsplit hs hsome hfinish hR hx hhost
      exact ⟨m, hm, hstep.trans (Statement.execute_eq hs hnone ..)⟩
    · rintro rt value rfl
      cases hnone

/-- A program whose only constant is loaded between two words, and as it is finished. -/
def sample : List Statement := [.movs 0 1, .ldrLiteral 3 0xdeadbeef, .bxLr]

def sampleCode : Bytes := #[0x01, 0x20, 0x01, 0x4b, 0x70, 0x47, 0x00, 0xbf, 0xef, 0xbe, 0xad, 0xde]

/-- The program at the beginning of the pool. -/
def sampled : Machine Context := ⟨.create, { Small.context with pool.mem := sampleCode }⟩

lemma sampled_reads : sampled.Reads 0x20000000 sampleCode := by
  intro i len hlen hword hi
  have hsize : i + len ≤ 12 := hi
  have hload : ∀ i < 13, ∀ len < 5, 0 < len → i + len ≤ 12 →
      (match Machine.load (0x20000000 + UInt32.ofNat i) len sampled with
        | .ok v _ => v == (sampleCode.slice i len).u32 0
        | .error _ _ => false) = true := by decide +kernel
  have hsame := hload i (by omega) len (by omega) hlen hsize
  split at hsame
  next v y hok => exact ⟨y, by rw [hok, eq_of_beq hsame]⟩
  next => cases hsame

theorem finish_agrees_sample :
    (ofStatements sample).finish = some ⟨sampleCode, [8]⟩ ∧ ∃ m, sampled.mem.unread = m.unread ∧
      Machine.step 0x20000002 sampled = .ok 0x20000004 ⟨sampled.cpu.counted.setReg 3 0xdeadbeef, m⟩ := by
  have hfinish : (ofStatements sample).finish = some ⟨sampleCode, [8]⟩ := by decide +kernel
  obtain ⟨-, -, hexec⟩ := @finish_agrees sample (by decide)
  obtain ⟨m, hm, hstep⟩ := (hexec _ hfinish Context.steady sampled 0x20000000 (by decide) sampled_reads
    [.movs 0 1] (.ldrLiteral 3 0xdeadbeef) [.bxLr] rfl (by decide)).1 (by decide)
  exact ⟨hfinish, m, hm, hstep⟩

end Assembler

end FlashLink
