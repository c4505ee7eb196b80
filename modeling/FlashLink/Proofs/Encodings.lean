import FlashLink.Build.Assembler
import FlashLink.Machine.Instruction
import FlashLink.Proofs.ByteSpans
import Mathlib.Algebra.GroupWithZero.Nat

/-!
What is assembled is decoded. Every statement whose operands fit in their fields has an encoding that the
machine reads as the instruction the statement names, whatever the operands are. A halfword is the sum of its
fields, as they do not overlap, and its upper five bits tell most of the instructions apart.
-/

namespace FlashLink

/-! ### Sums of fields -/

/-- Numbers without a bit in common are put together by adding them. -/
lemma or_eq_add {n m k : Nat} (hn : n % 2 ^ k = 0) (hm : m < 2 ^ k) : n ||| m = n + m := by
  obtain ⟨c, rfl⟩ := Nat.dvd_of_mod_eq_zero hn
  exact (Nat.two_pow_add_eq_or_of_lt hm c).symm

/-- A mask of all bits from `k` on leaves the multiple of `2 ^ k` below a number. -/
lemma and_high {w k n : Nat} (hk : k ≤ w) (hn : n < 2 ^ w) : n &&& (2 ^ w - 2 ^ k) = n / 2 ^ k * 2 ^ k := by
  have hmask : 2 ^ w - 2 ^ k = (2 ^ (w - k) - 1) * 2 ^ k := by
    rw [Nat.sub_mul, ← Nat.pow_add, Nat.sub_add_cancel hk, Nat.one_mul]
  rw [hmask]
  refine Nat.eq_of_testBit_eq fun i => ?_
  rw [Nat.testBit_and, Nat.testBit_mul_two_pow, Nat.testBit_mul_two_pow, Nat.testBit_two_pow_sub_one,
    Nat.testBit_div_two_pow]
  rcases Nat.lt_or_ge i k with h | h
  · simp [Nat.not_le.2 h]
  · rw [Nat.sub_add_cancel h]
    rcases Nat.lt_or_ge i w with hw | hw
    · simp [h, show i - k < w - k by omega]
    · have hzero : n.testBit i = false := Nat.testBit_lt_two_pow (Nat.lt_of_lt_of_le hn
        (Nat.pow_le_pow_right (by decide) hw))
      simp [hzero]

lemma toNat_or_eq_add {a b : UInt16} {k : Nat} (ha : a.toNat % 2 ^ k = 0) (hb : b.toNat < 2 ^ k) :
    (a ||| b).toNat = a.toNat + b.toNat := by
  rw [UInt16.toNat_or, or_eq_add ha hb]

/-! ### Statements -/

namespace Statement

/-- The register of a number that is written in a statement. -/
def reg (r : UInt8) : Reg := Reg.ofNat r.toNat

/-- Every operand fits in its field: three bits name a low register, and no register is the program counter. -/
def InRange : Statement → Prop
  | movs rd _ | adds rd _ | ldrLiteral rd _ => rd.toNat < 8
  | movsReg rd rm => rd.toNat < 8 ∧ rm.toNat < 8
  | mov rd rm => rd.toNat < 15 ∧ rm.toNat < 15
  | str rt rn words | ldr rt rn words => rt.toNat < 8 ∧ rn.toNat < 8 ∧ words.toNat < 32
  | ldrWide rt rn imm => rt.toNat < 15 ∧ rn.toNat < 15 ∧ imm.toNat < 4096
  | blx rm => rm.toNat < 15
  | pushLr | popPc | bxLr | nop | align | bl => True

instance : DecidablePred InRange := fun s => by
  cases s <;> unfold InRange <;> infer_instance

/-- The halfwords of a statement at an offset in the finished program. A load from the pool counts words, and what
fills up is nothing where there is nothing to fill. -/
def finished (here : Nat) (words : UInt8) : Statement → List UInt16
  | align => if here % 4 ≠ 0 then [0xbf00] else []
  | ldrLiteral rt _ => [(0x4800 : UInt16) ||| rt.toUInt16 <<< 8 ||| words.toUInt16]
  | s => s.halfwords

/-- The instruction that a statement names. -/
def instruction (words : UInt8) : Statement → Instruction
  | movs rd imm => .moveImm (reg rd) (UInt32.ofNat imm.toNat)
  | adds rd imm => .addImm (reg rd) (reg rd) (UInt32.ofNat imm.toNat)
  | movsReg rd rm => .shiftLeft (reg rd) (reg rm) 0
  | mov rd rm => .move (reg rd) (reg rm)
  | str rt rn words => .store (reg rt) (reg rn) (UInt32.ofNat words.toNat * 4)
  | ldr rt rn words => .load (reg rt) (reg rn) (UInt32.ofNat words.toNat * 4)
  | ldrWide rt rn imm => .load (reg rt) (reg rn) (UInt32.ofNat imm.toNat)
  | pushLr => .push 0 true
  | popPc => .pop 0 true
  | bxLr => .jump Reg.lr
  | blx rm => .call (reg rm)
  | nop | align => .nop
  | bl => .branchLink (UInt32.ofInt (-4))
  | ldrLiteral rt _ => .loadLiteral (reg rt) (UInt32.ofNat words.toNat * 4)

end Statement

namespace Instruction

/-- One or two halfwords that are read as an instruction. -/
def Decodes : List UInt16 → Instruction → Prop
  | [hw], i => isWide hw = false ∧ decodeNarrow hw = some i
  | [hi, lo], i => isWide hi = true ∧ decodeWide hi lo = some i
  | _, _ => False

/-! ### Fields -/

variable {hw : UInt16}

lemma bits_eq {low width n : Nat} (h : hw.toNat / 2 ^ low % 2 ^ width = n) :
    bits hw low width = UInt32.ofNat n := by
  rw [bits, Nat.shiftRight_eq_div_pow, Nat.one_shiftLeft, h]

lemma reg_eq {low width n : Nat} (h : hw.toNat / 2 ^ low % 2 ^ width = n) : reg hw low width = Reg.ofNat n := by
  rw [reg, Nat.shiftRight_eq_div_pow, Nat.one_shiftLeft, h]
  rfl

/-- The upper five bits of a halfword, in place. -/
lemma upper_eq {upper : UInt16} (h : hw.toNat / 2048 * 2048 = upper.toNat) : hw &&& 0xf800 = upper := by
  rw [← UInt16.toNat_inj, UInt16.toNat_and, ← h]
  exact and_high (w := 16) (k := 11) (by decide) hw.toNat_lt

/-- The upper five bits differ, so that whatever else is compared does. -/
lemma masked_ne {upper mask value : UInt16} (h : hw &&& 0xf800 = upper) (hmask : mask &&& 0xf800 = 0xf800)
    (hvalue : value &&& 0xf800 ≠ upper) : hw &&& mask ≠ value := by
  rintro rfl
  rw [UInt16.and_assoc, hmask] at hvalue
  exact hvalue h

/-! ### Narrow instructions -/

section Narrow

lemma decode_moveImm (h : hw &&& 0xf800 = 0x2000) :
    decodeNarrow hw = some (.moveImm (reg hw 8 3) (bits hw 0 8)) := by
  unfold decodeNarrow
  simp +decide only [h, masked_ne h, if_false, if_true]

lemma decode_addImm (h : hw &&& 0xf800 = 0x3000) :
    decodeNarrow hw = some (.addImm (reg hw 8 3) (reg hw 8 3) (bits hw 0 8)) := by
  unfold decodeNarrow
  simp +decide only [h, masked_ne h, if_false, if_true]

lemma decode_loadLiteral (h : hw &&& 0xf800 = 0x4800) :
    decodeNarrow hw = some (.loadLiteral (reg hw 8 3) (bits hw 0 8 * 4)) := by
  unfold decodeNarrow
  simp +decide only [h, masked_ne h, if_false, if_true]

lemma decode_store (h : hw &&& 0xf800 = 0x6000) :
    decodeNarrow hw = some (.store (reg hw 0 3) (reg hw 3 3) (bits hw 6 5 * 4)) := by
  unfold decodeNarrow
  simp +decide only [h, masked_ne h, if_false, if_true]

lemma decode_load (h : hw &&& 0xf800 = 0x6800) :
    decodeNarrow hw = some (.load (reg hw 0 3) (reg hw 3 3) (bits hw 6 5 * 4)) := by
  unfold decodeNarrow
  simp +decide only [h, masked_ne h, if_false, if_true]

end Narrow

/-! ### Encodings -/

lemma isWide_eq_false (h : hw.toNat < 0xe800) : isWide hw = false :=
  decide_eq_false fun hle => Nat.not_le.2 h (UInt16.le_iff_toNat_le.1 hle)

/-- A byte that is shifted within a halfword. -/
lemma toNat_shifted {r : UInt8} {k : UInt16} (h : r.toNat * 2 ^ (k.toNat % 16) < 2 ^ 16) :
    (r.toUInt16 <<< k).toNat = r.toNat * 2 ^ (k.toNat % 16) := by
  rw [UInt16.toNat_shiftLeft, UInt8.toNat_toUInt16, Nat.shiftLeft_eq, Nat.mod_eq_of_lt h]

/-- The fields of an operation on a low register and a byte. -/
lemma registerByte (op : UInt16) {r : UInt8} (hop : op.toNat % 2 ^ 11 = 0) (hnarrow : op.toNat < 0xe800)
    (hr : r.toNat < 8) (b : UInt8) (hhw : hw = op ||| r.toUInt16 <<< 8 ||| b.toUInt16) :
    isWide hw = false ∧ hw &&& 0xf800 = op ∧ reg hw 8 3 = Reg.ofNat r.toNat ∧
      bits hw 0 8 = UInt32.ofNat b.toNat := by
  have hshift : (r.toUInt16 <<< 8).toNat = r.toNat * 256 := toNat_shifted (k := 8) (by
    change r.toNat * 256 < 65536
    omega)
  have hleft := toNat_or_eq_add (b := r.toUInt16 <<< 8) hop (by rw [hshift]; omega)
  rw [hshift] at hleft
  have hb : b.toUInt16.toNat < 2 ^ 8 := by
    rw [UInt8.toNat_toUInt16]
    exact b.toNat_lt
  have hsum : hw.toNat = op.toNat + r.toNat * 256 + b.toNat := by
    rw [hhw, toNat_or_eq_add (by rw [hleft]; omega) hb, hleft]
    rfl
  rw [UInt8.toNat_toUInt16] at hb
  exact ⟨isWide_eq_false (by omega), upper_eq (by omega), reg_eq (by omega), bits_eq (by omega)⟩

/-- The fields of an access by two low registers and a number of words. -/
lemma registersWords (op : UInt16) {rt rn words : UInt8} (hop : op.toNat % 2 ^ 11 = 0)
    (hnarrow : op.toNat < 0xe800) (ht : rt.toNat < 8) (hn : rn.toNat < 8) (hw' : words.toNat < 32)
    (hhw : hw = op ||| words.toUInt16 <<< 6 ||| rn.toUInt16 <<< 3 ||| rt.toUInt16) :
    isWide hw = false ∧ hw &&& 0xf800 = op ∧ reg hw 0 3 = Reg.ofNat rt.toNat ∧
      reg hw 3 3 = Reg.ofNat rn.toNat ∧ bits hw 6 5 = UInt32.ofNat words.toNat := by
  have hwords : (words.toUInt16 <<< 6).toNat = words.toNat * 64 := toNat_shifted (k := 6) (by
    change words.toNat * 64 < 65536
    omega)
  have hshift : (rn.toUInt16 <<< 3).toNat = rn.toNat * 8 := toNat_shifted (k := 3) (by
    change rn.toNat * 8 < 65536
    omega)
  have h1 := toNat_or_eq_add (b := words.toUInt16 <<< 6) hop (by rw [hwords]; omega)
  rw [hwords] at h1
  have h2 := toNat_or_eq_add (k := 6) (a := op ||| words.toUInt16 <<< 6) (b := rn.toUInt16 <<< 3)
    (by rw [h1]; omega) (by rw [hshift]; omega)
  rw [h1, hshift] at h2
  have hsum : hw.toNat = op.toNat + words.toNat * 64 + rn.toNat * 8 + rt.toNat := by
    rw [hhw, toNat_or_eq_add (k := 3) (by rw [h2]; omega) (by rw [UInt8.toNat_toUInt16]; omega), h2]
    rfl
  exact ⟨isWide_eq_false (by omega), upper_eq (by omega), reg_eq (by omega), reg_eq (by omega),
    bits_eq (by omega)⟩

/-- The fields of a register and twelve bits. -/
lemma registerImmediate {r : UInt8} {imm : UInt16} (hr : r.toNat < 16) (himm : imm.toNat < 4096)
    (hhw : hw = r.toUInt16 <<< 12 ||| (imm &&& 0xfff)) :
    reg hw 12 4 = Reg.ofNat r.toNat ∧ bits hw 0 12 = UInt32.ofNat imm.toNat := by
  have hshift : (r.toUInt16 <<< 12).toNat = r.toNat * 4096 := toNat_shifted (k := 12) (by
    change r.toNat * 4096 < 65536
    omega)
  have hmask : (imm &&& 0xfff).toNat = imm.toNat := by
    rw [UInt16.toNat_and]
    exact (Nat.and_two_pow_sub_one_eq_mod imm.toNat 12).trans (Nat.mod_eq_of_lt himm)
  have hsum : hw.toNat = r.toNat * 4096 + imm.toNat := by
    rw [hhw, toNat_or_eq_add (k := 12) (by rw [hshift]; omega) (by rw [hmask]; exact himm), hshift, hmask]
  exact ⟨reg_eq (by omega), bits_eq (by omega)⟩

/-! ### Tables

Where all operands are registers there are few encodings. -/

lemma table_movsReg : ∀ d < 8, ∀ m < 8,
    isWide ((UInt8.ofNat m).toUInt16 <<< 3 ||| (UInt8.ofNat d).toUInt16) = false ∧
      decodeNarrow ((UInt8.ofNat m).toUInt16 <<< 3 ||| (UInt8.ofNat d).toUInt16) =
        some (.shiftLeft (Reg.ofNat d) (Reg.ofNat m) 0) := by
  decide +kernel

lemma table_mov : ∀ d < 15, ∀ m < 15, ∀ hw,
    hw = (0x4600 : UInt16) ||| ((UInt8.ofNat d).toUInt16 &&& 8) <<< 4 ||| (UInt8.ofNat m).toUInt16 <<< 3 |||
      ((UInt8.ofNat d).toUInt16 &&& 7) →
    isWide hw = false ∧ decodeNarrow hw = some (.move (Reg.ofNat d) (Reg.ofNat m)) := by
  simp only [forall_eq]
  decide +kernel

lemma table_blx : ∀ m < 15, isWide ((0x4780 : UInt16) ||| (UInt8.ofNat m).toUInt16 <<< 3) = false ∧
    decodeNarrow ((0x4780 : UInt16) ||| (UInt8.ofNat m).toUInt16 <<< 3) = some (.call (Reg.ofNat m)) := by
  decide +kernel

lemma table_fixed : decodeNarrow 0xb500 = some (.push 0 true) ∧ decodeNarrow 0xbd00 = some (.pop 0 true) ∧
    decodeNarrow 0x4770 = some (.jump Reg.lr) ∧ decodeNarrow 0xbf00 = some .nop ∧
    decodeWide 0xf7ff 0xfffe = some (.branchLink (UInt32.ofInt (-4))) := by
  decide

/-- The first halfword of a wide load is that of no other wide instruction. -/
lemma table_ldrWide : ∀ n < 15, ∀ hi, hi = (0xf8d0 : UInt16) ||| (UInt8.ofNat n).toUInt16 →
    isWide hi = true ∧ hi &&& 0xf800 ≠ 0xf000 ∧ hi ≠ 0xf8df ∧ hi ≠ 0xf85f ∧ hi &&& 0xfff0 = 0xf8d0 ∧
      reg hi 0 4 = Reg.ofNat n := by
  simp only [forall_eq]
  decide +kernel

lemma decode_loadWide {hi lo : UInt16} (hlink : hi &&& 0xf800 ≠ 0xf000) (hforward : hi ≠ 0xf8df)
    (hbackward : hi ≠ 0xf85f) (hload : hi &&& 0xfff0 = 0xf8d0) :
    decodeWide hi lo = some (.load (reg lo 12 4) (reg hi 0 4) (bits lo 0 12)) := by
  unfold decodeWide Branch.isLink
  simp +decide only [beq_eq_false_iff_ne.2 hlink, hforward, hbackward, hload, Bool.false_and, if_false, if_true]

end Instruction

namespace Statement

open Instruction

variable {words : UInt8} {here : Nat}

/-- **Every statement** is read as the instruction that it names, if it is anything at all. -/
theorem decodes {s : Statement} (h : s.InRange) (hne : s.finished here words ≠ []) :
    Decodes (s.finished here words) (s.instruction words) := by
  cases s with
  | movs rd imm =>
    obtain ⟨hnarrow, hupper, hreg, hbits⟩ := registerByte 0x2000 (by decide) (by decide) h imm rfl
    exact ⟨hnarrow, by rw [decode_moveImm hupper, hreg, hbits]; rfl⟩
  | adds rd imm =>
    obtain ⟨hnarrow, hupper, hreg, hbits⟩ := registerByte 0x3000 (by decide) (by decide) h imm rfl
    exact ⟨hnarrow, by rw [decode_addImm hupper, hreg, hbits]; rfl⟩
  | ldrLiteral rt value =>
    obtain ⟨hnarrow, hupper, hreg, hbits⟩ := registerByte 0x4800 (by decide) (by decide) h words rfl
    exact ⟨hnarrow, by rw [decode_loadLiteral hupper, hreg, hbits]; rfl⟩
  | str rt rn n =>
    obtain ⟨hnarrow, hupper, ht, hn, hbits⟩ :=
      registersWords 0x6000 (by decide) (by decide) h.1 h.2.1 h.2.2 rfl
    exact ⟨hnarrow, by rw [decode_store hupper, ht, hn, hbits]; rfl⟩
  | ldr rt rn n =>
    obtain ⟨hnarrow, hupper, ht, hn, hbits⟩ :=
      registersWords 0x6800 (by decide) (by decide) h.1 h.2.1 h.2.2 rfl
    exact ⟨hnarrow, by rw [decode_load hupper, ht, hn, hbits]; rfl⟩
  | ldrWide rt rn imm =>
    obtain ⟨hwide, hlink, hforward, hbackward, hload, hn⟩ :=
      table_ldrWide rn.toNat h.2.1 _ (by rw [UInt8.ofNat_toNat])
    obtain ⟨ht, hbits⟩ := registerImmediate (r := rt) (Nat.lt_succ_of_lt h.1) h.2.2 rfl
    exact ⟨hwide, by rw [decode_loadWide hlink hforward hbackward hload, ht, hn, hbits]; rfl⟩
  | movsReg rd rm =>
    have htable := table_movsReg rd.toNat h.1 rm.toNat h.2
    rwa [UInt8.ofNat_toNat, UInt8.ofNat_toNat] at htable
  | mov rd rm => exact table_mov rd.toNat h.1 rm.toNat h.2 _ (by rw [UInt8.ofNat_toNat, UInt8.ofNat_toNat])
  | blx rm =>
    have htable := table_blx rm.toNat h
    rwa [UInt8.ofNat_toNat] at htable
  | align =>
    unfold finished at hne ⊢
    split_ifs at hne ⊢ with hfull
    · exact ⟨by decide, table_fixed.2.2.2.1⟩
    · exact absurd rfl hne
  | pushLr => exact ⟨by decide, table_fixed.1⟩
  | popPc => exact ⟨by decide, table_fixed.2.1⟩
  | bxLr => exact ⟨by decide, table_fixed.2.2.1⟩
  | nop => exact ⟨by decide, table_fixed.2.2.2.1⟩
  | bl => exact ⟨by decide, table_fixed.2.2.2.2⟩

end Statement

end FlashLink
