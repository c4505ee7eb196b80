import FlashLink.Thumb.Branch
import Mathlib.Tactic.IntervalCases
import Mathlib.Tactic.NormNum

/-!
The displacement of a call, put into its two halfwords and taken out of them. Together they consist of the
displacement and of eight opcode bits, and neither part has to do with the other: a displacement is written
without touching the opcode bits, and what is read does not depend on them.

Two bits of the displacement are stored as whether they equal its sign. Asking the same of what is stored
gives them back.
-/

namespace FlashLink.Branch

/-! ### Bits -/

lemma high_opcode (hi : BitVec 16) (d : BitVec 25) : high hi d &&& 0xf800 = hi &&& 0xf800 := by
  apply BitVec.eq_of_getLsbD_eq
  intro i hi
  unfold high
  simp only [BitVec.getLsbD_and, BitVec.getLsbD_append, BitVec.getLsbD_extractLsb']
  interval_cases i <;> simp

lemma low_opcode (lo : BitVec 16) (d : BitVec 25) : low lo d &&& 0xd000 = lo &&& 0xd000 := by
  apply BitVec.eq_of_getLsbD_eq
  intro i hi
  unfold low bit
  simp only [BitVec.getLsbD_and, BitVec.getLsbD_append, BitVec.getLsbD_extractLsb']
  interval_cases i <;> simp

/-- Gathering undoes scattering, but for the lowest bit. -/
lemma field_high_low (hi lo : BitVec 16) (d : BitVec 25) :
    field (high hi d) (low lo d) = d.extractLsb' 1 24 ++ 0#1 := by
  apply BitVec.eq_of_getLsbD_eq
  intro i hi
  unfold field high low bit
  simp only [BitVec.getLsbD_append, BitVec.getLsbD_extractLsb', BitVec.getLsbD_not,
    BitVec.getLsbD_xor]
  interval_cases i <;> simp

/-- Scattering what was gathered gives the first halfword again. -/
lemma high_field (hi lo : BitVec 16) : high hi (field hi lo) = hi := by
  apply BitVec.eq_of_getLsbD_eq
  intro i hi
  unfold high field bit
  simp only [BitVec.getLsbD_append, BitVec.getLsbD_extractLsb']
  interval_cases i <;> simp

/-- And the second one. -/
lemma low_field (hi lo : BitVec 16) : low lo (field hi lo) = lo := by
  apply BitVec.eq_of_getLsbD_eq
  intro i hi
  unfold low field bit
  simp only [BitVec.getLsbD_append, BitVec.getLsbD_extractLsb', BitVec.getLsbD_not,
    BitVec.getLsbD_xor]
  interval_cases i <;> simp

/-- Halfwords that agree under a mask agree wherever the mask is set. -/
lemma extract_eq_of_and_eq {v w mask : BitVec 16} {start len : Nat}
    (hmask : mask.extractLsb' start len = BitVec.allOnes len) (h : v &&& mask = w &&& mask) :
    v.extractLsb' start len = w.extractLsb' start len := by
  have hextract : (v &&& mask).extractLsb' start len = (w &&& mask).extractLsb' start len := by rw [h]
  rwa [BitVec.extractLsb'_and, BitVec.extractLsb'_and, hmask, BitVec.and_allOnes,
    BitVec.and_allOnes] at hextract

/-- Of the old halfword only the opcode bits matter. -/
lemma high_congr {hi hi' : BitVec 16} (h : hi &&& 0xf800 = hi' &&& 0xf800) (d : BitVec 25) :
    high hi d = high hi' d := by
  have hopcode : hi.extractLsb' 11 5 = hi'.extractLsb' 11 5 := extract_eq_of_and_eq (by decide) h
  unfold high
  rw [hopcode]

lemma low_congr {lo lo' : BitVec 16} (h : lo &&& 0xd000 = lo' &&& 0xd000) (d : BitVec 25) :
    low lo d = low lo' d := by
  have hupper : lo.extractLsb' 14 2 = lo'.extractLsb' 14 2 := extract_eq_of_and_eq (by decide) h
  have hbit : bit lo 12 = bit lo' 12 := extract_eq_of_and_eq (by decide) h
  unfold low
  rw [hupper, hbit]

/-! ### Halfwords -/

variable {hi lo hi' lo' : UInt16} {d : Int}

lemma encode_high_opcode (hi lo : UInt16) (d : Int) : (encode hi lo d).1 &&& 0xf800 = hi &&& 0xf800 :=
  UInt16.toBitVec_inj.1 (high_opcode _ _)

lemma encode_low_opcode (hi lo : UInt16) (d : Int) : (encode hi lo d).2 &&& 0xd000 = lo &&& 0xd000 :=
  UInt16.toBitVec_inj.1 (low_opcode _ _)

/-- The opcode bits tell what is a call. -/
lemma isLink_encode_eq (hi lo : UInt16) (d : Int) :
    isLink (encode hi lo d).1 (encode hi lo d).2 = isLink hi lo := by
  unfold isLink
  rw [encode_high_opcode, encode_low_opcode]

/-- A call stays a call. -/
lemma isLink_encode (h : isLink hi lo) : isLink (encode hi lo d).1 (encode hi lo d).2 := by
  rwa [isLink_encode_eq]

/-- Displacements count halfwords. -/
lemma decode_even (hi lo : UInt16) : decode hi lo % 2 = 0 := by
  unfold decode field
  rw [BitVec.toInt_append]
  simp

lemma inRange_iff : inRange d = true ↔ -2 ^ 24 ≤ d ∧ d < 2 ^ 24 := by
  simp only [inRange, Bool.and_eq_true, decide_eq_true_eq]
  norm_num [reach]

/-- A call holds displacements in range only. -/
lemma inRange_decode (hi lo : UInt16) : inRange (decode hi lo) :=
  inRange_iff.2 ⟨BitVec.le_toInt _, BitVec.toInt_lt⟩

/-- A displacement in range is read back, but for its lowest bit. -/
lemma decode_encode (h : inRange d) : decode (encode hi lo d).1 (encode hi lo d).2 = d - d % 2 := by
  have hd : (BitVec.ofInt 25 d).toInt = d := by
    rw [inRange_iff] at h
    rw [BitVec.toInt_ofInt]
    exact Int.bmod_eq_of_le (by norm_num; omega) (by norm_num; omega)
  unfold decode encode
  dsimp only
  rw [field_high_low]
  generalize BitVec.ofInt 25 d = v at hd ⊢
  have hhalf : (v.extractLsb' 1 24 ++ 0#1).toNat = 2 * (v.toNat / 2) := by
    rw [BitVec.toNat_append, BitVec.extractLsb'_toNat, Nat.shiftRight_eq_div_pow, Nat.shiftLeft_eq]
    simp
    omega
  rw [BitVec.toInt_eq_toNat_cond] at hd ⊢
  rw [hhalf]
  omega

/-- Opcode bits and displacement make up the halfwords. -/
lemma encode_decode (hhigh : hi' &&& 0xf800 = hi &&& 0xf800) (hlow : lo' &&& 0xd000 = lo &&& 0xd000) :
    encode hi' lo' (decode hi lo) = (hi, lo) := by
  have hfirst : high hi'.toBitVec (field hi.toBitVec lo.toBitVec) = hi.toBitVec := by
    rw [high_congr (UInt16.toBitVec_inj.2 hhigh), high_field]
  have hsecond : low lo'.toBitVec (field hi.toBitVec lo.toBitVec) = lo.toBitVec := by
    rw [low_congr (UInt16.toBitVec_inj.2 hlow), low_field]
  unfold encode decode
  dsimp only
  rw [BitVec.ofInt_toInt, hfirst, hsecond]

/-- **Encoding and decoding are inverse.** Whatever is encoded, the opcode bits are kept, so that a call
stays a call and nothing else becomes one. A displacement in range is decoded again, with bit 0 cleared.
Every displacement that is decoded is in range, and encoding it where it was found changes nothing. It gives
the same halfwords from any others with their opcode bits: no two calls have one displacement. -/
theorem round_trips (hi lo : UInt16) :
    (∀ d, (encode hi lo d).1 &&& 0xf800 = hi &&& 0xf800 ∧
      (encode hi lo d).2 &&& 0xd000 = lo &&& 0xd000 ∧
      isLink (encode hi lo d).1 (encode hi lo d).2 = isLink hi lo) ∧
    (∀ d, inRange d → decode (encode hi lo d).1 (encode hi lo d).2 = d - d % 2) ∧
    inRange (decode hi lo) ∧
    encode hi lo (decode hi lo) = (hi, lo) ∧
    ∀ hi' lo', hi' &&& 0xf800 = hi &&& 0xf800 → lo' &&& 0xd000 = lo &&& 0xd000 →
      encode hi' lo' (decode hi lo) = (hi, lo) := by
  refine ⟨fun d => ⟨?opcodeHigh, ?opcodeLow, ?call⟩, ?inverse, ?range, ?same, ?unique⟩
  case opcodeHigh => exact encode_high_opcode hi lo d
  case opcodeLow => exact encode_low_opcode hi lo d
  case call => exact isLink_encode_eq hi lo d
  case inverse =>
    intro d h
    exact decode_encode h
  case range => exact inRange_decode hi lo
  case same => exact encode_decode rfl rfl
  case unique =>
    intro hi' lo' hhigh hlow
    exact encode_decode hhigh hlow

/-- An odd displacement at the lower end of the range, encoded into a call with the addend -4. -/
theorem round_trips_lowest :
    inRange (-0xffffff) ∧ encode 0xf7ff 0xfffe (-0xffffff) = (0xf400, 0xd000) ∧
      decode 0xf400 0xd000 = -0x1000000 ∧ encode 0xf7ff 0xfffe (-0x1000000) = (0xf400, 0xd000) := by
  have hodd : encode 0xf7ff 0xfffe (-0xffffff) = (0xf400, 0xd000) := by decide
  have hlowest := (round_trips 0xf7ff 0xfffe).2.1 (-0xffffff) (by decide)
  rw [hodd] at hlowest
  obtain ⟨-, -, -, -, hencode⟩ := round_trips 0xf400 0xd000
  have hback := hencode 0xf7ff 0xfffe (by decide) (by decide)
  rw [hlowest] at hback
  exact ⟨by decide, hodd, hlowest, hback⟩

end FlashLink.Branch
