import FlashLink.Residency.Report
import FlashLink.Proofs.Regions

/-!
Addresses of regular partitions, which start at a word and do not wrap around, and where an address of
a section is in a copy of the section. Different addresses of one section are at different addresses of
the copy, the Thumb bit included.
-/

namespace FlashLink

/-! ### The Thumb bit -/

lemma or_one_eq (x : Addr) : x &&& ~~~1 ||| x &&& 1 = x := by
  refine UInt32.toBitVec_inj.1 ?_
  change x.toBitVec &&& ~~~1#32 ||| x.toBitVec &&& 1#32 = x.toBitVec
  rw [← BitVec.and_or_distrib_left, BitVec.or_comm, BitVec.or_not_self, BitVec.and_allOnes]

lemma and_one_iff (x : Addr) : x &&& 1 = 0 ↔ x.toNat % 2 = 0 := by
  rw [← UInt32.toNat_inj, UInt32.toNat_and]
  exact iff_of_eq (congrArg (· = 0) (Nat.and_two_pow_sub_one_eq_mod x.toNat 1))

/-- The address without the Thumb bit. -/
lemma bare_even (x : Addr) : (x &&& ~~~1).toNat % 2 = 0 := by
  rw [← and_one_iff, UInt32.and_assoc]
  simp

/-- An even address is left when its Thumb bit is cleared again. -/
lemma bare_or {x : Addr} (h : x.toNat % 2 = 0) (y : Addr) : (x ||| y &&& 1) &&& ~~~1 = x := by
  rw [or_and_distrib, and_not_eq ((and_one_iff x).2 h), UInt32.and_assoc]
  simp

/-- The Thumb bit of an even address is that which was set. -/
lemma thumb_or {x : Addr} (h : x.toNat % 2 = 0) (y : Addr) : (x ||| y &&& 1) &&& 1 = y &&& 1 := by
  rw [or_and_distrib, (and_one_iff x).2 h, UInt32.and_assoc]
  simp

/-! ### Ranges -/

lemma covers_iff {start addr : Addr} {len : Nat} :
    covers start len addr ↔ start.toNat ≤ addr.toNat ∧ addr.toNat < start.toNat + len := by
  unfold covers
  rw [Bool.and_eq_true, decide_eq_true_eq, decide_eq_true_eq, UInt32.le_iff_toNat_le]
  refine and_congr_right fun hle => ?_
  rw [UInt32.toNat_sub_of_le _ _ (UInt32.le_iff_toNat_le.2 hle)]
  omega

/-- The CPU sees the partition from a word on, and its last byte is not past the address space. -/
structure Partition.Regular (p : Partition) : Prop where
  aligned : p.base.toNat % wordSize = 0
  fits : p.base.toNat + p.size ≤ UInt32.size

namespace Region

variable {r : Region} {offset : Nat}

lemma toNat_address (hfits : r.partition.base.toNat + r.partition.size ≤ UInt32.size)
    (hlt : offset < r.partition.size) :
    (r.address offset).toNat = r.partition.base.toNat + offset := by
  rw [UInt32.size] at hfits
  rw [address, UInt32.toNat_add, UInt32.toNat_ofNat', Nat.mod_eq_of_lt (a := offset) (by omega),
    Nat.mod_eq_of_lt (by omega)]

lemma contains_eq (r : Region) (a : Addr) : r.contains a = covers r.partition.base r.partition.size a := by
  unfold contains offsetOf?
  split_ifs with h <;> simp [h]

lemma contains_address (hfits : r.partition.base.toNat + r.partition.size ≤ UInt32.size)
    (hlt : offset < r.partition.size) : r.contains (r.address offset) := by
  rw [contains_eq, covers_iff, toNat_address hfits hlt]
  omega

lemma offsetOf?_address (hfits : r.partition.base.toNat + r.partition.size ≤ UInt32.size)
    (hlt : offset < r.partition.size) : r.offsetOf? (r.address offset) = some offset := by
  have hcovers := contains_address hfits hlt
  rw [contains_eq] at hcovers
  have hsub : r.address offset - r.partition.base = UInt32.ofNat offset := by
    rw [address, UInt32.add_comm, UInt32.add_sub_cancel]
  rw [UInt32.size] at hfits
  rw [offsetOf?, if_pos hcovers, hsub, UInt32.toNat_ofNat', Nat.mod_eq_of_lt (by omega)]

/-- The addresses of a span of the partition. -/
lemma covers_address_iff (h : r.partition.Regular) {size : Nat} (hle : offset + size ≤ r.partition.size)
    {a : Addr} : covers (r.address offset) size a ↔ r.partition.base.toNat + offset ≤ a.toNat ∧
      a.toNat < r.partition.base.toNat + offset + size := by
  rw [covers_iff]
  rcases Nat.eq_zero_or_pos size with rfl | hpos
  · exact iff_of_false (by omega) (by omega)
  · rw [toNat_address h.fits (by omega)]

lemma contains_of_covers (h : r.partition.Regular) {size : Nat}
    (hle : offset + size ≤ r.partition.size) {a : Addr} (ha : covers (r.address offset) size a) :
    r.contains a := by
  have := (covers_address_iff h hle).1 ha
  rw [contains_eq, covers_iff]
  omega

lemma address_fits (h : r.partition.Regular) {size : Nat} (hle : offset + size ≤ r.partition.size) :
    (r.address offset).toNat + size ≤ UInt32.size := by
  rcases Nat.eq_zero_or_pos size with rfl | hpos
  · exact Nat.le_of_lt (UInt32.toNat_lt _)
  · have hfits := h.fits
    rw [toNat_address hfits (by omega)]
    omega

/-- Words of the partition are at word addresses. -/
lemma address_aligned (h : r.partition.Regular) (hword : offset % wordSize = 0) :
    (r.address offset).toNat % wordSize = 0 := by
  have haligned := h.aligned
  rw [address, UInt32.toNat_add, UInt32.toNat_ofNat']
  rw [wordSize] at *
  omega

end Region

/-! ### Copies -/

namespace ResidentCopy

variable {c : ResidentCopy} {w v target : Addr}

lemma relocate?_eq_some : c.relocate? w = some target ↔ covers c.xip c.size (w &&& ~~~1) ∧
    c.iflash + ((w &&& ~~~1) - c.xip) ||| w &&& 1 = target := by
  unfold relocate?
  dsimp only
  split_ifs with h
  · simp [h]
  · simp [h]

/-- The copy starts at an even address, as the section does, and is within the address space. -/
structure Regular (c : ResidentCopy) : Prop where
  xip_even : c.xip.toNat % 2 = 0
  iflash_even : c.iflash.toNat % 2 = 0
  fits : c.iflash.toNat + c.size ≤ UInt32.size

/-- Where the address is in the copy. -/
lemma Regular.relocated (hc : c.Regular) (h : c.relocate? w = some target) :
    covers c.iflash c.size (target &&& ~~~1) ∧
      (target &&& ~~~1).toNat - c.iflash.toNat = (w &&& ~~~1).toNat - c.xip.toNat ∧
      target &&& 1 = w &&& 1 := by
  obtain ⟨hcovers, rfl⟩ := relocate?_eq_some.1 h
  obtain ⟨hle, hlt⟩ := covers_iff.1 hcovers
  have hfits := hc.fits
  rw [UInt32.size] at hfits
  have hoff : ((w &&& ~~~1) - c.xip).toNat = (w &&& ~~~1).toNat - c.xip.toNat :=
    UInt32.toNat_sub_of_le _ _ (UInt32.le_iff_toNat_le.2 hle)
  have hsum : (c.iflash + ((w &&& ~~~1) - c.xip)).toNat =
      c.iflash.toNat + ((w &&& ~~~1).toNat - c.xip.toNat) := by
    rw [UInt32.toNat_add, hoff, Nat.mod_eq_of_lt (by omega)]
  have heven : (c.iflash + ((w &&& ~~~1) - c.xip)).toNat % 2 = 0 := by
    have h1 := bare_even w
    have h2 := hc.xip_even
    have h3 := hc.iflash_even
    omega
  rw [bare_or heven, thumb_or heven, covers_iff, hsum]
  exact ⟨by omega, by omega, rfl⟩

/-- Different addresses are at different places of the copy. -/
lemma Regular.relocate?_inj (hc : c.Regular) (h : c.relocate? w = some target)
    (h' : c.relocate? v = some target) : w = v := by
  obtain ⟨-, hw, hw'⟩ := hc.relocated h
  obtain ⟨-, hv, hv'⟩ := hc.relocated h'
  have h1 := (covers_iff.1 (relocate?_eq_some.1 h).1).1
  have h2 := (covers_iff.1 (relocate?_eq_some.1 h').1).1
  have hbare : w &&& ~~~1 = v &&& ~~~1 := UInt32.toNat_inj.1 (by omega)
  rw [← or_one_eq w, ← or_one_eq v, hbare, ← hw', hv']

end ResidentCopy

end FlashLink
