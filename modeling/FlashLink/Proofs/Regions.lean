import FlashLink.Flash.Region
import FlashLink.Proofs.ByteSpans
import FlashLink.Proofs.Logic

/-!
What operations on flash regions do to the device.

`Edited F` is the footprint of everything that works at the offsets `F` of a partition, come what may:
no byte elsewhere changes, in the partition or outside it, and the bump offset only goes up. On a sound
region whose device has no failure armed, erasing and writing inside the partition succeed, and the
contents afterwards are known to the byte.
-/

namespace FlashLink

namespace Region

/-- What `create` checks of a region, and what every allocation keeps. -/
structure Sound (r : Region) : Prop where
  sector_pos : 0 < r.sector
  sector_word : r.sector % wordSize = 0
  fits : r.partition.offset + r.partition.size ≤ r.device.size
  start_aligned : r.partition.offset % r.sector = 0
  size_aligned : r.partition.size % r.sector = 0
  free_le : r.nextFree ≤ r.partition.size
  free_aligned : r.nextFree % r.sector = 0

/-- The device has no failure armed. -/
def Unarmed (r : Region) : Prop := r.device.armed = none

/-- The `len` bytes of the partition from `offset` on. -/
def bytes (r : Region) (offset len : Nat) : Bytes :=
  r.device.contents.slice (r.partition.offset + offset) len

/-- The region with other contents of its device. -/
def withContents (r : Region) (contents : Bytes) (stats : FlashStats) : Region :=
  { r with device := { r.device with contents, stats } }

/-- The device place is at none of these offsets of the partition. -/
def Spared (r : Region) (F : Nat → Prop) (i : Nat) : Prop :=
  ∀ k, F k → k < r.partition.size → i ≠ r.partition.offset + k

/-- The device place is not in the partition. -/
def Outside (r : Region) (i : Nat) : Prop :=
  i < r.partition.offset ∨ r.partition.offset + r.partition.size ≤ i

/-- The region after work at the offsets `F` of its partition. -/
structure Edited (F : Nat → Prop) (r r' : Region) : Prop where
  name_eq : r'.name = r.name
  partition_eq : r'.partition = r.partition
  sector_eq : r'.sector = r.sector
  reported_eq : r'.device.reported = r.device.reported
  unarmed : r.Unarmed → r'.Unarmed
  free_le : r.nextFree ≤ r'.nextFree
  sound : r.Sound → r'.Sound
  same : Bytes.SameOn (r.Spared F) r.device.contents r'.device.contents

namespace Edited

variable {F G : Nat → Prop} {r r' r'' : Region}

lemma refl (F : Nat → Prop) (r : Region) : Edited F r r :=
  ⟨rfl, rfl, rfl, rfl, id, Nat.le_refl _, id, .refl _⟩

lemma spared_iff (h : Edited F r r') {i : Nat} : r'.Spared G i ↔ r.Spared G i := by
  rw [Spared, Spared, h.partition_eq]

lemma trans (h : Edited F r r') (h' : Edited F r' r'') : Edited F r r'' :=
  ⟨h'.1.trans h.1, h'.2.trans h.2, h'.3.trans h.3, h'.4.trans h.4, h'.5 ∘ h.5,
    Nat.le_trans h.6 h'.6, h'.7 ∘ h.7, h.8.trans (h'.8.mono fun _ hi => h.spared_iff.2 hi)⟩

lemma mono (h : Edited F r r') (hF : ∀ k, F k → G k) : Edited G r r' :=
  ⟨h.1, h.2, h.3, h.4, h.5, h.6, h.7, h.8.mono fun _ hi k hk => hi k (hF k hk)⟩

/-- Nothing outside the partition changes. -/
lemma outside (h : Edited F r r') : Bytes.SameOn r.Outside r.device.contents r'.device.contents := by
  refine h.same.mono fun i hi k _ hk => ?_
  rw [Outside] at hi
  omega

/-- Bytes that the work spares are as they were. -/
lemma bytes_eq (h : Edited F r r') {offset len : Nat}
    (hF : ∀ k, offset ≤ k → k < offset + len → ¬ F k) : r'.bytes offset len = r.bytes offset len := by
  rw [bytes, bytes, h.partition_eq]
  refine (h.same.slice_eq fun i h1 h2 k hk _ hi => ?_).symm
  exact hF k (by omega) (by omega) hk

lemma address_eq (h : Edited F r r') (offset : Nat) : r'.address offset = r.address offset := by
  rw [address, address, h.partition_eq]

end Edited

/-- The region after work above offset `k` of its partition. -/
abbrev Grown (k : Nat) : Region → Region → Prop := Edited (k ≤ ·)

/-- Work that allocates nothing. -/
structure Written (F : Nat → Prop) (r r' : Region) : Prop extends Edited F r r' where
  free_eq : r'.nextFree = r.nextFree

/-- Work above offset `k` that allocates nothing. -/
abbrev Touched (k : Nat) : Region → Region → Prop := Written (k ≤ ·)

namespace Written

variable {F G : Nat → Prop} {r r' r'' : Region}

lemma refl (F : Nat → Prop) (r : Region) : Written F r r := ⟨.refl F r, rfl⟩

lemma trans (h : Written F r r') (h' : Written F r' r'') : Written F r r'' :=
  ⟨h.1.trans h'.1, h'.2.trans h.2⟩

lemma mono (h : Written F r r') (hF : ∀ k, F k → G k) : Written G r r' := ⟨h.1.mono hF, h.2⟩

end Written

variable {r : Region}

/-- Bytes before and after an offset, joined. -/
lemma bytes_append {offset m n : Nat} (h : r.partition.offset + offset + m ≤ r.device.size) :
    r.bytes offset m ++ r.bytes (offset + m) n = r.bytes offset (m + n) := by
  rw [bytes, bytes, bytes, ← Nat.add_assoc]
  exact Bytes.slice_append_slice h

/-- Changing a span of the device inside the partition is work at its offsets. -/
lemma written_updateSpan {F : Nat → Prop} {offset len : Nat} {f : Nat → UInt8 → UInt8}
    {stats : FlashStats} (hF : ∀ k, offset ≤ k → k < offset + len → F k)
    (hle : offset + len ≤ r.partition.size) :
    Written F r (r.withContents (r.device.contents.updateSpan (r.partition.offset + offset) len f)
      stats) := by
  refine ⟨⟨rfl, rfl, rfl, rfl, id, Nat.le_refl _, fun h => ?_, ?_⟩, rfl⟩
  · exact ⟨h.1, h.2, by simpa [withContents, Nor.size] using h.3, h.4, h.5, h.6, h.7⟩
  · refine Bytes.sameOn_updateSpan _ _ fun i hi => ?_
    by_contra hin
    exact hi (i - r.partition.offset) (hF _ (by omega) (by omega)) (by omega) (by omega)

/-- A failure that strikes disarms the device and does nothing else. -/
lemma written_disarmed (F : Nat → Prop) (r : Region) :
    Written F r { r with device := { r.device with armed := none } } :=
  ⟨⟨rfl, rfl, rfl, rfl, fun _ => rfl, Nat.le_refl _, fun h => ⟨h.1, h.2, h.3, h.4, h.5, h.6, h.7⟩,
    .refl _⟩, rfl⟩

/-! ### Footprints -/

lemma checkSpan_sat (offset len : Nat) (r : Region) :
    Op.Sat (checkSpan offset len) r (fun _ r' => r' = r ∧ offset + len ≤ r.partition.size)
      (fun _ r' => r' = r ∧ ¬ offset + len ≤ r.partition.size) := by
  unfold Op.Sat checkSpan
  split_ifs with h
  · exact ⟨rfl, h⟩
  · exact ⟨rfl, h⟩

lemma erase_written {F : Nat → Prop} {s : FlashSpan}
    (hF : ∀ k, s.offset ≤ k → k < s.offset + s.len → F k) (r : Region) :
    Op.Sat (erase s) r (fun _ => Written F r) (fun _ => Written F r) := by
  unfold erase
  split_ifs with hlen
  · exact .refl F r
  refine Op.Sat.bind (checkSpan_sat _ _ r) ?_ fun _ r' h => h.1 ▸ .refl F r
  rintro _ _ ⟨rfl, hle⟩
  refine Op.Sat.get_bind (Op.sat_zoom.2 ?_)
  unfold Op.Sat Nor.erase devicePart
  dsimp only
  split_ifs
  · exact .refl F _
  · exact .refl F _
  · exact written_disarmed F _
  · exact written_updateSpan hF hle

/-- A write that fails changes nothing. -/
lemma write_edits {F : Nat → Prop} {offset : Nat} (data : Bytes)
    (hF : ∀ k, offset ≤ k → k < offset + data.size → F k) (r : Region) :
    Op.Sat (write offset data) r (fun _ => Written F r) (fun _ => Written (fun _ => False) r) := by
  unfold write
  refine Op.Sat.get_bind ?_
  split_ifs
  · exact Op.Sat.throw_bind (.refl _ r)
  refine Op.Sat.bind (checkSpan_sat _ _ r) ?_ fun _ r' h => h.1 ▸ .refl (fun _ => False) r
  rintro _ _ ⟨rfl, hle⟩
  refine Op.Sat.get_bind (Op.sat_zoom.2 ?_)
  unfold Op.Sat Nor.write devicePart
  dsimp only
  split_ifs
  · exact .refl _ _
  · exact .refl _ _
  · exact written_disarmed _ _
  · rcases Nor.firstRise? _ _ _ with _ | i
    · exact written_updateSpan hF hle
    · exact .refl _ _

lemma write_written {F : Nat → Prop} {offset : Nat} (data : Bytes)
    (hF : ∀ k, offset ≤ k → k < offset + data.size → F k) (r : Region) :
    Op.Sat (write offset data) r (fun _ => Written F r) (fun _ => Written F r) :=
  (write_edits data hF r).mono (fun _ _ h => h) fun _ _ h => h.mono fun _ hk => hk.elim

/-- What a write that succeeds leaves behind is what was to be written. -/
lemma write_stores (offset : Nat) (data : Bytes) (r : Region) :
    Op.Sat (write offset data) r
      (fun _ r' => offset % wordSize = 0 ∧ r'.bytes offset data.size = data) fun _ _ => True := by
  unfold write
  refine Op.Sat.get_bind ?_
  split_ifs with hword
  · exact Op.Sat.throw_bind trivial
  refine Op.Sat.bind (checkSpan_sat _ _ r) ?_ fun _ _ _ => trivial
  rintro _ _ ⟨rfl, -⟩
  rename_i r
  refine Op.Sat.get_bind (Op.sat_zoom.2 ?_)
  unfold Op.Sat Nor.write devicePart
  dsimp only
  split_ifs with h1 h2 h3
  · trivial
  · trivial
  · trivial
  rcases hrise : Nor.firstRise? r.device.contents (r.partition.offset + offset) data with _ | i
  · refine ⟨by omega, Bytes.ext_get fun j => ?_⟩
    rw [Nor.size] at h2
    rw [bytes, Bytes.getElem?_slice]
    dsimp only
    split_ifs with hj
    · -- no bit has to rise, so each byte is that of the data
      have hkeep := List.find?_eq_none.1 hrise j (List.mem_range.2 hj)
      simp only [bne_iff_ne, ne_eq, Decidable.not_not] at hkeep
      rw [Bytes.byte_eq r.device.contents, Array.getElem?_eq_getElem (by omega), Option.getD_some]
        at hkeep
      rw [Bytes.getElem?_updateSpan, if_pos ⟨by omega, by omega⟩,
        Array.getElem?_eq_getElem (by omega), Option.map_some, Nat.add_sub_cancel_left, hkeep,
        Bytes.byte_eq, Array.getElem?_eq_getElem hj, Option.getD_some]
    · exact (Array.getElem?_eq_none (by omega)).symm
  · trivial

/-- Reading only counts. -/
lemma read_sat (offset len : Nat) (r : Region) :
    Op.Sat (read offset len) r
      (fun b r' => b = r.bytes offset len ∧ offset + len ≤ r.partition.size ∧
        ∃ stats, r' = r.withContents r.device.contents stats)
      (fun _ r' => r' = r) := by
  unfold read
  refine Op.Sat.bind (checkSpan_sat _ _ r) ?_ fun _ r' h => h.1
  rintro _ _ ⟨rfl, hle⟩
  refine Op.Sat.get_bind (Op.sat_zoom.2 ?_)
  unfold Op.Sat Nor.read devicePart
  dsimp only
  split_ifs
  · rfl
  · exact ⟨rfl, hle, _, rfl⟩

lemma read_written {F : Nat → Prop} (offset len : Nat) (r : Region) :
    Op.Sat (read offset len) r (fun _ => Written F r) (fun _ => Written F r) := by
  refine (read_sat offset len r).mono ?_ ?_
  · rintro _ _ ⟨-, -, stats, rfl⟩
    exact ⟨⟨rfl, rfl, rfl, rfl, id, Nat.le_refl _, fun h => ⟨h.1, h.2, h.3, h.4, h.5, h.6, h.7⟩,
      .refl _⟩, rfl⟩
  · rintro _ _ rfl
    exact .refl F _

/-- The span that the next reservation of `size` bytes hands out. -/
def nextSpan (r : Region) (size : Nat) : FlashSpan :=
  ⟨r.nextFree, alignUp size r.sector, r.address r.nextFree⟩

/-- A reservation hands out whole sectors from the bump offset on, and moves the offset past them. -/
lemma reserve_sat (size : Nat) (r : Region) :
    Act.Sat (reserve size) r
      (fun s r' => s = r.nextSpan size ∧ s.len ≤ r.remaining ∧
        r' = { r with nextFree := r.nextFree + s.len })
      (fun _ r' => r' = r) := by
  unfold Act.Sat reserve
  dsimp only
  split_ifs with h1 h2
  · rfl
  · rfl
  · exact ⟨rfl, by simpa using h2, rfl⟩

/-- Rewinding goes down to the start of a sector, or finds that it cannot. -/
lemma rewind_rule {n : Nat} {P : Unit → Region → Prop} {E : Error → Region → Prop}
    (hstale : ¬ (n ≤ r.nextFree ∧ n % r.sector = 0) → E (.breach .staleCheckpoint) r)
    (hback : n ≤ r.nextFree ∧ n % r.sector = 0 → P () { r with nextFree := n }) :
    Op.Sat (rewind n) r P E := by
  unfold Op.Sat rewind
  split_ifs with h
  · exact hback h
  · exact hstale h

lemma reset_sat (r : Region) :
    Act.Sat reset r (fun _ r' => r' = { r with nextFree := 0 }) fun _ _ => False := by
  unfold reset
  exact Act.Sat.get_bind (Act.Sat.note_bind (Act.sat_modify.2 rfl))

lemma grown_reserved {size : Nat} (k : Nat) (hle : alignUp size r.sector ≤ r.remaining) :
    Grown k r { r with nextFree := r.nextFree + alignUp size r.sector } := by
  refine ⟨rfl, rfl, rfl, rfl, id, Nat.le_add_right .., fun h => ?_, .refl _⟩
  have hroom := h.free_le
  rw [remaining] at hle
  refine ⟨h.1, h.2, h.3, h.4, h.5, by simp only; omega, ?_⟩
  have hdvd := dvd_alignUp size r.sector h.1
  change (r.nextFree + alignUp size r.sector) % r.sector = 0
  exact Nat.mod_eq_zero_of_dvd (Nat.dvd_add (Nat.dvd_of_mod_eq_zero h.7) hdvd)

lemma reserveErased_grown (size : Nat) (r : Region) :
    Act.Sat (reserveErased size) r
      (fun s r' => Grown r.nextFree r r' ∧ s = r.nextSpan size ∧
        r'.nextFree = r.nextFree + s.len)
      (fun _ r' => Grown r.nextFree r r') := by
  unfold reserveErased
  refine Act.Sat.bind (reserve_sat size r) ?_ ?_
  · rintro _ _ ⟨rfl, hle, rfl⟩
    have hg : Grown r.nextFree r { r with nextFree := r.nextFree + alignUp size r.sector } :=
      grown_reserved r.nextFree hle
    refine Act.Sat.bind (P := fun _ r' => Grown r.nextFree r r' ∧
        r'.nextFree = r.nextFree + (r.nextSpan size).len)
      (G := fun _ r' => Grown r.nextFree r r') ?_ (fun _ r' h => ⟨h.1, rfl, h.2⟩) fun _ _ h => h
    refine Act.sat_ofOp.2 ((erase_written (fun _ h _ => h) _).mono ?_ fun _ _ h => hg.trans h.1)
    exact fun _ r' h => ⟨hg.trans h.1, h.2⟩
  · rintro _ _ rfl
    exact .refl _ _

/-! ### Sound regions -/

/-- Any byte can be written to an erased place. -/
lemma erasedByte_and (x : UInt8) : erasedByte &&& x = x := by
  refine UInt8.toBitVec_inj.1 ?_
  exact BitVec.allOnes_and

variable {r : Region}

lemma Sound.word_dvd_sector (h : r.Sound) : wordSize ∣ r.sector :=
  Nat.dvd_of_mod_eq_zero h.sector_word

/-- Erasing sectors of the partition succeeds and sets every bit of them. -/
lemma erase_sat {s : FlashSpan} (hr : r.Sound) (hu : r.Unarmed) (hoff : s.offset % r.sector = 0)
    (hlen : s.len % r.sector = 0) (hle : s.offset + s.len ≤ r.partition.size) :
    Op.Sat (erase s) r
      (fun _ r' => ∃ stats, r' = r.withContents
        (r.device.contents.fill (r.partition.offset + s.offset) s.len erasedByte) stats)
      (fun _ _ => False) := by
  unfold erase
  split_ifs with hz
  · refine Op.sat_pure.2 ⟨r.device.stats, ?_⟩
    rw [hz]
    rfl
  refine Op.Sat.bind (checkSpan_sat _ _ r) ?_ fun _ _ h => absurd hle h.2
  rintro _ _ ⟨h, -⟩
  rw [h]
  refine Op.Sat.get_bind (Op.sat_zoom.2 ?_)
  have hfits := hr.fits
  have hstart := hr.start_aligned
  have halign : (r.partition.offset + s.offset) % r.sector = 0 := by
    rw [Nat.add_mod, hstart, hoff, Nat.add_zero, Nat.zero_mod]
  unfold Op.Sat Nor.erase devicePart
  dsimp only
  rw [sector] at halign hlen
  rw [if_neg (by simp [halign, hlen]), if_neg (by omega), if_neg]
  · exact ⟨_, rfl⟩
  · rw [Unarmed] at hu
    simp [Nor.strikes, hu]

/-- Writing words to erased places of the partition succeeds and leaves them as written. -/
lemma write_sat {offset : Nat} {data : Bytes} (hr : r.Sound) (hu : r.Unarmed)
    (hoff : offset % wordSize = 0) (hlen : data.size % wordSize = 0)
    (hle : offset + data.size ≤ r.partition.size)
    (herased : ∀ i, offset ≤ i → i < offset + data.size →
      r.device.contents[r.partition.offset + i]? = some erasedByte) :
    Op.Sat (write offset data) r
      (fun _ r' => ∃ stats, r' = r.withContents
        (r.device.contents.overwrite (r.partition.offset + offset) data) stats)
      (fun _ _ => False) := by
  unfold write
  refine Op.Sat.get_bind ?_
  rw [if_neg (by omega)]
  refine Op.Sat.bind (checkSpan_sat _ _ r) ?_ fun _ _ h => absurd hle h.2
  rintro _ _ ⟨h, -⟩
  rw [h]
  refine Op.Sat.get_bind (Op.sat_zoom.2 ?_)
  have hfits := hr.fits
  have hstart : r.partition.offset % wordSize = 0 := Nat.mod_eq_zero_of_dvd
    (Nat.dvd_trans hr.word_dvd_sector (Nat.dvd_of_mod_eq_zero hr.start_aligned))
  have hrise : Nor.firstRise? r.device.contents (r.partition.offset + offset) data = none := by
    unfold Nor.firstRise?
    refine List.find?_eq_none.2 fun i hi => ?_
    have := herased (offset + i) (by omega) (by have := List.mem_range.1 hi; omega)
    rw [Bytes.byte_eq, Nat.add_assoc, this, Option.getD_some, erasedByte_and]
    simp
  have hsame : r.device.contents.updateSpan (r.partition.offset + offset) data.size
      (fun i old => old &&& data.byte i) =
        r.device.contents.overwrite (r.partition.offset + offset) data := by
    refine Bytes.ext_get fun j => ?_
    rw [Bytes.getElem?_updateSpan, Bytes.getElem?_overwrite]
    split_ifs with hj
    · have := herased (j - r.partition.offset) (by omega) (by omega)
      rw [Nat.add_sub_cancel' (by omega)] at this
      rw [this, Option.map_some, Option.map_some, erasedByte_and]
    · rfl
  unfold Op.Sat Nor.write devicePart
  dsimp only
  rw [if_neg (by rw [wordSize] at *; omega), if_neg (by omega), if_neg, hrise]
  · exact ⟨_, by rw [← hsame]; rfl⟩
  · rw [Unarmed] at hu
    simp [Nor.strikes, hu]

/-- `create` makes sound regions. -/
lemma create_sound {σ : Type} {name : String} {d : Nor} {p : Partition} {s : σ} :
    Act.Sat (create name d p) s (fun r _ => r.Sound ∧ r.device = d ∧ r.partition = p ∧ r.nextFree = 0)
      (fun _ _ => True) := by
  unfold create
  rcases hf : fault? name d p with _ | why
  · refine Act.Sat.note_bind (Act.sat_pure.2 ⟨?_, rfl, rfl, rfl⟩)
    unfold fault? at hf
    split_ifs at hf with h1 h2 h3
    exact ⟨by simp only [sector]; omega, by simp only [sector]; omega, by simp only; omega,
      by simp only [sector]; omega, by simp only [sector]; omega, Nat.zero_le _, Nat.zero_mod _⟩
  · trivial

end Region

end FlashLink
