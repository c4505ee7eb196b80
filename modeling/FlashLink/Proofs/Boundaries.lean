import FlashLink.Load.Stream
import FlashLink.Proofs.Batches

/-!
Where a section may be cut into chunks. A cut is a word boundary that no field straddles. The search
for the end of a chunk goes down word by word and so finds the last cut that the chunk buffer reaches;
it fails exactly if there is none.
-/

namespace FlashLink

open Act

namespace Relocation

/-- A section may be cut here: no field straddles this word boundary. -/
def Cut (rs : List Relocation) (b : Nat) : Prop := b % wordSize = 0 ∧ ∀ r ∈ rs, ¬ r.Straddles b

end Relocation

/-- The entries that apply to a section, none if it has no table. -/
def SectionInfo.entries (s : SectionInfo) (data : Bytes) : List Relocation :=
  (s.relocations.map (·.entries data)).getD []

lemma SectionInfo.entries_none {s : SectionInfo} (h : s.relocations = none) (data : Bytes) :
    s.entries data = [] := by
  rw [entries, h]
  rfl

lemma SectionInfo.entries_some {s : SectionInfo} {t : RelocationTable} (h : s.relocations = some t)
    (data : Bytes) : s.entries data = t.entries data := by
  rw [entries, h]
  rfl

/-- The source holds the table of the section, if there is one. -/
def SectionInfo.TableHeld (s : SectionInfo) (src : Source) : Prop :=
  ∀ t ∈ s.relocations, t.Held src

namespace Desk

open Relocation

variable {stop low : Nat} {rs qs : List Relocation}

lemma lowest_append : lowest stop low (rs ++ qs) = lowest stop (lowest stop low rs) qs := by
  simp [lowest]

/-- A field that straddles a word boundary begins in the word before. -/
lemma straddles_word {r : Relocation} (hstop : stop % wordSize = 0) (h : r.Straddles stop) :
    r.start / wordSize * wordSize = stop - wordSize ∧ wordSize ≤ stop := by
  obtain ⟨h1, h2⟩ := h
  rw [Relocation.stop] at h2
  rw [wordSize] at hstop ⊢
  omega

lemma lowest_of_cut (h : ∀ r ∈ rs, ¬ r.Straddles stop) : lowest stop low rs = low := by
  induction rs generalizing low with
  | nil => rfl
  | cons r rs ih =>
    have hr := h r (.head _)
    rw [Straddles] at hr
    change lowest stop (if r.start < stop ∧ stop < r.stop then _ else low) rs = low
    rw [if_neg hr]
    exact ih fun q hq => h q (.tail _ hq)

lemma lowest_of_straddled (hstop : stop % wordSize = 0) (hlow : stop - wordSize ≤ low)
    (h : ∃ r ∈ rs, r.Straddles stop) : lowest stop low rs = stop - wordSize := by
  have hdown : ∀ qs : List Relocation, lowest stop (stop - wordSize) qs = stop - wordSize := by
    intro qs
    induction qs with
    | nil => rfl
    | cons q qs ih =>
      change lowest stop (if q.Straddles stop then _ else _) qs = _
      split_ifs with hq
      · rw [(straddles_word hstop hq).1, Nat.min_self, ih]
      · exact ih
  induction rs generalizing low with
  | nil => obtain ⟨r, hr, -⟩ := h; cases hr
  | cons r rs ih =>
    change lowest stop (if r.Straddles stop then _ else low) rs = _
    split_ifs with hr
    · rw [(straddles_word hstop hr).1, Nat.min_eq_right hlow]
      exact hdown rs
    · obtain ⟨q, hq, hq'⟩ := h
      rcases List.mem_cons.1 hq with rfl | hq
      · exact absurd hq' hr
      · exact ih hlow ⟨q, hq, hq'⟩

variable {t : RelocationTable} {src : Source} {d : Desk} {start : Nat}

/-- The search ends at the last cut up to `stop`, and fails if none lies after `start`. -/
lemma boundaryFrom_sat {fuel : Nat} (hheld : t.Held src) (hsrc : Source.Same src d.linker.source)
    (hbatch : 0 < d.scratch.batchSize) (hstop : stop % wordSize = 0) (hlt : start < stop)
    (hfuel : stop - start ≤ fuel) :
    Sat (boundaryFrom t start fuel stop) d
      (fun e d' => Reread d d' ∧ start < e ∧ e ≤ stop ∧ Cut (t.entries src.data) e ∧
        ∀ b, Cut (t.entries src.data) b → b ≤ stop → b ≤ e)
      (fun e _ => (∃ b, e = .parse (.straddled b)) ∧
        ∀ b, Cut (t.entries src.data) b → b ≤ stop → b ≤ start) := by
  induction fuel generalizing d stop with
  | zero => omega
  | succ fuel ih =>
    unfold boundaryFrom
    refine Sat.bind (G := fun _ _ => False) (foldBatches_sat src
      (fun seen low e => Reread d e ∧ low = lowest stop stop seen) ?_ ?_ ?_ ?_ ?_) ?_
      fun _ _ h => h.elim
    · rintro seen low e ⟨he, -⟩
      exact ⟨he.batchSize_eq ▸ hbatch, hsrc.trans he.same⟩
    · rintro seen low e e' ⟨he, hlow⟩ hre
      exact ⟨he.trans hre, hlow⟩
    · exact fun h => h hheld
    · rintro seen batch low e ⟨he, hlow⟩ -
      exact ⟨he, by rw [hlow, lowest_append]⟩
    · exact ⟨.refl d, rfl⟩
    rintro low e ⟨⟨he, hlow⟩, -⟩
    by_cases hcut : ∀ r ∈ t.entries src.data, ¬ r.Straddles stop
    · rw [lowest_of_cut hcut] at hlow
      rw [if_pos hlow]
      exact ⟨he, hlt, Nat.le_refl _, ⟨hstop, hcut⟩, fun b _ h => h⟩
    · simp only [not_forall, not_not, exists_prop] at hcut
      rw [lowest_of_straddled hstop (by omega) hcut] at hlow
      obtain ⟨r, hr, hr'⟩ := hcut
      have hword := (straddles_word hstop hr').2
      -- the boundary itself is no cut, so every cut lies at least a word before
      have hdown : ∀ b, Cut (t.entries src.data) b → b ≤ stop → b ≤ low := by
        intro b hb hle
        have hne : b ≠ stop := fun h => hb.2 r hr (h ▸ hr')
        have hb4 := hb.1
        rw [wordSize] at *
        omega
      have hlow4 : low % wordSize = 0 := by rw [wordSize] at *; omega
      rw [if_neg (by rw [wordSize] at *; omega)]
      split_ifs with hle
      · exact Sat.throw_bind ⟨⟨stop, rfl⟩, fun b hb h => Nat.le_trans (hdown b hb h) hle⟩
      · refine Sat.note_bind ((ih (hsrc.trans he.same) (he.batchSize_eq ▸ hbatch) hlow4 (by omega)
          (by rw [wordSize] at *; omega)).mono ?_ ?_)
        · rintro f d' ⟨hd', h1, h2, h3, h4⟩
          exact ⟨he.trans hd', h1, by omega, h3, fun b hb hle => h4 b hb (hdown b hb hle)⟩
        · exact fun _ _ h => ⟨h.1, fun b hb hle => h.2 b hb (hdown b hb hle)⟩

end Desk

namespace Bench

open Desk Relocation

/-- The chunk that begins at `start` ends with the section, if the section ends within reach, and else
at the last cut within reach. There is no such chunk if no cut is within reach. -/
lemma chunkEnd_sat {s : SectionInfo} {src : Source} {d : Desk} {start : Nat}
    (hheld : s.TableHeld src) (hsrc : Source.Same src d.linker.source)
    (hbatch : 0 < d.scratch.batchSize) (hchunk : d.scratch.staging.size % wordSize = 0)
    (hpos : 0 < d.scratch.staging.size) (hstart : start % wordSize = 0) (hlt : start < s.size) :
    Sat (chunkEnd s start) d
      (fun e d' => Reread d d' ∧ start < e ∧ e ≤ s.size ∧ e ≤ start + d.scratch.staging.size ∧
        (e < s.size → start + d.scratch.staging.size < s.size ∧ Cut (s.entries src.data) e) ∧
        (start + d.scratch.staging.size < s.size → ∀ b, Cut (s.entries src.data) b →
          b ≤ start + d.scratch.staging.size → b ≤ e))
      (fun _ _ => start + d.scratch.staging.size < s.size ∧
        ∀ b, Cut (s.entries src.data) b → b ≤ start + d.scratch.staging.size → b ≤ start) := by
  have hreach : (start + d.scratch.staging.size) % wordSize = 0 := by rw [wordSize] at *; omega
  unfold chunkEnd
  refine Sat.get_bind ?_
  rcases hr : s.relocations with _ | t <;> dsimp only
  · -- without a table, every word boundary is a cut
    refine sat_pure.2 ⟨.refl d, by omega, by omega, by omega, fun h => ?_, fun h b _ hb => by omega⟩
    rw [Nat.min_eq_left (by omega)] at h ⊢
    exact ⟨h, hreach, fun r hmem => by rw [SectionInfo.entries_none hr] at hmem; cases hmem⟩
  · rw [SectionInfo.entries_some hr]
    split_ifs with hend
    · have hmin : min (start + d.scratch.staging.size) s.size = start + d.scratch.staging.size := by
        omega
      rw [hmin] at hend ⊢
      refine (boundaryFrom_sat (hheld t hr) hsrc hbatch hreach (by omega) (Nat.le_refl _)).mono ?_ ?_
      · rintro e d' ⟨hd', h1, h2, h3, h4⟩
        exact ⟨hd', h1, by omega, h2, fun _ => ⟨hend, h3⟩, fun _ => h4⟩
      · exact fun _ _ h => ⟨hend, h.2⟩
    · exact sat_pure.2 ⟨.refl d, by omega, by omega, by omega, fun h => by omega,
        fun h => by omega⟩

end Bench

end FlashLink
