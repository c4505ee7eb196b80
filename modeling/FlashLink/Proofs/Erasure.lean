import FlashLink.Proofs.Failures
import FlashLink.Proofs.Footprints
import FlashLink.Proofs.Untouched

/-!
Streaming to flash that works.

A section is streamed to a span that has just been erased. Chunks begin at words and are filled up to
words, so each word is written at most once, while it is erased, and inside the span. Whatever the
source answers, a load on sound regions without armed failures does not fail for flash.
-/

namespace FlashLink

open Act

/-! ### Ends of chunks -/

namespace Desk

/-- The boundary only moves down, and stays at a word. -/
lemma lowest_word {stop low : Nat} (hle : low ≤ stop) (hword : low % wordSize = 0)
    (batch : List Relocation) : lowest stop low batch ≤ stop ∧ lowest stop low batch % wordSize = 0 := by
  induction batch generalizing low with
  | nil => exact ⟨hle, hword⟩
  | cons r rest ih =>
    change lowest stop (if r.start < stop ∧ stop < r.stop then _ else low) rest ≤ stop ∧
      lowest stop (if r.start < stop ∧ stop < r.stop then _ else low) rest % wordSize = 0
    split_ifs
    · refine ih (Nat.le_trans (Nat.min_le_left _ _) hle) ?_
      rcases Nat.le_total low (r.start / wordSize * wordSize) with h | h
      · rw [Nat.min_eq_left h]
        exact hword
      · rw [Nat.min_eq_right h]
        exact Nat.mul_mod_left _ _
    · exact ih hle hword

/-- Whatever the table says, the boundary that is found is a word after `start`. -/
lemma boundaryFrom_word (t : RelocationTable) {start fuel stop : Nat} (hword : stop % wordSize = 0)
    (hlt : start < stop) (d : Desk) :
    Sat (boundaryFrom t start fuel stop) d
      (fun e _ => start < e ∧ e ≤ stop ∧ e % wordSize = 0) (fun e _ => e.isFlash = false) := by
  induction fuel generalizing stop d with
  | zero => exact sat_throw.2 rfl
  | succ fuel ih =>
    unfold boundaryFrom
    refine Sat.bind (foldBatches_keeps_raised (K := fun e => e.isFlash = false) (fun _ => rfl)
      (P := fun low => low ≤ stop ∧ low % wordSize = 0)
      (fun low batch d h => sat_pure.2 (lowest_word h.1 h.2 batch)) t ⟨Nat.le_refl _, hword⟩ d) ?_
      fun _ _ h => h
    rintro low d' ⟨hle, hlow⟩
    split_ifs with hsame hdown
    · exact ⟨hlt, Nat.le_refl _, hword⟩
    · exact Sat.throw_bind rfl
    · exact Sat.note_bind ((ih hlow (by omega) d').mono (fun e _ h => ⟨h.1, by omega, h.2.2⟩)
        fun _ _ h => h)

end Desk

namespace Bench

variable {s : SectionInfo} {span : FlashSpan} {scope : Scope} {strict : Bool}

/-- A chunk ends where the chunk buffer reaches, and at a word unless the section ends there. -/
lemma chunkEnd_word {start : Nat} {d : Desk} (hchunk : d.scratch.staging.size % wordSize = 0)
    (hpos : 0 < d.scratch.staging.size) (hstart : start % wordSize = 0) (hlt : start < s.size) :
    Sat (chunkEnd s start) d
      (fun stop _ => start < stop ∧ stop ≤ start + d.scratch.staging.size ∧ stop ≤ s.size ∧
        (stop < s.size → stop % wordSize = 0))
      (fun e _ => e.isFlash = false) := by
  have hreach : (start + d.scratch.staging.size) % wordSize = 0 := by rw [wordSize] at *; omega
  have hwhole : min (start + d.scratch.staging.size) s.size < s.size →
      min (start + d.scratch.staging.size) s.size % wordSize = 0 := by
    intro h
    rw [Nat.min_eq_left (by omega)]
    exact hreach
  unfold chunkEnd
  refine Sat.get_bind ?_
  rcases s.relocations with _ | t <;> dsimp only
  · exact sat_pure.2 ⟨by omega, by omega, by omega, hwhole⟩
  · split_ifs with hend
    · exact (Desk.boundaryFrom_word t (hwhole hend) (by omega) d).mono
        (fun e _ h => ⟨h.1, by omega, by omega, fun _ => h.2.2⟩) fun _ _ h => h
    · exact sat_pure.2 ⟨by omega, by omega, by omega, hwhole⟩

/-! ### Sections -/

/-- Streaming from a word on, where the rest of the span is erased. -/
lemma streamFrom_benign {fuel start chunks : Nat} {sum : Tally} {d : Desk} {r : Region}
    (hchunk : d.scratch.staging.size % wordSize = 0) (hpos : 0 < d.scratch.staging.size)
    (hfits : Fits s span r)
    (hstart : start < s.size → start % wordSize = 0 ∧ ErasedFrom span start r) :
    Sat (streamFrom scope strict s span fuel start chunks sum) (d, r) (fun _ _ => True)
      (fun e _ => e.isFlash = false) := by
  induction fuel generalizing start chunks sum d r with
  | zero => trivial
  | succ fuel ih =>
    refine streamFrom_rule (fun _ => trivial) fun hover => ?_
    obtain ⟨hword, herased⟩ := hstart hover
    -- where the chunk ends
    refine ((chunkEnd_word hchunk hpos hword hover).and (Desk.chunkEnd_keeps s start d)).mono ?_
      fun _ _ h => h.1
    rintro stop d₁ ⟨⟨hlt, hreach, hle, hstop⟩, hsizes₁⟩
    -- the bytes of the chunk
    refine ((Desk.stageChunk_offFlash _ _ _ _ _ _ _).raises.sat
      (Desk.stageChunk_keeps scope strict s _ _ start _ d₁)).mono ?_ fun _ _ h => h.1
    intro done d₂ hsizes₂
    have hstaging : d₂.scratch.staging.size = d.scratch.staging.size :=
      congrArg Prod.fst (hsizes₂.trans hsizes₁)
    -- the write
    have hsize : (d₂.scratch.staging.slice 0 (alignUp (stop - start) wordSize)).size =
        alignUp (stop - start) wordSize := by
      refine Bytes.size_slice_of_le ?_
      have := alignUp_le (n := stop - start) (a := wordSize) (by decide)
        (Nat.dvd_of_mod_eq_zero hchunk) (by omega)
      omega
    refine (writeWords_sat hfits.sound hfits.unarmed (hfits.word hword) ?_ ?_ hfits.inside herased).mono ?_
      fun _ _ h => h.elim
    · rw [hsize]
      exact Nat.mod_eq_zero_of_dvd (dvd_alignUp _ _ (by decide))
    · rw [hsize]
      exact hfits.room hword (by omega)
    rintro _ r' ⟨htouched, -, hrest⟩
    rw [hsize] at hrest
    -- the rest
    refine ih (hstaging ▸ hchunk) (hstaging ▸ hpos) (hfits.touched htouched) fun hlast =>
      ⟨hstop hlast, ?_⟩
    have hwhole : (stop - start) % wordSize = 0 := Nat.mod_eq_zero_of_dvd (Nat.dvd_sub
      (Nat.dvd_of_mod_eq_zero (hstop hlast)) (Nat.dvd_of_mod_eq_zero hword))
    rw [alignUp_eq (by decide) hwhole, Nat.add_sub_cancel' (by omega)] at hrest
    exact hrest

/-- **Streaming** a section to a span that is large enough does not fail for flash. -/
lemma stream_benign {d : Desk} {r : Region} (hchunk : d.scratch.staging.size % wordSize = 0)
    (hpos : 0 < d.scratch.staging.size) (hfits : Fits s span r) :
    Sat (stream scope strict s span) (d, r) (fun _ _ => True) (fun e _ => e.isFlash = false) := by
  refine stream_rule (hfits.erase_sat.mono ?_ fun _ _ h => h.elim)
  rintro _ r' ⟨htouched, herased⟩
  exact streamFrom_benign hchunk hpos (hfits.touched htouched) fun _ => ⟨rfl, herased⟩

end Bench

/-! ### Loads -/

namespace Job

variable {scope : Scope} {strict : Bool} {j : Job}

lemma streamAll_benign {flash : List (SectionInfo × FlashSpan)} {k n : Nat} {sum : Tally}
    (hchunk : j.desk.scratch.staging.size % wordSize = 0) (hpos : 0 < j.desk.scratch.staging.size)
    (hsound : j.context.xip.Sound) (hunarmed : j.context.xip.Unarmed)
    (hspans : j.context.xip.Spans k n flash) (hk : k % j.context.xip.sector = 0)
    (hn : n ≤ j.context.xip.partition.size) :
    Sat (streamAll scope strict flash sum) j (fun _ _ => True) (fun e _ => e.isFlash = false) := by
  induction flash generalizing k sum j with
  | nil => trivial
  | cons q rest ih =>
    obtain ⟨s, span⟩ := q
    have hfits := hspans.fits hsound hunarmed hk hn
    have hoffset : span.offset = k := by rw [hspans.1]
    have hkeeps := sat_zoom.1 (stream_keeps scope strict s span j)
    have htouches := Bench.stream_touched (Nat.le_of_eq hoffset.symm) scope strict s (j.desk, j.context.xip)
    refine streamAll_rule (((Bench.stream_benign hchunk hpos hfits).and (htouches.and hkeeps)).mono ?_
      fun _ _ h => h.1)
    rintro done ⟨d₁, r₁⟩ ⟨-, htouched, hsizes⟩
    have hstaging : d₁.scratch.staging.size = j.desk.scratch.staging.size := congrArg Prod.fst hsizes
    dsimp only at htouched
    refine ih (by rw [hstaging]; exact hchunk) (hstaging ▸ hpos) (htouched.sound hsound)
      (htouched.unarmed hunarmed) (hspans.2.congr htouched.sector_eq htouched.partition_eq) ?_
      (by rw [htouched.partition_eq]; exact hn)
    dsimp only
    rw [htouched.sector_eq]
    exact Nat.mod_eq_zero_of_dvd (Nat.dvd_add (Nat.dvd_of_mod_eq_zero hk)
      (Nat.dvd_of_mod_eq_zero hfits.len_aligned))

/-- **A load** does not fail for flash. -/
lemma run_benign {config : LoaderConfig} {name entry : String} {exports : Lookup}
    (hchunk : j.desk.scratch.staging.size % wordSize = 0) (hpos : 0 < j.desk.scratch.staging.size)
    (hsound : j.context.xip.Sound) (hunarmed : j.context.xip.Unarmed) :
    Sat (run config name exports entry) j (fun _ _ => True) (fun e _ => e.isFlash = false) := by
  unfold run
  refine Sat.bind ((inspect_offFlash config name).raises.sat ((inspect_context config name j).and
    (stages_sizes.inspect_keeps config name j))) ?_ fun _ _ h => h.1
  rintro ⟨o, symbols⟩ j1 ⟨hcontext1, hsizes1⟩
  refine Sat.bind ((reserve_offFlash o).raises.sat (reserve_sat o j1)) ?_ fun _ _ h => h.1
  rintro space j2 ⟨hreserved, hdesk2⟩
  rw [hcontext1] at hreserved
  have hstaging : j2.desk.scratch.staging.size = j.desk.scratch.staging.size := by
    rw [hdesk2]
    exact congrArg Prod.fst hsizes1
  have hsound2 := hreserved.sound hsound
  dsimp only
  have hcommit : Sat (commit ⟨symbols, space.placement o, exports⟩ config.strict space) j2
      (fun _ _ => True) (fun e _ => e.isFlash = false) := by
    unfold commit
    refine Sat.bind (streamAll_benign (by rw [hstaging]; exact hchunk) (by omega) hsound2
      (hreserved.unarmed hunarmed) (hreserved.spans.congr hreserved.sector_eq hreserved.partition_eq)
      (hreserved.sector_eq ▸ hsound.free_aligned)
      (hreserved.partition_eq ▸ hreserved.room hsound.free_le)) ?_ fun _ _ h => h
    intro sum j3 _
    rcases space.data with _ | b <;> dsimp only
    · exact raised_iff_sat.1 (((Raises.pure _).bind fun _ => clearLast_raises space _) j3)
    · exact raised_iff_sat.1 (((Workshop.copyAll_offFlash _ _ _ _ _).raises.zoom.bind fun _ =>
        clearLast_raises space _) j3)
  refine hcommit.bind (fun sum j3 _ => ?_) fun _ _ h => h
  exact raised_iff_sat.1 (((Scope.entryAddress_offFlash _ _).raises.zoom.bind fun _ =>
    (Raises.note _).bind fun _ => Raises.get.bind fun _ => (Raises.note _).bind fun _ =>
      .pure _) j3)

end Job

lemma Loader.load_benign {name entry : String} {exports : Lookup} {s : State} (hl : s.loader.Sized)
    (hsound : s.context.xip.Sound) (hunarmed : s.context.xip.Unarmed) :
    Sat (load name exports entry) s (fun _ _ => True) (fun e _ => e.isFlash = false) := by
  obtain ⟨hword, hpos⟩ := hl.chunk
  have hstaging := hl.staging_size
  exact load_rule (Job.run_benign (hstaging ▸ hword) (hstaging ▸ hpos) hsound hunarmed)

end FlashLink
