import FlashLink.Proofs.Footprints
import FlashLink.Proofs.Twins

/-!
What the buffers of a loader remember is never used. A chunk is filled up to its last word, and a
batch is read, before anything is made of them, so twin desks do the same to whatever lies beyond
them: to a region, to a pool or to a whole context. `Desk.Over` says how those are related; most of
the time they are equal, or differ in what nobody has written yet.
-/

namespace FlashLink

open Act

/-! ### Chunks -/

namespace Desk.Twin

variable {I : Nat → Prop} {d e : Desk} {t : RelocationTable} {scope : Scope} {strict : Bool}
  {s : SectionInfo} {base : Addr} {start len : Nat}

lemma relocateChunk_sim (h : Twin I d e) (hI : ∀ i, i < len → I i) :
    Sim (relocateChunk scope strict t base start len) (relocateChunk scope strict t base start len)
      d e (fun _ => Twin I) (fun _ => Twin I) := by
  refine h.foldBatches_sim _ fun sum batch d e h => ?_
  refine Sim.bind (S := fun _ => Twin I) (G := fun _ => Twin I) ?_
    (fun _ _ _ h => sim_pure.2 h) fun _ _ _ h => h
  obtain ⟨⟨staging, raw, batch'⟩, linker⟩ := d
  obtain ⟨⟨staging', raw', batch''⟩, linker'⟩ := e
  obtain ⟨hlinker, hraw, hsame⟩ := h
  dsimp only at hlinker hraw hsame
  subst hlinker
  have hchunk : staging'.slice 0 len = staging.slice 0 len :=
    (hsame.slice_eq fun i _ hi => hI i (by omega)).symm
  rw [sim_zoom]
  dsimp only [chunkPart]
  rw [hchunk]
  refine (sim_same _ _).mono ?_ ?_
  all_goals
    rintro _ ⟨b, l⟩ _ rfl
    exact ⟨rfl, hraw, hsame.overwrite fun i hi => .inl hi⟩

/-- Both chunks hold the same bytes, up to the next word. -/
lemma stageChunk_sim (h : Twin I d e) (padding : UInt8) :
    Sim (stageChunk scope strict s base padding start len)
      (stageChunk scope strict s base padding start len) d e
      (fun _ => Twin (· < alignUp len wordSize)) (fun _ => Twin fun _ => False) := by
  obtain ⟨⟨staging, raw, batch⟩, source, cache⟩ := d
  obtain ⟨⟨staging', raw', batch'⟩, linker⟩ := e
  obtain ⟨hlinker, hraw, hsame⟩ := h
  dsimp only at hlinker hraw hsame
  subst hlinker
  have halign := le_alignUp len (a := wordSize) (by decide)
  unfold stageChunk
  refine Sim.modify_bind (Sim.bind (S := fun _ => Twin (· < alignUp len wordSize))
    (G := fun _ => Twin fun _ => False) ?_ ?_ fun _ _ _ h => h)
  · rw [sim_zoom]
    refine (Source.readInto_sim (J := (· < alignUp len wordSize))
      (hsame.fill (J := fun i => len ≤ i ∧ i < alignUp len wordSize) fun i hi => .inr (by omega))
      (fun i hi => ?_) _ source).mono ?_ ?_
    · by_cases hlt : i < len
      · exact .inr (by omega)
      · exact .inl ⟨by omega, hi⟩
    · rintro _ ⟨b, s⟩ ⟨b', s'⟩ ⟨hs, hb⟩
      dsimp only at hs
      subst hs
      exact ⟨rfl, hraw, hb⟩
    · rintro _ ⟨b, s⟩ ⟨b', s'⟩ ⟨hs, hb⟩
      dsimp only at hs
      subst hs
      exact ⟨rfl, hraw, hb.mono fun _ h => h.elim⟩
  · intro _ d' e' h'
    rcases s.relocations with _ | t <;> dsimp only
    · exact sim_pure.2 h'
    · exact (h'.relocateChunk_sim fun i hi => by omega).mono (fun _ _ _ h => h)
        fun _ _ _ h => h.mono fun _ h => h.elim

end Desk.Twin

namespace Bench

variable {I : Nat → Prop} {d e : Desk} {s : SectionInfo}

lemma chunkEnd_sim (h : d.Twin I e) (start : Nat) :
    Sim (chunkEnd s start) (chunkEnd s start) d e (fun _ => Desk.Twin I) (fun _ => Desk.Twin I) := by
  unfold chunkEnd
  refine Sim.get_bind ?_
  rw [h.same.size_eq]
  dsimp only
  rcases s.relocations with _ | t <;> dsimp only
  · exact sim_pure.2 h
  · split_ifs
    · exact h.boundaryFrom_sim _ _ _
    · exact sim_pure.2 h

lemma lowest_le (stop low : Nat) (batch : List Relocation) : Desk.lowest stop low batch ≤ low := by
  unfold Desk.lowest
  induction batch generalizing low with
  | nil => exact Nat.le_refl _
  | cons r rest ih =>
    rw [List.foldl_cons]
    split_ifs
    · exact Nat.le_trans (ih _) (Nat.min_le_left ..)
    · exact ih _

/-- The boundary only moves down. -/
lemma boundaryFrom_le (t : RelocationTable) (start fuel stop : Nat) (d : Desk) :
    Sat (Desk.boundaryFrom t start fuel stop) d (fun e _ => e ≤ stop) (fun _ _ => True) := by
  have hfold : ∀ (stop fuel first low : Nat) (d : Desk), low ≤ stop →
      Sat (Desk.foldFrom t (fun low batch => return Desk.lowest stop low batch) fuel first low) d
        (fun low _ => low ≤ stop) (fun _ _ => True) := by
    intro stop fuel
    induction fuel with
    | zero => exact fun _ _ _ h => h
    | succ fuel ih =>
      intro first low d h
      unfold Desk.foldFrom
      split_ifs
      · exact h
      refine Sat.bind (P := fun _ _ => True) (G := fun _ _ => True) ?_ ?_ fun _ _ h => h
      · unfold Sat
        split <;> trivial
      · exact fun batch d' _ => Sat.pure_bind (ih _ _ d' (Nat.le_trans (lowest_le ..) h))
  induction fuel generalizing stop d with
  | zero => exact sat_throw.2 trivial
  | succ fuel ih =>
    unfold Desk.boundaryFrom
    refine Sat.bind (hfold stop _ _ stop d (Nat.le_refl _)) ?_ fun _ _ h => h
    intro low d' hlow
    split_ifs
    · exact Nat.le_refl _
    · exact Sat.throw_bind trivial
    · exact Sat.note_bind ((ih low d').mono (fun _ _ h => Nat.le_trans h hlow) fun _ _ h => h)

/-- No chunk ends after the section. -/
lemma chunkEnd_le (start : Nat) (d : Desk) :
    Sat (chunkEnd s start) d (fun stop _ => stop ≤ s.size) (fun _ _ => True) := by
  have hmin := Nat.min_le_right (start + d.scratch.staging.size) s.size
  unfold chunkEnd
  refine Sat.get_bind ?_
  rcases s.relocations with _ | t <;> dsimp only
  · exact hmin
  · split_ifs
    · exact (boundaryFrom_le t start _ _ d).mono (fun _ _ h => Nat.le_trans h hmin) fun _ _ h => h
    · exact hmin

end Bench

/-! ### Desks over something else -/

/-- Twin desks, whose chunks may differ everywhere, over two related things. -/
structure Desk.Over {τ : Type} (R : τ → τ → Prop) (w w' : Desk × τ) : Prop where
  desk : w.1.Twin (fun _ => False) w'.1
  rest : R w.2 w'.2

namespace Bench

variable {d e : Desk} {r r' : Region} {scope : Scope} {strict : Bool} {s : SectionInfo}
  {span : FlashSpan} {R : Region → Region → Prop}

/-- Related regions take the chunks of a section alike, each a piece of the section and at most as
many bytes as make the piece whole words. -/
structure Takes (R : Region → Region → Prop) (s : SectionInfo) (span : FlashSpan) : Prop where
  reported : ∀ r r', R r r' → r'.device.reported = r.device.reported
  write : ∀ r r' start len data, R r r' → start + len ≤ s.size → data.size ≤ alignUp len wordSize →
    Op.Sim (Region.write (span.offset + start) data) (Region.write (span.offset + start) data) r r'
      (fun _ => R) (fun _ => R)

/-- What twin desks write to related regions keeps them related. -/
lemma streamFrom_over (hR : Takes R s span) (fuel start chunks : Nat) (sum : Tally)
    (hd : d.Twin (fun _ => False) e) (hr : R r r') :
    Sim (streamFrom scope strict s span fuel start chunks sum)
      (streamFrom scope strict s span fuel start chunks sum) (d, r) (e, r')
      (fun _ => Desk.Over R) (fun _ => Desk.Over R) := by
  induction fuel generalizing start chunks sum d e r r' with
  | zero => exact sim_pure.2 ⟨hd, hr⟩
  | succ fuel ih =>
    unfold streamFrom
    split_ifs with hover
    · exact sim_pure.2 ⟨hd, hr⟩
    refine Sim.bind (S := fun stop w w' => ∃ d1 e1, w = (d1, r) ∧ w' = (e1, r') ∧
        d1.Twin (fun _ => False) e1 ∧ stop ≤ s.size) (G := fun _ => Desk.Over R) ?_ ?_
      fun _ _ _ h => h
    · rw [sim_zoom]
      exact ((chunkEnd_sim hd start).and_sat (chunkEnd_le start d)).mono
        (fun _ d1 e1 h => ⟨d1, e1, rfl, rfl, h⟩) fun _ _ _ h => ⟨h.1, hr⟩
    rintro stop _ _ ⟨d1, e1, rfl, rfl, hd1, hstop⟩
    refine Sim.get_bind ?_
    dsimp only
    rw [hR.reported _ _ hr]
    generalize hlen : stop - start = len
    refine Sim.bind (S := fun _ w w' => ∃ d2 e2, w = (d2, r) ∧ w' = (e2, r') ∧
        d2.Twin (· < alignUp len wordSize) e2) (G := fun _ => Desk.Over R) ?_ ?_ fun _ _ _ h => h
    · rw [sim_zoom]
      exact (hd1.stageChunk_sim _).mono (fun _ d2 e2 h => ⟨d2, e2, rfl, rfl, h⟩)
        fun _ _ _ h => ⟨h, hr⟩
    rintro done _ _ ⟨d2, e2, rfl, rfl, hd2⟩
    refine Sim.get_bind ?_
    dsimp only
    -- the part of the chunk that is written is the part on which both desks agree
    have hdata : e2.scratch.staging.slice 0 (alignUp len wordSize) =
        d2.scratch.staging.slice 0 (alignUp len wordSize) :=
      (hd2.same.slice_eq fun i _ hi => by omega).symm
    have hsize : (d2.scratch.staging.slice 0 (alignUp len wordSize)).size ≤ alignUp len wordSize := by
      rw [Bytes.size_slice]
      omega
    have hd2' : d2.Twin (fun _ => False) e2 := hd2.mono fun _ h => h.elim
    rw [hdata]
    refine Sim.bind (S := fun _ => Desk.Over R) (G := fun _ => Desk.Over R) ?_ ?_ fun _ _ _ h => h
    · rw [sim_zoom, sim_ofOp]
      exact (hR.write r r' start len _ hr (by omega) hsize).mono (fun _ _ _ h => ⟨hd2', h⟩)
        fun _ _ _ h => ⟨hd2', h⟩
    · rintro _ ⟨d3, r3⟩ ⟨e3, r3'⟩ ⟨hd3, hr3⟩
      exact ih _ _ _ hd3 hr3

end Bench

namespace Workshop

variable {d e : Desk} {p q : Pool} {scope : Scope} {strict : Bool} {s : SectionInfo} {start : Nat}
  {R : Pool → Pool → Prop}

/-- Related pools agree on the bytes of a section, and stay related as these are overwritten. -/
structure Shares (R : Pool → Pool → Prop) (s : SectionInfo) (start : Nat) : Prop where
  slice : ∀ p q, R p q → q.mem.slice start s.size = p.mem.slice start s.size
  overwrite : ∀ p q data, R p q →
    R { p with mem := p.mem.overwrite start data } { q with mem := q.mem.overwrite start data }

/-- What twin desks relocate in related pools keeps them related. -/
lemma relocate_over (hR : Shares R s start) (base : Addr) (t : RelocationTable) (fuel first : Nat)
    (sum : Tally) (hd : d.Twin (fun _ => False) e) (hp : R p q) :
    Sim (copySection.relocate scope strict s start base t fuel first sum)
      (copySection.relocate scope strict s start base t fuel first sum) (d, p) (e, q)
      (fun _ => Desk.Over R) (fun _ => Desk.Over R) := by
  induction fuel generalizing first sum d e p q with
  | zero => exact sim_pure.2 ⟨hd, hp⟩
  | succ fuel ih =>
    unfold copySection.relocate
    split_ifs
    · exact sim_pure.2 ⟨hd, hp⟩
    refine Sim.bind (S := fun _ w w' => ∃ d1 e1, w = (d1, p) ∧ w' = (e1, q) ∧
        d1.Twin (fun _ => False) e1) (G := fun _ => Desk.Over R) ?_ ?_ fun _ _ _ h => h
    · rw [sim_zoom]
      exact (hd.readBatch_sim t first).mono (fun _ d1 e1 h => ⟨d1, e1, rfl, rfl, h⟩)
        fun _ _ _ h => ⟨h, hp⟩
    rintro batch _ _ ⟨⟨scratch, linker⟩, ⟨scratch', linker'⟩, rfl, rfl, hlinker, hraw, hstaging⟩
    dsimp only at hlinker hraw hstaging
    subst hlinker
    refine Sim.bind (S := fun _ => Desk.Over R) (G := fun _ => Desk.Over R) ?_
      (fun _ _ _ h => ih _ _ h.desk h.rest) fun _ _ _ h => h
    have hslice := hR.slice p q hp
    rw [sim_zoom]
    dsimp only [spanPart]
    rw [hslice]
    refine (sim_same _ _).mono ?_ ?_
    all_goals
      rintro _ ⟨b, l⟩ _ rfl
      exact ⟨⟨rfl, hraw, hstaging⟩, hR.overwrite p q b hp⟩

end Workshop

/-! ### Jobs -/

namespace Job

variable {R : Context → Context → Prop} {j k : Job}

/-- Twin desks over two related contexts. -/
structure Over (R : Context → Context → Prop) (j k : Job) : Prop where
  desk : j.desk.Twin (fun _ => False) k.desk
  context : R j.context k.context

/-- Reading goes alike, as the sources are the same. -/
lemma read_over {α : Type} (x : Act Source α) (h : Over R j k) :
    Sim (zoom sourcePart x) (zoom sourcePart x) j k (fun _ => Over R) (fun _ => Over R) := by
  obtain ⟨⟨scratch, source, cache⟩, c⟩ := j
  obtain ⟨⟨scratch', linker⟩, c'⟩ := k
  obtain ⟨⟨hlinker, hraw, hstaging⟩, hcontext⟩ := h
  dsimp only at hlinker
  subst hlinker
  rw [sim_zoom]
  refine (sim_same x source).mono ?_ ?_
  all_goals
    rintro _ s _ rfl
    exact ⟨⟨rfl, hraw, hstaging⟩, hcontext⟩

lemma checkTables_over (sections : List SectionInfo) (h : Over R j k) :
    Sim (checkTables sections) (checkTables sections) j k (fun _ => Over R) (fun _ => Over R) := by
  induction sections generalizing j k with
  | nil => exact sim_pure.2 h
  | cons s rest ih =>
    unfold checkTables
    rcases s.relocations with _ | t <;> dsimp only
    · exact ih h
    · refine Sim.bind (S := fun _ => Over R) (G := fun _ => Over R) ?_
        (fun _ _ _ h => ih h) fun _ _ _ h => h
      rw [sim_zoom]
      exact (h.desk.checkFields_sim _).mono (fun _ _ _ hd => ⟨hd, h.context⟩)
        fun _ _ _ hd => ⟨hd, h.context⟩

lemma notes_sim {σ : Type} {S : PUnit → σ → σ → Prop} {E : Error → σ → σ → Prop} (l : List Event)
    {s t : σ} (h : S ⟨⟩ s t) :
    Sim (l.forM fun e => Act.note e) (l.forM fun e => Act.note e) s t S E := by
  induction l with
  | nil => exact sim_pure.2 h
  | cons e rest ih => exact Sim.note_bind ih

lemma inspect_over (config : LoaderConfig) (name : String) (h : Over R j k) :
    Sim (inspect config name) (inspect config name) j k (fun _ => Over R) (fun _ => Over R) := by
  unfold inspect
  refine Sim.bind (read_over _ h) (fun o j1 k1 h1 => ?_) fun _ _ _ h => h
  refine Sim.bind (S := fun _ => Over R) (G := fun _ => Over R) (notes_sim _ h1)
    (fun _ j2 k2 h2 => ?_) fun _ _ _ h => h
  refine Sim.bind (read_over _ h2) (fun symbols j3 k3 h3 => ?_) fun _ _ _ h => h
  exact Sim.bind (checkTables_over _ h3) (fun _ _ _ h => sim_pure.2 h) fun _ _ _ h => h

end Job

end FlashLink
