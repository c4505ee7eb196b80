import FlashLink.Proofs.Loading

/-!
What no load changes, however it ends. Buffers are filled and overwritten but never replaced, so they
keep their sizes, and a loader is good for any number of modules. Internal flash and the trampolines
are none of a load's business.
-/

namespace FlashLink

open Act

namespace Desk

/-- The sizes of the buffers. -/
def sizes (d : Desk) : Nat × Nat := (d.scratch.staging.size, d.scratch.raw.size)

lemma keeps_fill {σ : Type} {part : Part σ (Bytes × Source)} {k : σ → Nat × Nat}
    (start offset len : Nat)
    (hk : ∀ t s, s.1.size = (part t).1.1.size → k ((part t).2 s) = k t) :
    Keeps k (zoom part (Source.readInto start offset len)) := by
  refine Keeps.zoom (g := fun b => b.1.size) (fun b => ?_) hk
  refine (Source.readInto_sat start offset len b.1 b.2).mono ?_ ?_
  · rintro _ t ⟨-, ht, -⟩
    dsimp only
    rw [ht, Bytes.size_overwrite]
  · rintro _ t ⟨-, -, got, -, ht⟩
    dsimp only
    rw [ht, Bytes.size_overwrite]

lemma readBatch_keeps (t : RelocationTable) (first : Nat) : Keeps sizes (readBatch t first) := by
  unfold readBatch
  refine Keeps.get.bind fun d => (keeps_fill _ _ _ fun d s h => ?_).bind fun _ =>
    (Keeps.modify (by intro d; rfl)).bind fun _ => Keeps.get.bind fun _ => .pure _
  obtain ⟨⟨staging, raw, batch⟩, source, cache⟩ := d
  exact Prod.ext rfl h

lemma foldBatches_keeps {β : Type} {f : β → List Relocation → Act Desk β}
    (hf : ∀ b batch, Keeps sizes (f b batch)) (t : RelocationTable) (b : β) :
    Keeps sizes (foldBatches t b f) := by
  have hfold : ∀ fuel first b, Keeps sizes (foldFrom t f fuel first b) := by
    intro fuel
    induction fuel with
    | zero => exact fun _ b => .pure b
    | succ fuel ih =>
      intro first b
      unfold foldFrom
      split_ifs
      · exact .pure b
      · exact (readBatch_keeps t first).bind fun batch => (hf b batch).bind fun _ => ih _ _
  exact hfold t.count 0 b

lemma checkFields_keeps (t : RelocationTable) (size : Nat) : Keeps sizes (checkFields t size) := by
  refine foldBatches_keeps (fun _ batch => ?_) t ()
  split
  · exact .throw _
  · exact .pure _

lemma chunkEnd_keeps (s : SectionInfo) (start : Nat) : Keeps sizes (Bench.chunkEnd s start) := by
  have hboundary : ∀ (t : RelocationTable) (fuel stop : Nat),
      Keeps sizes (boundaryFrom t start fuel stop) := by
    intro t fuel
    induction fuel with
    | zero => exact fun _ => .throw _
    | succ fuel ih =>
      intro stop
      unfold boundaryFrom
      refine (foldBatches_keeps (fun _ _ => .pure _) t stop).bind fun low => ?_
      split_ifs
      · exact .pure _
      · exact (Keeps.throw _).bind fun _ => (Keeps.note _).bind fun _ => ih _
      · exact (Keeps.note _).bind fun _ => ih _
  unfold Bench.chunkEnd
  refine Keeps.get.bind fun d => ?_
  dsimp only
  rcases s.relocations with _ | t <;> dsimp only
  · exact .pure _
  · split_ifs
    · exact hboundary t _ _
    · exact .pure _

lemma stageChunk_keeps (scope : Scope) (strict : Bool) (s : SectionInfo) (base : Addr)
    (padding : UInt8) (start len : Nat) :
    Keeps sizes (stageChunk scope strict s base padding start len) := by
  unfold stageChunk
  refine Keeps.bind (Keeps.modify fun d => ?_) fun _ =>
    (keeps_fill _ _ _ fun d s h => ?_).bind fun _ => ?_
  · exact Prod.ext (Bytes.size_fill ..) rfl
  · obtain ⟨⟨staging, raw, batch⟩, source, cache⟩ := d
    exact Prod.ext h rfl
  · rcases s.relocations with _ | t <;> dsimp only
    · exact .pure _
    · refine foldBatches_keeps (fun sum batch => ?_) t _
      refine Keeps.bind (Keeps.zoom_other _ fun d s => ?_) fun _ => .pure _
      obtain ⟨⟨staging, raw, batch⟩, linker⟩ := d
      exact Prod.ext (Bytes.size_overwrite ..) rfl

end Desk

namespace Job

/-- The sizes of the buffers of a job. -/
def sizes (j : Job) : Nat × Nat := j.desk.sizes

lemma stream_keeps (scope : Scope) (strict : Bool) (s : SectionInfo) (span : FlashSpan) :
    Keeps sizes (zoom benchPart (Bench.stream scope strict s span)) := by
  have hregion : ∀ {α : Type} (x : Act Region α),
      Keeps (fun w : Bench => w.1.sizes) (zoom Part.second x) :=
    fun x => Keeps.zoom_other x fun _ _ => rfl
  have hdesk : ∀ {α : Type} {x : Act Desk α}, Keeps Desk.sizes x →
      Keeps (fun w : Bench => w.1.sizes) (zoom Part.first x) :=
    fun h => h.zoom fun _ _ hs => hs
  have hfrom : ∀ fuel start chunks sum, Keeps (fun w : Bench => w.1.sizes)
      (Bench.streamFrom scope strict s span fuel start chunks sum) := by
    intro fuel
    induction fuel with
    | zero => exact fun _ _ _ => .pure _
    | succ fuel ih =>
      intro start chunks sum
      unfold Bench.streamFrom
      split_ifs
      · exact .pure _
      · exact (hdesk (Desk.chunkEnd_keeps s start)).bind fun _ => Keeps.get.bind fun _ =>
          (hdesk (Desk.stageChunk_keeps _ _ s _ _ _ _)).bind fun _ => Keeps.get.bind fun _ =>
          (hregion _).bind fun _ => ih _ _ _
  refine Keeps.zoom (g := fun w : Bench => w.1.sizes) ?_ fun _ _ hs => hs
  unfold Bench.stream
  exact (hregion _).bind fun _ => (hfrom _ _ _ _).bind fun _ => (Keeps.note _).bind fun _ => .pure _

lemma copyAll_keeps (scope : Scope) (strict : Bool) (ram : RamBlock)
    (offsets : List (SectionInfo × Nat)) (sum : Tally) :
    Keeps sizes (zoom workshopPart (Workshop.copyAll scope strict ram offsets sum)) := by
  have hrelocate : ∀ (s : SectionInfo) start base t fuel first sum,
      Keeps (fun w : Workshop => w.1.sizes)
        (Workshop.copySection.relocate scope strict s start base t fuel first sum) := by
    intro s start base t fuel
    induction fuel with
    | zero => exact fun _ _ => .pure _
    | succ fuel ih =>
      intro first sum
      unfold Workshop.copySection.relocate
      split_ifs
      · exact .pure _
      · exact (Keeps.zoom (Desk.readBatch_keeps t first) fun _ _ hs => hs).bind fun _ =>
          (Keeps.zoom_other _ fun _ _ => rfl).bind fun _ => ih _ _
  have hsection : ∀ (s : SectionInfo) offset, Keeps (fun w : Workshop => w.1.sizes)
      (Workshop.copySection scope strict ram s offset) := by
    intro s offset
    unfold Workshop.copySection
    refine (Keeps.zoom_other _ fun _ _ => rfl).bind fun _ => ?_
    rcases s.relocations with _ | t <;> dsimp only
    · exact (Keeps.pure _).bind fun _ => (Keeps.note _).bind fun _ => .pure _
    · exact (hrelocate s _ _ t _ _ _).bind fun _ => (Keeps.note _).bind fun _ => .pure _
  refine Keeps.zoom (g := fun w : Workshop => w.1.sizes) ?_ fun _ _ hs => hs
  induction offsets generalizing sum with
  | nil => exact .pure _
  | cons q rest ih => exact (hsection q.1 q.2).bind fun _ => ih _

/-- Each stage of a load keeps `g`. -/
structure Stages {γ : Type} (g : Job → γ) : Prop where
  read : ∀ {α : Type} (x : Act Source α), Keeps g (zoom sourcePart x)
  check : ∀ t size, Keeps g (zoom deskPart (Desk.checkFields t size))
  reserve : ∀ size, Keeps g (zoom xipPart (Region.reserve size))
  stream : ∀ scope strict s span, Keeps g (zoom benchPart (Bench.stream scope strict s span))
  copy : ∀ scope strict ram offsets sum,
    Keeps g (zoom workshopPart (Workshop.copyAll scope strict ram offsets sum))
  pool : ∀ {α : Type} (x : Act Pool α), Keeps g (zoom poolPart x)

lemma stages_sizes : Stages sizes where
  read x := Keeps.zoom_other x fun _ _ => rfl
  check t size := (Desk.checkFields_keeps t size).zoom fun _ _ hs => hs
  reserve _ := Keeps.zoom_other _ fun _ _ => rfl
  stream := stream_keeps
  copy := copyAll_keeps
  pool x := Keeps.zoom_other x fun _ _ => rfl

/-- Internal flash, and the trampolines in it. -/
def resident (j : Job) : Region × Trampolines := (j.context.iflash, j.context.trampolines)

lemma stages_resident : Stages resident where
  read x := Keeps.zoom_other x fun _ _ => rfl
  check _ _ := Keeps.zoom_other _ fun _ _ => rfl
  reserve _ := Keeps.zoom_other _ fun _ _ => rfl
  stream _ _ _ _ := Keeps.zoom_other _ fun _ _ => rfl
  copy _ _ _ _ _ := Keeps.zoom_other _ fun _ _ => rfl
  pool x := Keeps.zoom_other x fun _ _ => rfl

section Stages

variable {γ : Type} {g : Job → γ}

lemma Stages.inspect_keeps (h : Stages g) (config : LoaderConfig) (name : String) :
    Keeps g (inspect config name) := by
  have htables : ∀ sections, Keeps g (checkTables sections) := by
    intro sections
    induction sections with
    | nil => exact .pure _
    | cons s rest ih =>
      unfold checkTables
      rcases s.relocations with _ | t <;> dsimp only
      · exact ih
      · exact (h.check t _).bind fun _ => ih
  have hnotes : ∀ l : List Event, Keeps g (l.forM fun e => Act.note e) := by
    intro l
    induction l with
    | nil => exact .pure _
    | cons e rest ih => exact (Keeps.note e).bind fun _ => ih
  exact (h.read _).bind fun _ => (hnotes _).bind fun _ => (h.read _).bind fun _ =>
    (htables _).bind fun _ => .pure _

lemma Stages.reserve_keeps (h : Stages g) (o : Object) : Keeps g (Job.reserve o) := by
  have hflash : ∀ sections, Keeps g (reserveFlash sections) := by
    intro sections
    induction sections with
    | nil => exact .pure _
    | cons s rest ih => exact (h.reserve _).bind fun _ => ih.bind fun _ => .pure _
  exact (hflash _).bind fun _ => (h.pool _).bind fun _ => (h.pool _).bind fun _ => .pure _

lemma Stages.commit_keeps (h : Stages g) (scope : Scope) (strict : Bool) (space : Reservation) :
    Keeps g (commit scope strict space) := by
  have hstream : ∀ (flash : List (SectionInfo × FlashSpan)) sum,
      Keeps g (streamAll scope strict flash sum) := by
    intro flash
    induction flash with
    | nil => exact fun _ => .pure _
    | cons q rest ih => exact fun _ => (h.stream scope strict q.1 q.2).bind fun _ => ih _
  have hclear : ∀ sum : Tally, Keeps g (clearLast space sum) := by
    intro sum
    unfold clearLast
    rcases space.bss with _ | b <;> dsimp only
    · exact .pure _
    · exact (h.pool _).bind fun _ => .pure _
  unfold commit
  refine (hstream _ _).bind fun sum => ?_
  rcases space.data with _ | b <;> dsimp only
  · exact (Keeps.pure _).bind fun _ => hclear _
  · exact (h.copy _ _ _ _ _).bind fun _ => hclear _

/-- What each stage keeps is kept. -/
lemma Stages.run_keeps (h : Stages g) (config : LoaderConfig) (name : String) (exports : Lookup)
    (entry : String) : Keeps g (run config name exports entry) :=
  (h.inspect_keeps _ _).bind fun _ => (h.reserve_keeps _).bind fun _ =>
    (h.commit_keeps _ _ _).bind fun _ => (h.read _).bind fun _ => (Keeps.note _).bind fun _ =>
      Keeps.get.bind fun _ => (Keeps.note _).bind fun _ => .pure _

end Stages

end Job

namespace Loader

variable {name entry : String} {exports : Lookup} {s : State}

/-- A loader stays good for the next module, also when a load fails. -/
lemma load_sized (hl : s.loader.Sized) :
    Sat (load name exports entry) s
      (fun _ s' => s'.loader.config = s.loader.config ∧ s'.loader.Sized)
      (fun _ s' => s'.loader.config = s.loader.config ∧ s'.loader.Sized) := by
  obtain ⟨haccepted, hstaging, hraw⟩ := hl
  have hsized : ∀ j : Job, j.sizes = (s.loader.scratch.staging.size, s.loader.scratch.raw.size) →
      (Loader.mk s.loader.config j.desk.scratch).Sized := by
    intro j hj
    exact ⟨haccepted, (congrArg Prod.fst hj).trans hstaging, (congrArg Prod.snd hj).trans hraw⟩
  exact load_rule ((Job.stages_sizes.run_keeps s.loader.config name exports entry _).mono
    (fun _ j hj => ⟨rfl, hsized j hj⟩) fun _ j hj => ⟨rfl, hsized j hj⟩)

/-- A load leaves internal flash and the trampolines alone. -/
lemma load_resident :
    Sat (load name exports entry) s
      (fun _ s' => s'.context.iflash = s.context.iflash ∧
        s'.context.trampolines = s.context.trampolines)
      (fun _ s' => s'.context.iflash = s.context.iflash ∧
        s'.context.trampolines = s.context.trampolines) := by
  exact load_rule ((Job.stages_resident.run_keeps s.loader.config name exports entry _).mono
    (fun _ _ hj => ⟨congrArg Prod.fst hj, congrArg Prod.snd hj⟩)
    fun _ _ hj => ⟨congrArg Prod.fst hj, congrArg Prod.snd hj⟩)

end Loader

end FlashLink
