import FlashLink.Proofs.Buffers
import FlashLink.Proofs.OneShot
import FlashLink.Proofs.Untouched

/-!
A loader that has been used is as good as a new one. Its buffers keep their sizes and hold whatever
the last load, perhaps a failed one, has left there. The next load starts from the same context and the
same source as it would with a new loader, so it does the same to both, down to the last byte.
-/

namespace FlashLink

open Act

/-! ### The same context -/

namespace Bench

variable {d e : Desk} {scope : Scope} {strict : Bool}

lemma takes_eq (s : SectionInfo) (span : FlashSpan) : Takes Eq s span where
  reported _ _ hr := congrArg (·.device.reported) hr.symm
  write := by
    rintro r _ start len data rfl - -
    exact Op.sim_same _ r

lemma stream_over (s : SectionInfo) (span : FlashSpan) (r : Region)
    (hd : d.Twin (fun _ => False) e) :
    Sim (stream scope strict s span) (stream scope strict s span) (d, r) (e, r)
      (fun _ => Desk.Over Eq) (fun _ => Desk.Over Eq) := by
  unfold stream
  refine Sim.bind (S := fun _ => Desk.Over Eq) (G := fun _ => Desk.Over Eq) ?_ ?_ fun _ _ _ h => h
  · rw [sim_zoom, sim_ofOp]
    exact (Op.sim_same _ r).mono (fun _ _ _ h => ⟨hd, h⟩) fun _ _ _ h => ⟨hd, h⟩
  · rintro _ ⟨d1, r1⟩ ⟨e1, r2⟩ ⟨hd1, hr1⟩
    refine Sim.bind (streamFrom_over (takes_eq s span) _ _ _ _ hd1 hr1) ?_ fun _ _ _ h => h
    exact fun _ _ _ h => Sim.note_bind (sim_pure.2 h)

end Bench

namespace Workshop

variable {d e : Desk} {scope : Scope} {strict : Bool} {ram : RamBlock}

lemma shares_eq (s : SectionInfo) (start : Nat) : Shares Eq s start where
  slice _ _ h := congrArg (·.mem.slice start s.size) h.symm
  overwrite _ _ data h := congrArg (fun p : Pool => { p with mem := p.mem.overwrite start data }) h

lemma copySection_over (s : SectionInfo) (offset : Nat) (p : Pool)
    (hd : d.Twin (fun _ => False) e) :
    Sim (copySection scope strict ram s offset) (copySection scope strict ram s offset) (d, p) (e, p)
      (fun _ => Desk.Over Eq) (fun _ => Desk.Over Eq) := by
  obtain ⟨scratch, source, cache⟩ := d
  obtain ⟨scratch', linker⟩ := e
  obtain ⟨hlinker, hraw, hstaging⟩ := hd
  dsimp only at hlinker hraw hstaging
  subst hlinker
  unfold copySection
  refine Sim.bind (S := fun _ => Desk.Over Eq) (G := fun _ => Desk.Over Eq) ?_ ?_ fun _ _ _ h => h
  · -- the section is read straight into the pool, which is the same in both runs
    rw [sim_zoom]
    refine (sim_same _ _).mono ?_ ?_
    all_goals
      rintro _ ⟨mem, src⟩ _ rfl
      exact ⟨⟨rfl, hraw, hstaging⟩, rfl⟩
  rintro _ ⟨d1, p1⟩ ⟨e1, q1⟩ ⟨hd1, hp1⟩
  rcases s.relocations with _ | t <;> dsimp only
  · exact Sim.pure_bind (Sim.note_bind (sim_pure.2 ⟨hd1, hp1⟩))
  · refine Sim.bind (relocate_over (shares_eq s _) _ t _ _ _ hd1 hp1) ?_ fun _ _ _ h => h
    exact fun _ _ _ h => Sim.note_bind (sim_pure.2 h)

lemma copyAll_over (offsets : List (SectionInfo × Nat)) (sum : Tally) (p : Pool)
    (hd : d.Twin (fun _ => False) e) :
    Sim (copyAll scope strict ram offsets sum) (copyAll scope strict ram offsets sum) (d, p) (e, p)
      (fun _ => Desk.Over Eq) (fun _ => Desk.Over Eq) := by
  induction offsets generalizing sum d e p with
  | nil => exact sim_pure.2 ⟨hd, rfl⟩
  | cons x rest ih =>
    refine Sim.bind (copySection_over x.1 x.2 p hd) ?_ fun _ _ _ h => h
    rintro done ⟨d1, p1⟩ ⟨e1, _⟩ ⟨hd1, rfl⟩
    exact ih _ p1 hd1

end Workshop

namespace Job

variable {j k : Job} {scope : Scope} {strict : Bool}

lemma xip_over {α : Type} (x : Act Region α) (h : Over Eq j k) :
    Sim (zoom xipPart x) (zoom xipPart x) j k (fun _ => Over Eq) (fun _ => Over Eq) := by
  obtain ⟨d, xip, iflash, pool, trampolines⟩ := j
  obtain ⟨e, _⟩ := k
  obtain ⟨hdesk, rfl⟩ := h
  rw [sim_zoom]
  refine (sim_same x xip).mono ?_ ?_
  all_goals
    rintro _ r _ rfl
    exact ⟨hdesk, rfl⟩

lemma pool_over {α : Type} (x : Act Pool α) (h : Over Eq j k) :
    Sim (zoom poolPart x) (zoom poolPart x) j k (fun _ => Over Eq) (fun _ => Over Eq) := by
  obtain ⟨d, xip, iflash, pool, trampolines⟩ := j
  obtain ⟨e, _⟩ := k
  obtain ⟨hdesk, rfl⟩ := h
  rw [sim_zoom]
  refine (sim_same x pool).mono ?_ ?_
  all_goals
    rintro _ p _ rfl
    exact ⟨hdesk, rfl⟩

lemma reserve_over (o : Object) (h : Over Eq j k) :
    Sim (reserve o) (reserve o) j k (fun _ => Over Eq) (fun _ => Over Eq) := by
  have hflash : ∀ (sections : List SectionInfo) (j k : Job), Over Eq j k →
      Sim (reserveFlash sections) (reserveFlash sections) j k (fun _ => Over Eq)
        (fun _ => Over Eq) := by
    intro sections
    induction sections with
    | nil => exact fun _ _ h => sim_pure.2 h
    | cons s rest ih =>
      intro j k h
      refine Sim.bind (xip_over _ h) (fun span j1 k1 h1 => ?_) fun _ _ _ h => h
      exact Sim.bind (ih j1 k1 h1) (fun _ _ _ h => sim_pure.2 h) fun _ _ _ h => h
  unfold reserve
  refine Sim.bind (hflash _ j k h) (fun flash j1 k1 h1 => ?_) fun _ _ _ h => h
  refine Sim.bind (pool_over _ h1) (fun data j2 k2 h2 => ?_) fun _ _ _ h => h
  exact Sim.bind (pool_over _ h2) (fun _ _ _ h => sim_pure.2 h) fun _ _ _ h => h

lemma streamAll_over (flash : List (SectionInfo × FlashSpan)) (sum : Tally) (h : Over Eq j k) :
    Sim (streamAll scope strict flash sum) (streamAll scope strict flash sum) j k
      (fun _ => Over Eq) (fun _ => Over Eq) := by
  induction flash generalizing sum j k with
  | nil => exact sim_pure.2 h
  | cons q rest ih =>
    unfold streamAll
    refine Sim.bind (S := fun _ => Over Eq) (G := fun _ => Over Eq) ?_ (fun _ _ _ h => ih _ h)
      fun _ _ _ h => h
    obtain ⟨d, xip, iflash, pool, trampolines⟩ := j
    obtain ⟨e, _⟩ := k
    obtain ⟨hdesk, rfl⟩ := h
    rw [sim_zoom]
    refine (Bench.stream_over q.1 q.2 xip hdesk).mono ?_ ?_
    all_goals
      rintro _ ⟨d1, r⟩ ⟨e1, _⟩ ⟨hd1, rfl⟩
      exact ⟨hd1, rfl⟩

lemma commit_over (space : Reservation) (h : Over Eq j k) :
    Sim (commit scope strict space) (commit scope strict space) j k (fun _ => Over Eq)
      (fun _ => Over Eq) := by
  have hclear : ∀ (sum : Tally) (j k : Job), Over Eq j k →
      Sim (clearLast space sum) (clearLast space sum) j k (fun _ => Over Eq) (fun _ => Over Eq) := by
    intro sum j k h
    unfold clearLast
    rcases space.bss with _ | b <;> dsimp only
    · exact sim_pure.2 h
    · exact Sim.bind (pool_over _ h) (fun _ _ _ h => sim_pure.2 h) fun _ _ _ h => h
  unfold commit
  refine Sim.bind (streamAll_over space.flash .zero h) (fun sum j1 k1 h1 => ?_) fun _ _ _ h => h
  rcases space.data with _ | b <;> dsimp only
  · exact Sim.pure_bind (hclear sum j1 k1 h1)
  · refine Sim.bind (S := fun _ => Over Eq) (G := fun _ => Over Eq) ?_
      (fun sum' j2 k2 h2 => hclear sum' j2 k2 h2) fun _ _ _ h => h
    obtain ⟨d, xip, iflash, pool, trampolines⟩ := j1
    obtain ⟨e, _⟩ := k1
    obtain ⟨hdesk, rfl⟩ := h1
    rw [sim_zoom]
    refine (Workshop.copyAll_over b.offsets sum pool hdesk).mono ?_ ?_
    all_goals
      rintro _ ⟨d1, p⟩ ⟨e1, _⟩ ⟨hd1, rfl⟩
      exact ⟨hd1, rfl⟩

/-- Twin desks load alike into one context. -/
lemma run_over (config : LoaderConfig) (name : String) (exports : Lookup) (entry : String)
    (h : Over Eq j k) :
    Sim (run config name exports entry) (run config name exports entry) j k (fun _ => Over Eq)
      (fun _ => Over Eq) := by
  unfold run
  refine Sim.bind (inspect_over config name h) (fun found j1 k1 h1 => ?_) fun _ _ _ h => h
  refine Sim.bind (reserve_over found.1 h1) (fun space j2 k2 h2 => ?_) fun _ _ _ h => h
  refine Sim.bind (commit_over space h2) (fun sum j3 k3 h3 => ?_) fun _ _ _ h => h
  refine Sim.bind (read_over _ h3) (fun addr j4 k4 h4 => ?_) fun _ _ _ h => h
  exact Sim.note_bind (Sim.get_bind (Sim.note_bind (sim_pure.2 h4)))

end Job

/-! ### Any history -/

namespace Loader

/-- One load: what is loaded, and where to. -/
structure Task where
  name : String
  exports : Lookup
  entry : String
  source : Source
  context : Context

/-- How a task ends. -/
def perform (l : Loader) (t : Task) : Outcome State Image :=
  load t.name t.exports t.entry ⟨l, t.source, t.context⟩

/-- The loader after some tasks, whether they succeeded or not. -/
def after (l : Loader) (past : List Task) : Loader :=
  past.foldl (fun l t => (l.perform t).state.loader) l

/-- The buffers are those of the configuration, whatever is in them. -/
lemma Sized.bytes {l : Loader} (h : l.Sized) :
    l.scratch.bytes = l.config.chunkSize + 2 * (l.config.batchSize * Relocation.width) := by
  have hbatch : l.scratch.batchSize = l.config.batchSize := by
    rw [Scratch.batchSize, h.raw_size, Nat.mul_div_cancel _ (by decide)]
  rw [Scratch.bytes, hbatch, h.staging_size, h.raw_size]
  omega

lemma perform_sized {l : Loader} (h : l.Sized) (t : Task) :
    (l.perform t).state.loader.config = l.config ∧ (l.perform t).state.loader.Sized :=
  (load_sized (s := ⟨l, t.source, t.context⟩) h).state

lemma after_sized {l : Loader} (h : l.Sized) (past : List Task) :
    (l.after past).config = l.config ∧ (l.after past).Sized := by
  induction past generalizing l with
  | nil => exact ⟨rfl, h⟩
  | cons t rest ih =>
    obtain ⟨hconfig, hsized⟩ := perform_sized h t
    obtain ⟨hconfig', hsized'⟩ := ih hsized
    exact ⟨hconfig'.trans hconfig, hsized'⟩

/-- Buffers of the same sizes do the same. -/
lemma perform_congr {l l' : Loader} (h : l.Sized) (h' : l'.Sized) (hconfig : l'.config = l.config)
    (t : Task) :
    (l'.perform t).result = (l.perform t).result ∧
      (l'.perform t).state.context = (l.perform t).state.context ∧
      (l'.perform t).state.source = (l.perform t).state.source := by
  have hstaging : l'.scratch.staging.size = l.scratch.staging.size := by
    rw [h'.staging_size, h.staging_size, hconfig]
  have hraw : l'.scratch.raw.size = l.scratch.raw.size := by
    rw [h'.raw_size, h.raw_size, hconfig]
  obtain ⟨config, scratch⟩ := l
  obtain ⟨config', scratch'⟩ := l'
  dsimp only at hconfig hstaging hraw
  subst hconfig
  have hjob : Job.Over Eq ⟨⟨scratch, ⟨t.source, .create config'.cacheSlots⟩⟩, t.context⟩
      ⟨⟨scratch', ⟨t.source, .create config'.cacheSlots⟩⟩, t.context⟩ :=
    ⟨⟨rfl, hraw, hstaging.symm, fun _ h => h.elim⟩, rfl⟩
  have hsim : Sim (load t.name t.exports t.entry) (load t.name t.exports t.entry)
      ⟨⟨config', scratch⟩, t.source, t.context⟩ ⟨⟨config', scratch'⟩, t.source, t.context⟩
      (fun _ s u => u.context = s.context ∧ u.source = s.source)
      (fun _ s u => u.context = s.context ∧ u.source = s.source) := by
    unfold load
    refine Sim.get_bind (sim_zoom.2 ?_)
    refine (Job.run_over config' t.name t.exports t.entry hjob).mono ?_ ?_
    all_goals
      rintro _ ⟨⟨s1, source, c1⟩, e1⟩ ⟨⟨s2, linker⟩, e2⟩ ⟨⟨hlinker, -, -⟩, rfl⟩
      dsimp only at hlinker
      subst hlinker
      exact ⟨rfl, rfl⟩
  exact ⟨hsim.result_eq, hsim.states⟩

/-- **A used loader is as good as a new one.** Whatever it has loaded before, from and into whatever
and however that ended, its buffers take as many bytes as at first, and the next load ends as it would
with a loader that has just been created: with the same image or the same error, the same bytes in
flash and in the pool, and the same reads. -/
theorem after_perform {config : LoaderConfig} (hconfig : config.fault? = none) :
    ∃ fresh, create config = .ok fresh ∧ ∀ (past : List Task),
      (fresh.after past).scratch.bytes = fresh.scratch.bytes ∧ ∀ t : Task,
        ((fresh.after past).perform t).result = (fresh.perform t).result ∧
        ((fresh.after past).perform t).state.context = (fresh.perform t).state.context ∧
        ((fresh.after past).perform t).state.source = (fresh.perform t).state.source := by
  have hcreate : create config = .ok ⟨config, .create config⟩ := by
    rw [create, hconfig]
  have hfresh := create_sized hcreate
  refine ⟨_, hcreate, fun past => ?_⟩
  obtain ⟨hsame, hsized⟩ := after_sized hfresh past
  refine ⟨?_, fun t => perform_congr hfresh hsized hsame t⟩
  rw [hsized.bytes, hfresh.bytes, hsame]

/-- A module with code, a variable and relocations, for the small board. -/
def linkedTask : Task :=
  ⟨"m", fun _ => none, "e", .ofBytes "m" linkedObject, Small.context⟩

theorem after_perform_linkedTask :
    ((Small.loader 16).after [linkedTask]).scratch ≠ (Small.loader 16).scratch ∧
    (Small.loader 16).config.fault? = none ∧
    ∃ fresh, create (Small.loader 16).config = .ok fresh ∧ ∀ (past : List Task),
      (fresh.after past).scratch.bytes = fresh.scratch.bytes ∧ ∀ t : Task,
        ((fresh.after past).perform t).result = (fresh.perform t).result ∧
        ((fresh.after past).perform t).state.context = (fresh.perform t).state.context ∧
        ((fresh.after past).perform t).state.source = (fresh.perform t).state.source :=
  ⟨by decide +kernel, by decide, after_perform (by decide)⟩

end Loader

end FlashLink
