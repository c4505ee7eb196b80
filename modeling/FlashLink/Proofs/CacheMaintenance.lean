import FlashLink.Proofs.Isolation
import FlashLink.Machine.Cpu
import FlashLink.Proofs.Loading

/-!
When the residency pass maintains the caches. It does so in its last step, and this step does nothing
else: a pass that comes to its end has first made all its copies, trampolines and pointers, and then the
caches are written back and discarded. A pass that fails leaves the caches alone, also where it has
redirected pointers before.
-/

namespace FlashLink

open Act

namespace Patcher

variable {κ : Type} {s : State κ} {c : Context} {k : κ} {image : Image}

/-! ### Steps that leave the caches alone -/

/-- What patching a pointer does not touch. -/
def aside (s : State κ) : Image × List ResidentCopy × κ :=
  (s.patcher.image, s.patcher.report.copies, s.cache)

lemma trampolineTo_keeps (target base : Addr) :
    Keeps aside (trampolineTo target base : Act (State κ) Addr) := by
  intro s
  refine trampolineTo_rule (fun _ _ => rfl) fun _ => ?_
  exact (sat_any _ _).mono (fun _ _ _ => rfl) fun _ _ _ => rfl

lemma patch_keeps (t : PatchTarget) (cursor : Nat) :
    Keeps aside (patch t cursor : Act (State κ) PatchStage) := by
  intro s
  refine patch_rule (fun _ => rfl) (fun _ _ _ => rfl) fun b i word target _ _ => ?_
  exact (trampolineTo_keeps target _ s).mono (fun _ _ h => h) fun _ _ h => h

/-- Patching goes on with a later word, or with a later section. -/
lemma patch_advances (t : PatchTarget) (cursor : Nat) (s : State κ) :
    Sat (patch t cursor) s
      (fun stage _ => toGo s.patcher.image stage < toGo s.patcher.image (.patching t cursor) ∧
        stage ≠ .done ∧ ∀ i, stage ≠ .copying i) fun _ _ => True := by
  have hleave : toGo s.patcher.image (.scanning (t.index + 1)) <
      toGo s.patcher.image (.patching t cursor) := by
    unfold toGo
    dsimp only
    omega
  refine patch_rule (fun _ => ⟨hleave, nofun, nofun⟩) (fun _ _ _ => ⟨hleave, nofun, nofun⟩)
    fun b i word target hb hfind => ?_
  refine (sat_any _ s).mono (fun addr s' _ => ⟨?_, nofun, nofun⟩) fun _ _ h => h
  have hin := findWord_lt hfind
  rw [← Image.words_eq hb] at hin
  unfold toGo
  dsimp only
  omega

lemma copy_keeps (index : Nat) :
    Keeps (fun s : State κ => (s.patcher.image, s.cache)) (copy index) := by
  intro s
  refine copy_rule (fun _ => rfl) fun placed _ => ?_
  exact (sat_any _ _).mono (fun _ _ _ => rfl) fun _ _ _ => rfl

/-- A copy that is made is reported, and its pointers are patched next. -/
lemma copy_advances {index : Nat} (h : index < s.patcher.image.sections.length) :
    Sat (copy index) s
      (fun stage s' => (∃ t, stage = .patching t 0 ∧ t.index = index) ∧ s'.patcher.report.isEmpty = false)
      fun _ _ => True := by
  refine copy_rule (fun hnone => ?_) fun placed _ => ?_
  · rw [List.getElem?_eq_getElem h] at hnone
    cases hnone
  · refine (sat_any _ _).mono (fun dest c _ => ⟨⟨_, rfl, rfl⟩, ?_⟩) fun _ _ h => h
    simp [ResidencyReport.isEmpty]

/-! ### The last step -/

variable [CacheControl κ]

/-- The caches once they have been maintained for the variables of an image. -/
def maintained (image : Image) (k : κ) : κ :=
  CacheControl.invalidateInstructions <| match image.data with
    | none => k
    | some b => CacheControl.flushData b.addr b.len k

lemma finish_maintains (s : State κ) :
    Sat finish s
      (fun _ s' => s'.patcher = s.patcher ∧ s'.context = s.context ∧ s'.cache =
        if s.patcher.report.isEmpty then s.cache else maintained s.patcher.image s.cache)
      fun _ _ => False := by
  unfold finish
  refine Sat.get_bind ?_
  dsimp only
  split_ifs
  · exact sat_note.2 ⟨rfl, rfl, rfl⟩
  · unfold maintained
    rcases s.patcher.image.data with _ | block <;> dsimp only
    · exact Sat.modify_bind (sat_note.2 ⟨rfl, rfl, rfl⟩)
    · exact Sat.modify_bind (Sat.modify_bind (sat_note.2 ⟨rfl, rfl, rfl⟩))

/-! ### A whole pass -/

/-- **The invariant** of a pass that has more to do: the caches are as they were at its start, and as long
as no section has been copied the context is, too. -/
structure Pending (image : Image) (c : Context) (k : κ) (s : State κ) : Prop where
  image_eq : s.patcher.image = image
  cache_eq : s.cache = k
  unfinished : s.patcher.stage ≠ .done
  indexed : ∀ i, s.patcher.stage = .copying i → i < image.sections.length
  untouched : s.patcher.report.isEmpty → s.context = c ∧ ∀ t i, s.patcher.stage ≠ .patching t i

/-- What the last step does. -/
structure Concludes (image : Image) (s s' : State κ) : Prop where
  context_eq : s'.context = s.context
  report_eq : s'.patcher.report = s.patcher.report
  cache_eq : s'.cache = if s.patcher.report.isEmpty then s.cache else maintained image s.cache

namespace Pending

lemma step_sat (h : Pending image c k s) :
    Sat step s
      (fun more s' => if more then Pending image c k s' ∧
          toGo image s'.patcher.stage < toGo image s.patcher.stage
        else Concludes image s s')
      fun _ s' => s'.cache = k := by
  obtain ⟨himage, hcache, hunfinished, hindexed, huntouched⟩ := h
  refine step_rule ?_
  rcases hstage : s.patcher.stage with next | index | ⟨t, cursor⟩ | _
  · -- looking for the next section
    refine scan_rule (fun index hnext => ?_) fun _ => (finish_maintains s).mono ?_ fun _ _ h => h.elim
    · rw [himage] at hnext
      obtain ⟨hle, -, q, hq, -⟩ := Image.nextTagged_some hnext
      have hlt := (List.getElem?_eq_some_iff.1 hq).1
      refine ⟨⟨himage, hcache, nofun, ?_, fun h => ⟨(huntouched h).1, nofun⟩⟩, toGo_copying_lt hle hlt⟩
      rintro _ ⟨⟩
      exact hlt
    · rintro _ s' ⟨hpatcher, hcontext, hfinal⟩
      rw [himage] at hfinal
      have hreport : s'.patcher.report = s.patcher.report := congrArg Patcher.report hpatcher
      exact ⟨hcontext, hreport, hfinal⟩
  · -- copying a section
    have hcopy := (copy_keeps index s).and (copy_advances (s := s) (himage ▸ hindexed index hstage))
    refine hcopy.mono ?_ fun _ _ h => (congrArg Prod.snd h.1).trans hcache
    rintro _ s' ⟨hkept, ⟨t, rfl, rfl⟩, hreport⟩
    refine ⟨⟨(congrArg Prod.fst hkept).trans himage, (congrArg Prod.snd hkept).trans hcache, nofun, nofun,
      fun h => ?_⟩, ?_⟩
    · rw [hreport] at h
      cases h
    · unfold toGo
      dsimp only
      omega
  · -- patching a pointer
    have hpatch := (patch_keeps t cursor s).and (patch_advances t cursor s)
    refine hpatch.mono ?_ fun _ _ h => (congrArg (·.2.2) h.1).trans hcache
    rintro stage s' ⟨hkept, hless, hdone, hcopying⟩
    have hmore : decide (stage ≠ .done) = true := decide_eq_true hdone
    rw [hmore, if_pos rfl, ← hstage]
    refine ⟨⟨(congrArg (·.1) hkept).trans himage, (congrArg (·.2.2) hkept).trans hcache, hdone,
      fun i hi => absurd hi (hcopying i), fun h => ?_⟩, himage ▸ hstage ▸ hless⟩
    have hcopies : s'.patcher.report.copies = s.patcher.report.copies := congrArg (·.2.1) hkept
    have hempty : s.patcher.report.isEmpty := by
      rw [ResidencyReport.isEmpty, ← hcopies]
      exact h
    exact absurd hstage ((huntouched hempty).2 t cursor)
  · exact (hunfinished hstage).elim

/-- **A pass** that comes to its end has left the caches alone until its last step. -/
lemma steps_sat (n : Nat) (h : Pending image c k s) (hn : toGo image s.patcher.stage ≤ n) :
    Sat (steps n) s
      (fun _ s' => ∃ m, Sat (steps m) s (fun _ t => Pending image c k t ∧ Concludes image t s')
        fun _ _ => False)
      fun _ s' => s'.cache = k := by
  induction n generalizing s with
  | zero =>
    have hpos : 0 < toGo image s.patcher.stage := Progress.toGo_pos h.unfinished
    omega
  | succ n ih =>
    have hstep := h.step_sat
    unfold Sat at hstep
    unfold steps
    rcases hs : step s with ⟨e | more, s1, es⟩ <;> rw [hs] at hstep
    · exact Sat.bind_of_error hs hstep
    cases more with
    | false => exact Sat.bind_of_ok hs (sat_pure.2 ⟨0, sat_pure.2 ⟨h, hstep⟩⟩)
    | true =>
      obtain ⟨hnext, hless⟩ := hstep
      refine Sat.bind_of_ok hs ((ih hnext (by omega)).mono ?_ fun _ _ h => h)
      rintro _ s' ⟨m, hm⟩
      exact ⟨m + 1, Sat.bind_of_ok hs hm⟩

end Pending

/-- **Cache maintenance.** A pass with nothing to copy changes nothing and maintains no caches. Any other
pass that succeeds comes, after some of its steps, to where the context is as it will be at the end and
the caches are still as they were at the start; all that is left is to write back the caches over the
variables, and then to discard cached instructions. A pass that fails has maintained no caches, whatever it
has written. -/
theorem runOn_maintains (image : Image) (c : Context) (k : κ) :
    Sat (runOn image) (c, k)
      (fun report w => (report.isEmpty → w = (c, k)) ∧
        (¬ report.isEmpty → w.2 = maintained image k ∧
          ∃ m, Sat (steps m) ⟨start image, c, k⟩
            (fun _ s => s.patcher.stage ≠ .done ∧ s.context = w.1 ∧ s.cache = k) fun _ _ => False))
      fun _ w => w.2 = k := by
  have hstart : Pending image c k (⟨start image, c, k⟩ : State κ) :=
    ⟨rfl, rfl, nofun, nofun, fun _ => ⟨rfl, nofun⟩⟩
  unfold runOn run
  refine sat_zoom.2 (Sat.get_bind (Sat.bind (hstart.steps_sat _ ?_) ?_ fun _ _ h => h))
  · exact Nat.le_refl _
  rintro _ s' ⟨m, hm⟩
  refine Sat.get_bind (sat_pure.2 ?_)
  obtain ⟨t, hpending, hcontext, hreport, hcache⟩ :
      ∃ t, Pending image c k t ∧ Concludes image t s' := by
    rcases hsteps : steps m (⟨start image, c, k⟩ : State κ) with ⟨_ | _, t, es⟩
    · exact (hm.of_error hsteps).elim
    · exact ⟨t, hm.of_ok hsteps⟩
  rw [hpending.cache_eq, ← hreport] at hcache
  refine ⟨fun hempty => ?_, fun hcopied => ⟨hcache.trans (if_neg hcopied), m, ?_⟩⟩
  · rw [if_pos hempty] at hcache
    exact Prod.ext (hcontext.trans (hpending.untouched (hreport ▸ hempty)).1) hcache
  · exact hm.mono (fun _ u ⟨h, h'⟩ => ⟨h.unfinished, h'.context_eq.symm, h.cache_eq⟩) fun _ _ h => h

/-- Two resident sections, the second of which finds no room once a pointer into the first one has been
redirected. -/
def crowdedObject : Bytes := Small.object
  (Small.ofWords ([0x4770] ++ .replicate 9 0 ++ [0x10000001, 0, 0, 0, 0, 1, 1, 0, 0x10012]) ++
    (Bytes.ofText "\x00e\x00.text.iflash\x00.data\x00").toList)
  [.replicate 10 0, [3, 1, 6, 0, 52, 4, 0, 0, 4, 0], [3, 1, 6, 0, 56, 36, 0, 0, 4, 0],
    [16, 1, 3, 0, 92, 4, 0, 0, 4, 0], [0, 2, 0, 0, 96, 32, 5, 1, 4, 16],
    [0, 3, 0, 0, 128, 22, 0, 0, 1, 0]]

/-- How a pass right after a load fails, and the first word of the pool before and after it. -/
def failure? (loaded : Outcome Loader.State Image) : Option (Error × UInt32 × UInt32) := do
  let image ← loaded.result.toOption
  let c := loaded.state.context
  match runOn image (c, Cpu.create) with
  | ⟨.error e, w, _⟩ => some (e, c.pool.mem.u32 0, w.1.pool.mem.u32 0)
  | ⟨.ok _, _, _⟩ => none

/-- The pointer leads through a trampoline by then, and the caches have not been told. -/
theorem runOn_maintains_crowdedObject :
    ∃ (image : Image) (s : Loader.State) (c' : Context) (es es' : List Event),
      Small.load 16 crowdedObject Small.context = ⟨.ok image, s, es⟩ ∧
      runOn image (s.context, Cpu.create) =
        ⟨.error (.outOfFlash "iflash" 48 32), (c', Cpu.create), es'⟩ ∧
      s.context.pool.mem.u32 0 = 0x10000001 ∧ c'.pool.mem.u32 0 = 0x8000011 := by
  have hfails : failure? (Small.load 16 crowdedObject Small.context) =
      some (.outOfFlash "iflash" 48 32, 0x10000001, 0x8000011) := by decide +kernel
  unfold failure? at hfails
  rcases hload : Small.load 16 crowdedObject Small.context with ⟨_ | image, s, es⟩
  · rw [hload] at hfails
    cases hfails
  rw [hload] at hfails
  dsimp only [Except.toOption, Option.bind_eq_bind, Option.bind_some] at hfails
  have hmaintains := runOn_maintains image s.context Cpu.create
  rcases hpass : runOn image (s.context, Cpu.create) with ⟨e | report, ⟨c', cpu⟩, es'⟩ <;>
    rw [hpass] at hfails
  · obtain rfl : cpu = Cpu.create := hmaintains.of_error hpass
    simp only [Option.some.injEq, Prod.mk.injEq] at hfails
    obtain ⟨rfl, hbefore, hafter⟩ := hfails
    exact ⟨image, s, c', es, es', rfl, hpass, hbefore, hafter⟩
  · cases hfails

end Patcher

end FlashLink
