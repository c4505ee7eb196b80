import FlashLink.Proofs.CacheMaintenance
import FlashLink.Proofs.Loops

/-!
How many steps a residency pass takes.

A section that is made resident is found, copied and left behind, and in between each pointer into it is
patched: three steps for a copy, and one for a pointer. One last step finds no section any more. So the
stage and the report tell at any time how many steps have been made, however many words of the variables
have been looked at on the way, and the loop of a pass ends without a bound.
-/

namespace FlashLink

open Act

namespace Patcher

variable {κ : Type} {s s' : State κ} {c : Context} {k : κ} {image : Image}

/-- The steps that have been made where a pass is at this stage, with this report. -/
def taken (stage : PatchStage) (report : ResidencyReport) : Nat :=
  match stage with
  | .scanning _ => 3 * report.copies.length + report.pointersPatched
  | .copying _ => 3 * report.copies.length + report.pointersPatched + 1
  | .patching _ _ => 3 * (report.copies.length - 1) + report.pointersPatched + 2
  | .done => 1 + 3 * report.copies.length + report.pointersPatched

/-! ### One step -/

/-- A trampoline counts as such only, and none is made where making it fails. -/
lemma trampolineTo_counts (target base : Addr) (s : State κ) :
    Sat (trampolineTo target base) s
      (fun _ s' => s'.patcher.report.copies = s.patcher.report.copies ∧
        s'.patcher.report.pointersPatched = s.patcher.report.pointersPatched)
      fun _ s' => s'.patcher = s.patcher := by
  refine trampolineTo_rule (fun _ _ => ⟨rfl, rfl⟩) fun _ => ?_
  exact (sat_any _ _).mono (fun _ _ _ => ⟨rfl, rfl⟩) fun _ _ _ => rfl

/-- Patching a pointer is one step, and so is finding that none is left. -/
lemma patch_counts (t : PatchTarget) (cursor : Nat) (hcopied : s.patcher.report.isEmpty = false) :
    Sat (patch t cursor) s
      (fun stage s' => taken stage s'.patcher.report =
        taken (.patching t cursor) s.patcher.report + 1)
      fun _ s' => s'.patcher = s.patcher := by
  have hleave : taken (.scanning (t.index + 1)) s.patcher.report =
      taken (.patching t cursor) s.patcher.report + 1 := by
    have hpos : s.patcher.report.copies.length ≠ 0 := by
      simpa [ResidencyReport.isEmpty] using hcopied
    unfold taken
    dsimp only
    omega
  refine patch_rule (fun _ => hleave) (fun _ _ _ => hleave) fun b i word target _ _ => ?_
  refine (trampolineTo_counts target _ s).mono ?_ fun _ _ h => h
  rintro addr s' ⟨hcopies, hpatched⟩
  simp only [taken, hcopies, hpatched]
  omega

lemma copy_counts {index : Nat} (h : index < s.patcher.image.sections.length) :
    Sat (copy index) s
      (fun stage s' => taken stage s'.patcher.report = taken (.copying index) s.patcher.report + 1)
      fun _ s' => s'.patcher = s.patcher := by
  refine copy_rule (fun hnone => ?_) fun placed _ => ?_
  · rw [List.getElem?_eq_getElem h] at hnone
    cases hnone
  · refine (sat_any _ _).mono (fun dest c _ => ?_) fun _ _ _ => rfl
    simp only [taken, List.length_append, List.length_singleton]
    omega

variable [CacheControl κ]

lemma scan_counts (next : Nat) (s : State κ) :
    Sat (scan next) s
      (fun stage s' => taken stage s'.patcher.report = taken (.scanning next) s.patcher.report + 1)
      fun _ _ => False := by
  refine scan_rule (fun _ _ => rfl) fun _ => (finish_sat s).mono (fun _ s' hs' => ?_) fun _ _ h => h
  simp only [taken, hs'.1]
  omega

/-- A pass that is done stays as it is. -/
lemma step_of_done (h : s.patcher.stage = .done) : step s = ⟨.ok false, s, []⟩ := by
  obtain ⟨⟨image, stage, report, made⟩, context, cache⟩ := s
  dsimp only at h
  subst h
  rfl

/-- **A step** counts as one if it succeeds. One that fails changes nothing that is counted. -/
lemma Pending.step_counts (h : Pending image c k s) :
    Sat step s
      (fun more s' => (more = false → s'.patcher.stage = .done) ∧
        taken s'.patcher.stage s'.patcher.report = taken s.patcher.stage s.patcher.report + 1)
      fun _ s' => s'.patcher = s.patcher := by
  have hadvance : Sat (advance s.patcher.stage) s (fun stage s' => taken stage s'.patcher.report =
      taken s.patcher.stage s.patcher.report + 1) fun _ s' => s'.patcher = s.patcher := by
    rcases hstage : s.patcher.stage with next | index | ⟨t, cursor⟩ | _
    · exact (scan_counts next s).mono (fun _ _ h => h) fun _ _ h => h.elim
    · exact copy_counts (h.image_eq ▸ h.indexed index hstage)
    · refine patch_counts t cursor (Bool.eq_false_iff.2 fun hempty => ?_)
      exact (h.untouched hempty).2 t cursor hstage
    · exact (h.unfinished hstage).elim
  refine step_rule (hadvance.mono (fun stage s' hcount => ⟨fun hmore => ?_, hcount⟩) fun _ _ h => h)
  simpa using hmore

/-! ### The loop -/

/-- One round of the loop of a pass: a step, and another round if there is more to do. -/
def round : Unit → Act (State κ) (Unit ⊕ Unit) := fun _ => do
  if ← step then return .inl () else return .inr ()

lemma round_of_step {more : Bool} {es : List Event} (h : step s = ⟨.ok more, s', es⟩) :
    round () s = ⟨.ok (if more then .inl () else .inr ()), s', es⟩ := by
  unfold round
  rw [bind_of_ok h]
  cases more
  · exact congrArg _ (List.append_nil es)
  · exact congrArg _ (List.append_nil es)

/-- Steps that suffice for what is to do are the loop, and as many of them are made as are counted. -/
lemma Pending.steps_loop (n : Nat) (h : Pending image c k s) (hn : toGo image s.patcher.stage ≤ n) :
    ∃ m, Loops round () s m (steps n s) ∧
      Sat (steps n) s
        (fun _ s' => s'.patcher.stage = .done ∧
          taken s'.patcher.stage s'.patcher.report = taken s.patcher.stage s.patcher.report + m)
        fun _ s' => taken s'.patcher.stage s'.patcher.report + 1 =
          taken s.patcher.stage s.patcher.report + m := by
  induction n generalizing s with
  | zero =>
    have hpos : 0 < toGo image s.patcher.stage := Progress.toGo_pos h.unfinished
    omega
  | succ n ih =>
    unfold steps
    rcases hs : step s with ⟨e | more, s', es⟩
    · have hround : round () s = ⟨.error e, s', es⟩ := bind_of_error hs
      rw [bind_of_error hs]
      refine ⟨1, .fail hround, Sat.bind_of_error hs ?_⟩
      rw [h.step_counts.of_error hs]
    obtain ⟨hdone, htaken⟩ := h.step_counts.of_ok hs
    have hround := round_of_step hs
    rw [bind_of_ok hs]
    cases more with
    | false =>
      refine ⟨1, ?_, Sat.bind_of_ok hs (sat_pure.2 ⟨hdone rfl, htaken⟩)⟩
      exact .stop (hround.trans (congrArg _ (List.append_nil es).symm))
    | true =>
      obtain ⟨hpending, hless⟩ := h.step_sat.of_ok hs
      obtain ⟨m, hloop, hsat⟩ := ih hpending (by omega)
      refine ⟨m + 1, .next hround hloop, Sat.bind_of_ok hs (hsat.mono ?_ fun _ t hcount => by omega)⟩
      rintro _ t ⟨hstage, hcount⟩
      exact ⟨hstage, by omega⟩

/-- **How long a pass takes.** The loop of steps comes to its end for every image, in every context and
whatever the caches are, and the whole pass is this loop with the report at its end. Where no step has
failed the number of steps is one more than three for each copy and one for each patched pointer, and
from then on a step answers that nothing is left to do and changes nothing. Where a step has failed, the
stage and the report tell the number of those before it. -/
theorem run_loops (image : Image) (c : Context) (k : κ) :
    ∃ n o, Loops round () (⟨start image, c, k⟩ : State κ) n o ∧
      run ⟨start image, c, k⟩ = ⟨o.result.map fun _ => o.state.patcher.report, o.state, o.events⟩ ∧
      (o.result = .ok () →
        n = 1 + 3 * o.state.patcher.report.copies.length + o.state.patcher.report.pointersPatched ∧
        step o.state = ⟨.ok false, o.state, []⟩) ∧
      ∀ e, o.result = .error e →
        n = taken o.state.patcher.stage o.state.patcher.report + 1 := by
  have hstart : Pending image c k (⟨start image, c, k⟩ : State κ) :=
    ⟨rfl, rfl, nofun, nofun, fun _ => ⟨rfl, nofun⟩⟩
  obtain ⟨n, hloop, hsat⟩ := hstart.steps_loop (fuel image) (Nat.le_refl _)
  have hnone : taken (start image).stage (start image).report = 0 := rfl
  refine ⟨n, _, hloop, ?_, fun hok => ?_, fun e herror => ?_⟩
  · -- the report is read once the steps are over
    show (steps (fuel image) >>= fun _ => get >>= fun s => Pure.pure s.patcher.report) _ = _
    rcases hs : steps (fuel image) (⟨start image, c, k⟩ : State κ) with ⟨e | ⟨⟩, s, es⟩
    · exact bind_of_error hs
    · exact (bind_of_ok hs).trans (congrArg _ (List.append_nil es))
  · obtain ⟨hstage, hcount⟩ := hsat.of_result hok
    rw [hstage, hnone, Nat.zero_add] at hcount
    exact ⟨hcount.symm, step_of_done hstage⟩
  · have hcount := hsat.of_failure herror
    rw [hnone, Nat.zero_add] at hcount
    exact hcount.symm

/-- One copy and two patched pointers are six steps. -/
theorem run_loops_pointersObject :
    ∃ (image : Image) (s : Loader.State) (es : List Event),
      Small.load 16 BoardHistory.pointersObject Small.context = ⟨.ok image, s, es⟩ ∧
      ∃ o : Outcome (State Unit) Unit, o.result = .ok () ∧ step o.state = ⟨.ok false, o.state, []⟩ ∧
        ∀ n p, Loops round () ⟨start image, s.context, ()⟩ n p ↔ n = 6 ∧ p = o := by
  have hcounts : (BoardHistory.reported? (Small.load 16 BoardHistory.pointersObject Small.context)).map
      (fun r => (r.copies.length, r.pointersPatched)) = some (1, 2) := by decide +kernel
  obtain ⟨report, hreport, hcounts⟩ := Option.map_eq_some_iff.1 hcounts
  obtain ⟨hcopies, hpatched⟩ := Prod.mk.inj hcounts
  rcases hload : Small.load 16 BoardHistory.pointersObject Small.context with ⟨_ | image, s, es⟩
  · rw [hload] at hreport
    cases hreport
  obtain ⟨n, ⟨r, t, es'⟩, hloop, hrun, hcount, -⟩ := run_loops image s.context ()
  rw [hload] at hreport
  unfold BoardHistory.reported? runOn zoom at hreport
  dsimp only [Except.toOption, Option.bind_eq_bind, Option.bind_some] at hreport
  rw [hrun] at hreport
  rcases r with _ | ⟨⟩
  · cases hreport
  obtain rfl : t.patcher.report = report := Option.some.inj hreport
  obtain ⟨rfl, hlast⟩ := hcount rfl
  rw [hcopies, hpatched] at hloop
  refine ⟨image, s, es, rfl, _, rfl, hlast, fun n p => ⟨fun h => h.unique hloop, ?_⟩⟩
  rintro ⟨rfl, rfl⟩
  exact hloop

end Patcher

end FlashLink
