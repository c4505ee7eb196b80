import FlashLink.Proofs.Budgets

/-!
Residency passes that are interrupted.

Failures may be armed before any step, and a step that fails may be made again. The invariant of passes
does not mind: a failed step moves nothing but the bump offset of internal flash, and the flash that it
leaves unused is never referred to. So the variables can be used at any time, every word being either as
it was or the address of a trampoline to a finished copy. And once flash works again and holds what is
left of the pass, the pass comes to the end that it would have come to at once.
-/

namespace FlashLink

open Act

/-! ### Other failures -/

namespace Region

variable {F : Nat → Prop} {r r' : Region}

/-- The region with another failure armed. -/
def withFault (r : Region) (f : Option ArmedFault) : Region := { r with device.armed := f }

lemma sound_withFault {f : Option ArmedFault} : (r.withFault f).Sound ↔ r.Sound :=
  ⟨fun h => ⟨h.1, h.2, h.3, h.4, h.5, h.6, h.7⟩, fun h => ⟨h.1, h.2, h.3, h.4, h.5, h.6, h.7⟩⟩

/-- What is armed does not matter for where work has been done. -/
lemma Edited.withFault (h : Edited F r r') (f : Option ArmedFault) :
    Edited F (r.withFault f) (r'.withFault f) :=
  ⟨h.1, h.2, h.3, h.4, id, h.6, fun hr => sound_withFault.2 (h.7 (sound_withFault.1 hr)), h.8⟩

lemma Written.withFault (h : Written F r r') (f : Option ArmedFault) :
    Written F (r.withFault f) (r'.withFault f) := ⟨h.1.withFault f, h.2⟩

end Region

lemma Context.Extended.withFaults {K : Nat → Prop} {c c' : Context} (h : Extended K c c')
    (f g : Option ArmedFault) : Extended K (c.withFaults f g) (c'.withFaults f g) :=
  ⟨⟨h.xip.withFault f, ⟨h.resident.edited.withFault g, h.resident.free, h.resident.packed⟩, h.pool⟩,
    h.untouched.withFault f⟩

namespace Patcher

variable {κ : Type} {s s' : State κ} {c : Context} {image : Image} {stage : PatchStage}

/-- The state with other failures armed. -/
def State.withFaults (s : State κ) (f g : Option ArmedFault) : State κ :=
  { s with context := s.context.withFaults f g }

lemma Suited.withFaults (h : Suited image c) (f g : Option ArmedFault) :
    Suited image (c.withFaults f g) :=
  ⟨h.ready.withFaults f g, ⟨h.regular.1, h.regular.2, h.regular.3⟩, ⟨h.fits.1, h.fits.2⟩⟩

namespace Progress

/-- The invariant does not mind what is armed, before the pass and now. -/
lemma withFaults (h : Progress image c stage s) (f g : Option ArmedFault) :
    Progress image (c.withFaults f g) stage (s.withFaults f g) := by
  refine ⟨h.image_eq, h.extended.withFaults f g, h.copies.imp fun h => ⟨h.1, h.2, h.3, h.4⟩, h.staged,
    ⟨fun target addr hmade => ?_, h.memo.nodup, h.memo.count⟩,
    ⟨h.redirected.made, h.redirected.patched, h.redirected.kept, h.redirected.count⟩⟩
  obtain ⟨offset, hrecord⟩ := h.memo.records target addr hmade
  exact ⟨offset, hrecord.1, hrecord.2, hrecord.3, hrecord.4⟩

/-- After a step that has failed, the pass is where it was. -/
lemma halted (h : Progress image c stage s) (hs : Halted s s') : Progress image c stage s' := by
  obtain ⟨patcher, d, cache⟩ := s
  obtain ⟨patcher', d', cache'⟩ := s'
  obtain ⟨hpatcher, hpool, hextended, -⟩ := hs
  dsimp only at hpatcher hpool hextended
  subst hpatcher
  have hword : ∀ k, image.word d' k = image.word d k := fun k => by
    rw [Image.word, Image.word, hpool]
  refine ⟨h.image_eq, h.extended.trans (hextended.mono fun _ h => h.elim),
    (h.copies.extended hextended).mono hextended.resident.edited.free_le, h.staged,
    ⟨fun target addr hmade => ?_, h.memo.nodup, h.memo.count⟩,
    ⟨h.redirected.made, fun k hk target hgoal => ?_, ?_, h.redirected.count⟩⟩
  · obtain ⟨offset, hrecord⟩ := h.memo.records target addr hmade
    exact ⟨offset, hrecord.extended hextended⟩
  · dsimp only
    rw [hword]
    exact h.redirected.patched k hk target hgoal
  · dsimp only
    rw [hpool]
    exact h.redirected.kept

end Progress

/-! ### Words at any time -/

end Patcher

/-- Every word of the variables is as it was, or leads through a finished trampoline to where it led, in
the copy of a tagged section that has been copied byte for byte. -/
def Image.Usable (image : Image) (c c' : Context) (report : ResidencyReport) : Prop :=
  ∀ k < image.words, image.word c' k = image.word c k ∨
    ∃ target offset, report.residentAddress? (image.word c k) = some target ∧
      Patcher.RecordOf c' target image.gotBase (image.word c' k) offset ∧
      ∃ q ∈ image.tagged, ∃ copy ∈ report.copies, ∃ place, Patcher.CopyOf c' q copy place ∧
        copy.relocate? (image.word c k) = some target

namespace Patcher

variable {κ : Type} {s s' : State κ} {c : Context} {image : Image} {stage : PatchStage}

/-- The variables can be used wherever a pass stops. -/
lemma Progress.usable (h : Progress image c stage s) :
    image.Usable c s.context s.patcher.report := by
  intro k hk
  rcases hgoal : goal image c s.patcher.report.copies stage k with _ | target
  · exact .inl (h.redirected.word_eq hgoal)
  · have hmade := h.redirected.patched k hk target hgoal
    have hsome := relocate_of_goal hgoal
    obtain ⟨offset, hrecord⟩ := h.memo.records _ _ hmade
    obtain ⟨copy, hcopy, hrelocate⟩ := List.exists_of_findSome?_eq_some hsome
    obtain ⟨q, hq, place, -, -, hof⟩ := h.copies.of_mem hcopy
    exact .inr ⟨target, offset, hsome, hrecord, q, Image.tagged_of_taggedBefore hq, copy, hcopy, place,
      hof, hrelocate⟩

namespace Progress

/-- What a pass can do next is legal where flash works. -/
lemma legal (h : Progress image c s.patcher.stage s) (hhealthy : s.context.Healthy)
    (hinside : ∀ q ∈ image.sections, q.isTagged → q.Inside c.xip) : Legal s := by
  refine ⟨hhealthy, fun q hq htagged => ?_, fun index hstage q hq => ?_⟩
  · rw [h.image_eq] at hq
    obtain ⟨offset, haddr, hle, hpos⟩ := hinside q hq htagged
    have hxip := h.extended.xip
    exact ⟨offset, by rw [hxip.address_eq, haddr], by rw [hxip.partition_eq]; exact hle, hpos⟩
  · rw [h.image_eq] at hq
    rw [hstage] at h
    obtain ⟨q', hq', htagged⟩ := h.staged
    obtain rfl : q = q' := Option.some.inj (hq.symm.trans hq')
    have hmem : q ∈ image.taggedBefore (index + 1) := by simp [htagged]
    exact (List.mem_filter.1 hmem).2

/-- A whole pass has steps enough for what is left of one. -/
lemma toGo_le_fuel (h : Progress image c stage s) : toGo image stage ≤ fuel image := by
  have hfuel : fuel image = 1 + image.sections.length * (3 + image.words) := rfl
  have hmul : ∀ n, n + 1 ≤ image.sections.length →
      3 + image.words + n * (3 + image.words) ≤ image.sections.length * (3 + image.words) := by
    intro n hn
    have := Nat.mul_le_mul_right (3 + image.words) hn
    rw [Nat.add_mul] at this
    omega
  unfold toGo
  rw [hfuel]
  rcases stage with next | index | ⟨target, cursor⟩ | _ <;> dsimp only
  · exact Nat.add_le_add_left (Nat.mul_le_mul_right _ (Nat.sub_le _ _)) _
  · obtain ⟨q, hq, -⟩ := h.staged
    have hlt := (List.getElem?_eq_some_iff.1 hq).1
    have := hmul (image.sections.length - (index + 1)) (by omega)
    omega
  · -- there is a copy, so there is a section
    obtain ⟨others, name, hcopies⟩ := h.staged
    have hcopy : target.copy name ∈ s.patcher.report.copies := by simp [hcopies]
    obtain ⟨q, hq, -⟩ := h.copies.of_mem hcopy
    have hpos := List.length_pos_of_mem (Image.mem_taggedBefore hq).1
    have := hmul (image.sections.length - (target.index + 1)) (by omega)
    omega
  · exact Nat.zero_le _

end Progress

/-! ### Attempts -/

variable [CacheControl κ]

/-- The states that steps lead to, whether they succeed or fail, where failures may be armed between
them. -/
inductive Attempted (s : State κ) : State κ → Prop
  | start : Attempted s s
  | arm {s' : State κ} (h : Attempted s s') (f g : Option ArmedFault) : Attempted s (s'.withFaults f g)
  | step {s' : State κ} (h : Attempted s s') : Attempted s (Patcher.step s').state

/-- A pass that can go on. -/
structure Underway (image : Image) (c : Context) (s : State κ) : Prop where
  progress : ∃ f g, Progress image (c.withFaults f g) s.patcher.stage s
  primed : s.context.Primed

/-- **A step** keeps a pass going, also one that fails. -/
lemma Underway.step (h : Underway image c s) (hc : Suited image c) :
    Underway image c (Patcher.step s).state := by
  obtain ⟨⟨f, g, hprogress⟩, hprimed⟩ := h
  have hstep := (hprogress.step_sat (hc.withFaults f g)).and (step_halts hprimed)
  refine (hstep.mono ?_ ?_).state
  · exact fun _ _ h' => ⟨⟨f, g, h'.1.1⟩, h'.2⟩
  · rintro _ s' ⟨-, hhalted⟩
    refine ⟨⟨f, g, ?_⟩, hhalted.primed⟩
    rw [hhalted.patcher_eq]
    exact hprogress.halted hhalted

/-- **Attempts** keep a pass going. -/
lemma Underway.attempted (h : Underway image c s) (hc : Suited image c) (hs : Attempted s s') :
    Underway image c s' := by
  induction hs with
  | start => exact h
  | arm _ f g ih =>
    obtain ⟨⟨f', g', hprogress⟩, hprimed⟩ := ih
    exact ⟨⟨f, g, hprogress.withFaults f g⟩, hprimed.withFaults f g⟩
  | step _ ih => exact ih.step hc

/-! ### Going on -/

namespace Progress

/-- **The rest of a pass** succeeds where flash works and there is enough of it. -/
lemma steps_succeed (n : Nat) (h : Progress image c s.patcher.stage s) (hc : Suited image c)
    (hl : Legal s) (hroom : demand image c s.patcher.stage s ≤ s.context.iflash.remaining)
    (hn : toGo image s.patcher.stage ≤ n) :
    Sat (steps n) s (fun _ s' => Progress image c s'.patcher.stage s' ∧ s'.patcher.stage = .done)
      fun _ _ => False := by
  refine (steps_end_rule (m := fun s => toGo image s.patcher.stage)
    (I := fun s => Progress image c s.patcher.stage s ∧ Legal s ∧
      demand image c s.patcher.stage s ≤ s.context.iflash.remaining)
    (D := fun s => Progress image c s.patcher.stage s ∧ s.patcher.stage = .done) ?step ?last n
    ⟨h, hl, hroom⟩ hn)
  case step =>
    rintro s ⟨h, hl, hroom⟩
    refine ((h.step_sat hc).and ((step_benign hl).and (h.step_spends hc))).mono ?_ ?_
    · rintro more s' ⟨⟨h', hmore⟩, hl', hpaid⟩
      cases more with
      | false => exact ⟨h', hmore⟩
      | true =>
        refine ⟨⟨h', hl', ?_⟩, hmore⟩
        have hsize : s'.context.iflash.partition.size = s.context.iflash.partition.size :=
          congrArg Partition.size ((h'.extended.sameBoard.iflash_partition).trans
            h.extended.sameBoard.iflash_partition.symm)
        have hfree := (h.ready hc).iflash_sound.free_le
        unfold Paid at hpaid
        unfold Region.remaining at hroom ⊢
        omega
    · rintro e _ ⟨-, ⟨he, -⟩, hunpaid⟩
      rcases hunpaid with hflash | hshort
      · rw [he] at hflash
        cases hflash
      · exact Region.not_short (hc.regular.congr h.extended.sameBoard).iflash hroom hshort
  case last =>
    rintro s ⟨h, -, -⟩ hzero
    exact ⟨h, done_of_toGo hzero⟩

lemma run_succeeds (h : Progress image c s.patcher.stage s) (hc : Suited image c) (hl : Legal s)
    (hroom : demand image c s.patcher.stage s ≤ s.context.iflash.remaining) :
    Sat run s (fun report s' => s'.patcher.stage = .done ∧ image.Isolated c s'.context report)
      fun _ _ => False := by
  have hsteps := h.steps_succeed (fuel image) hc hl hroom h.toGo_le_fuel
  refine run_rule ?_
  rw [h.image_eq]
  refine hsteps.mono ?_ fun _ _ h' => h'
  rintro _ s' ⟨hprogress, hdone⟩
  rw [hdone] at hprogress
  exact ⟨hdone, hprogress.isolated hc⟩

end Progress

end Patcher

/-! ### Histories -/

namespace BoardHistory

variable {faults : Prop} {h : BoardHistory} {image : Image} {board : Context}

/-- A tagged section can always be copied. -/
lemma Resumable.inside (hr : Resumable board h) (himage : image ∈ h.images) {q : PlacedSection}
    (hq : q ∈ image.sections) (htagged : q.isTagged) : q.Inside h.context.xip := by
  have hmem : q ∈ image.taggedBefore image.sections.length := by
    rw [Image.taggedBefore_length]
    exact List.mem_filter.2 ⟨hq, htagged⟩
  obtain ⟨offset, haddr, hle, -⟩ := (hr.fits himage).flash q hq (Image.mem_taggedBefore hmem).2
  exact ⟨offset, haddr, hle, hr.sized image himage q hq⟩

/-- **Interrupted passes.** Whatever has happened on the board since an image was loaded, and whatever
has failed since a pass over it was begun: every word of the variables is as it was or the address of a
finished trampoline to a finished copy. A step that fails leaves the patcher and the pool as they were.
And where flash works again and holds what the rest of the pass takes, the pass can be gone on with to
its end, with as many pointers redirected and as many trampolines made as in a pass without failures. -/
theorem pass_resumes {xip iflash : Region} (pool : Pool) (hxip : xip.Sound) (hiflash : iflash.Sound)
    (hroom : Record.width ≤ iflash.sector) (hregular : (start xip iflash pool).context.Regular)
    (hrun : Run faults (start xip iflash pool) h) (himage : image ∈ h.images) {κ : Type}
    [CacheControl κ] {cache : κ} {s : Patcher.State κ}
    (hs : Patcher.Attempted ⟨Patcher.start image, h.context, cache⟩ s) :
    image.Usable h.context s.context s.patcher.report ∧
    (∀ e s' es, Patcher.step s = ⟨.error e, s', es⟩ →
      s'.patcher = s.patcher ∧ s'.context.pool = s.context.pool) ∧
    (Patcher.demand image h.context s.patcher.stage s ≤ s.context.iflash.remaining →
      ∃ report s' es, Patcher.run (s.withFaults none none) = ⟨.ok report, s', es⟩ ∧
        s'.patcher.stage = .done ∧ image.Isolated h.context s'.context report ∧
        ∀ (cache' cache'' : κ) report' c' es',
          Patcher.runOn image (h.context.withFaults none none, cache') =
            ⟨.ok report', (c', cache''), es'⟩ →
          report.pointersPatched = report'.pointersPatched ∧
            report.trampolines = report'.trampolines) := by
  have hresumable := (resumable_start pool hxip hiflash hroom).run hrun
  have hsuited := hresumable.suited hregular himage
  have hbegun : Patcher.Underway image h.context ⟨Patcher.start image, h.context, cache⟩ :=
    ⟨⟨h.context.xip.device.armed, h.context.iflash.device.armed, Patcher.progress_start _ _⟩,
      hresumable.primed⟩
  obtain ⟨⟨f, g, hprogress⟩, hprimed⟩ := hbegun.attempted hsuited hs
  have husable := hprogress.usable
  refine ⟨husable, fun e s' es hstep => ?_, fun hdemand => ?_⟩
  · have hhalted := (Patcher.step_halts hprimed).of_error hstep
    exact ⟨hhalted.patcher_eq, hhalted.pool_eq⟩
  · have hworks := hsuited.withFaults none none
    have hnow : Patcher.Progress image (h.context.withFaults none none)
        (s.withFaults none none).patcher.stage (s.withFaults none none) :=
      hprogress.withFaults none none
    have hfits : s.context.xip.partition.Regular :=
      ((hsuited.withFaults f g).regular.congr hprogress.extended.sameBoard).xip
    have hlegal := hnow.legal (hprimed.healthy hfits.fits) fun q hq => hresumable.inside himage hq
    obtain ⟨report, s', es, hrun', hdone, hisolated⟩ :=
      (hnow.run_succeeds hworks hlegal hdemand).exists_ok
    refine ⟨report, s', es, hrun', hdone, ⟨hisolated.1, hisolated.2, hisolated.3, hisolated.4,
      hisolated.5, hisolated.6, hisolated.7, hisolated.8⟩, ?_⟩
    intro cache' cache'' report' c' es' hpass
    obtain ⟨t, hend, rfl, -⟩ := (Patcher.runOn_progress hworks cache').of_ok hpass
    have hclean := hend.isolated hworks
    exact ⟨hisolated.pointers.trans hclean.pointers.symm,
      hisolated.trampolines.trans hclean.trampolines.symm⟩

/-- A pass that has found its first section, and is not going to get it written. -/
def tripped (image : Image) (c : Context) : Patcher.State Unit :=
  (Patcher.step ⟨Patcher.start image, c, ()⟩).state.withFaults none (some ⟨.write, 0⟩)

/-- The failure of that pass, whether there is room to go on, and what going on reports. -/
def resumed? (loaded : Outcome Loader.State Image) : Option (Bool × Bool × Nat × Nat) := do
  let image ← loaded.result.toOption
  let failed := Patcher.step (tripped image loaded.state.context)
  let s := failed.state
  let report ← (Patcher.run (s.withFaults none none)).result.toOption
  return (failed.failure?.isSome, decide (Patcher.demand image loaded.state.context s.patcher.stage s ≤
    s.context.iflash.remaining), report.pointersPatched, report.trampolines)

/-- The first copy fails to be written, and then the pass is gone on with. -/
theorem pass_resumes_pointersObject :
    ∃ (h : BoardHistory) (image : Image) (s : Patcher.State Unit) (report : ResidencyReport)
      (s' : Patcher.State Unit) (es : List Event),
      Run False (start (Small.region "xip" 0x10000000) (Small.region "iflash" 0x8000000)
        (.create 0x20000000 48)) h ∧
      image ∈ h.images ∧ (Patcher.step s).failure?.isSome ∧
      Patcher.Attempted ⟨Patcher.start image, h.context, ()⟩ s ∧
      Patcher.run ((Patcher.step s).state.withFaults none none) = ⟨.ok report, s', es⟩ ∧
      image.Isolated h.context s'.context report ∧
      report.pointersPatched = 2 ∧ report.trampolines = 1 := by
  have hsummary : resumed? (Small.load 16 pointersObject Small.context) = some (true, true, 2, 1) := by
    decide +kernel
  rcases hload : Small.load 16 pointersObject Small.context with ⟨_ | image, t, es⟩ <;>
    rw [hload] at hsummary
  · cases hsummary
  obtain ⟨r, hr, hsummary⟩ := Option.bind_eq_some_iff.1 hsummary
  obtain ⟨hfailed, hdemand, hpointers, htrampolines⟩ :
      (Patcher.step (tripped image t.context)).failure?.isSome = true ∧ _ = true ∧
        r.pointersPatched = 2 ∧ r.trampolines = 1 := by
    simpa only [Option.pure_def, Option.some.injEq, Prod.mk.injEq] using hsummary
  have hstep : Step False _ (start (Small.region "xip" 0x10000000) (Small.region "iflash" 0x8000000)
      (.create 0x20000000 48)) _ := Step.load _ (Small.loader_sized (by decide) rfl) _ _ _ _ hload
  have hrun := (Run.refl _).tail hstep
  have himage : image ∈ [image] := .head _
  have htripped : Patcher.Attempted ⟨Patcher.start image, t.context, ()⟩ (tripped image t.context) :=
    .arm (.step .start) none (some ⟨.write, 0⟩)
  have hresumes := pass_resumes _ (Small.region_sound _ _) (Small.region_sound _ _) (by decide)
    regular_small hrun himage (.step htripped)
  obtain ⟨report, s', es', hagain, -, hisolated, -⟩ := hresumes.2.2 (of_decide_eq_true hdemand)
  rw [hagain] at hr
  obtain rfl := Option.some.inj hr
  exact ⟨_, image, tripped image t.context, report, s', es', hrun, himage, hfailed, htripped, hagain,
    hisolated, hpointers, htrampolines⟩

end BoardHistory

end FlashLink
