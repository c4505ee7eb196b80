import FlashLink.Proofs.Worlds
import Mathlib.Data.List.Pairwise

/-!
Live allocations are never disturbed.

One lemma for each activity shows that it keeps the invariant of worlds and changes no variable of a
live image but the one it patches; an induction along the run does the rest. A pass over an image is a
run of such steps.
-/

namespace FlashLink

open Act

/-! ### Rolling back -/

namespace Context

lemma sameRegions_rewound (c : Context) (p : Checkpoint) : SameRegions c (c.rewound p) :=
  ⟨rfl, rfl, .refl _, rfl, rfl, .refl _⟩

lemma sameRegions_withFaults (c : Context) (f g : Option ArmedFault) :
    SameRegions c (c.withFaults f g) :=
  ⟨rfl, rfl, .refl _, rfl, rfl, .refl _⟩

end Context

namespace World

variable {w w' : World} {a : Activity}

/-- The marks of a world can all be rolled back to. -/
lemma Inv.rollback (h : Inv w) {m : Mark} (hm : m ∈ w.marks) :
    Sat (Context.rollback m.checkpoint) w.context
      (fun _ c' => c' = w.context.rewound m.checkpoint) fun _ _ => False := by
  have hwithin : m.Within w.now := (List.pairwise_cons.1 h.nested).1 m hm
  have hgood := h.good m (.tail _ hm)
  exact Context.rollback_sat hwithin.xip_le hgood.xip_aligned hwithin.iflash_le
    hgood.iflash_aligned

lemma Inv.rolledBack (h : Inv w) {later earlier : List Mark} {m : Mark}
    (hmarks : w.marks = later ++ m :: earlier) :
    Inv ⟨w.context.rewound m.checkpoint, m.live, m :: earlier⟩ := by
  have hsub : (m :: earlier).Sublist w.marks := hmarks ▸ List.sublist_append_right _ _
  have hm : m ∈ w.marks := hsub.subset (.head _)
  obtain ⟨hnow, hnested⟩ := List.pairwise_cons.1 h.nested
  have hwithin := hnow m hm
  have hregions := w.context.sameRegions_rewound m.checkpoint
  have hgood : ∀ m' ∈ m :: earlier, m'.Good (w.context.rewound m.checkpoint) :=
    fun m' hm' => (h.good m' (.tail _ (hsub.subset hm'))).congr hregions
  have hg := hgood m (.head _)
  have hearlier := hnested.sublist hsub
  have hxip := h.xip_sound
  have hiflash := h.iflash_sound
  refine ⟨⟨hxip.1, hxip.2, hxip.3, hxip.4, hxip.5, Nat.le_trans hwithin.xip_le hxip.6,
      hg.xip_aligned⟩,
    ⟨hiflash.1, hiflash.2, hiflash.3, hiflash.4, hiflash.5,
      Nat.le_trans hwithin.iflash_le hiflash.6, hg.iflash_aligned⟩,
    h.room, ⟨fun o b hb => ?_, fun o b hb => ?_⟩, ?_, ?_⟩
  · exact h.intact.flash o b (hwithin.flash o b hb)
  · exact h.intact.resident o b (hwithin.resident o b hb)
  · -- the mark is good for what is now, where there is less free space
    refine List.forall_mem_cons.2 ⟨⟨⟨hg.taken.flash, ?_, hg.taken.owned, hg.taken.apart⟩,
      hg.covered, ?_, hg.xip_aligned, hg.iflash_aligned⟩, hgood⟩
    · exact fun o b hb i h1 h2 hi => hg.taken.resident o b hb i h1 h2 (Context.free_of_rewound hi)
    · intro s hs
      change s ∈ (w.context.rewound m.checkpoint).trampolines.sector at hs
      unfold Context.rewound at hs
      dsimp only at hs
      split_ifs at hs with heq
      · exact hg.packed s (heq ▸ hs)
      · cases hs
  · have hself : m.Within (now ⟨w.context.rewound m.checkpoint, m.live, m :: earlier⟩) :=
      ⟨fun _ _ h => h, fun _ _ h => h, Nat.le_refl _, Nat.le_refl _⟩
    refine List.pairwise_cons.2 ⟨List.forall_mem_cons.2 ⟨hself, fun m' hm' => ?_⟩, hearlier⟩
    exact ((List.pairwise_cons.1 hearlier).1 m' hm').trans hself

end World

/-! ### Patching -/

namespace Patcher

variable {κ : Type} {s s' : State κ}

/-- What a step has made is in flash, whether the step succeeded or not. -/
structure Made (s s' : State κ) : Prop where
  advanced : Context.Advanced (Patched s.patcher.image) s.context s'.context
  image_eq : s'.patcher.image = s.patcher.image
  copies : ∀ copy ∈ s.newCopies s', ∃ offset,
    CopyAt s.context s'.context copy.iflash copy.size offset
  records : ∀ addr ∈ s.newRecords s', ∃ offset,
    s'.context.trampolines.RecordAt s'.context.iflash addr offset

lemma Stepped.made_of (h : Stepped s s') : Made s s' := by
  obtain ⟨hadvanced, himage, hcopies, hmade⟩ := h
  refine ⟨hadvanced, himage, fun copy hcopy => ?_, fun addr haddr => ?_⟩
  · rw [State.newCopies] at hcopy
    rcases hcopies with heq | ⟨c, offset, heq, hat⟩
    · simp [heq] at hcopy
    · rw [heq, List.drop_left, List.mem_singleton] at hcopy
      exact ⟨offset, hcopy ▸ hat⟩
  · rw [State.newRecords] at haddr
    rcases hmade with heq | ⟨target, a, offset, heq, hat⟩
    · simp [heq] at haddr
    · have : addr = a := by simpa [heq] using haddr
      exact ⟨offset, this ▸ hat⟩

lemma Stopped.made_of (h : Stopped s s') : Made s s' := by
  refine ⟨h.advanced, by rw [h.patcher_eq], fun copy hcopy => ?_, fun addr haddr => ?_⟩
  · simp [State.newCopies, h.patcher_eq] at hcopy
  · simp [State.newRecords, h.patcher_eq] at haddr

variable [CacheControl κ]

lemma step_made (hp : s.context.trampolines.Packed s.context.iflash)
    (hsector : Record.width ≤ s.context.iflash.sector) {r : Except Error Bool} {es : List Event}
    (h : step s = ⟨r, s', es⟩) : Made s s' := by
  rcases r with e | more
  · exact ((step_sat hp hsector).of_error h).made_of
  · exact ((step_sat hp hsector).of_ok h).made_of

end Patcher

/-! ### Steps -/

lemma Context.emit_sat {c : Context} (hp : c.trampolines.Packed c.iflash)
    (hsector : Record.width ≤ c.iflash.sector) (target base : Addr) :
    Sat (zoom trampolinePart (Trampolines.emit target base)) c
      (fun addr c' => Advanced (fun _ => False) c c' ∧
        ∃ offset, c'.trampolines.RecordAt c'.iflash addr offset)
      (fun _ c' => Advanced (fun _ => False) c c') := by
  rw [sat_zoom]
  exact (Trampolines.emit_sat hp hsector target base).mono
    (fun _ _ ⟨h, offset, hrecord, _⟩ => ⟨⟨.refl _ _, h, .refl _ _⟩, offset, hrecord⟩)
    fun _ _ h => ⟨.refl _ _, h, .refl _ _⟩

namespace World

variable {w w' w'' : World} {a : Activity}

/-- What the step must not do to the variables of live images. -/
def Spares (a : Activity) (w w' : World) : Prop :=
  ∀ image ∈ w.live.images, a ≠ .patch image → ∀ k, image.Owns k →
    w'.context.pool.mem[k]? = w.context.pool.mem[k]?

lemma Inv.spares {K : Nat → Prop} (h : Inv w) (ha : Context.Advanced K w.context w'.context)
    (hK : ∀ k, K k → ∃ image ∈ w.live.images, a = .patch image ∧ image.Owns k) : Spares a w w' := by
  have htaken := (h.good w.now (.head _)).taken
  intro image himage hne k hk
  refine (ha.pool.same.get_eq k ⟨htaken.owned image himage k hk, fun hKk => ?_⟩).symm
  obtain ⟨other, hother, rfl, hk'⟩ := hK k hKk
  -- two live images share no place
  exact htaken.apart.forall hother himage (fun heq => hne (heq ▸ rfl)) k hk' hk

/-- Work in free space is a good step if what is live afterwards is kept. -/
lemma Inv.advances {K : Nat → Prop} {c' : Context} {live' : Live} (h : Inv w)
    (ha : Context.Advanced K w.context c')
    (hK : ∀ k, K k → ∃ image ∈ w.live.images, a = .patch image ∧ image.Owns k) (hkept : live'.Kept c')
    (hflash : ∀ o b, w.live.flash o b → live'.flash o b)
    (hresident : ∀ o b, w.live.resident o b → live'.resident o b) :
    Inv { w with context := c', live := live' } ∧ w.context.SameRegions c' ∧
      Spares a w { w with context := c', live := live' } :=
  ⟨h.advance ha hkept hflash hresident, ha.sameRegions, h.spares ha hK⟩

/-- Work in free space is a good step if nothing comes to live. -/
lemma Inv.failed {c' : Context} (h : Inv w) (ha : Context.Advanced (fun _ => False) w.context c') :
    Inv { w with context := c' } ∧ w.context.SameRegions c' ∧ Spares a w { w with context := c' } :=
  h.advances ha nofun (h.kept ha) (fun _ _ hb => hb) fun _ _ hb => hb

lemma Inv.armed (h : Inv w) (f g : Option ArmedFault) :
    Inv { w with context := w.context.withFaults f g } := by
  obtain ⟨⟨x1, x2, x3, x4, x5, x6, x7⟩, ⟨i1, i2, i3, i4, i5, i6, i7⟩, hroom, hintact, hgood, hnested⟩ := h
  exact ⟨⟨x1, x2, x3, x4, x5, x6, x7⟩, ⟨i1, i2, i3, i4, i5, i6, i7⟩, hroom, ⟨hintact.1, hintact.2⟩,
    fun m hm => (hgood m hm).congr (w.context.sameRegions_withFaults f g), hnested⟩

/-- What is now can be rolled back to later. -/
lemma Inv.marked (h : Inv w) : Inv { w with marks := w.now :: w.marks } := by
  refine ⟨h.xip_sound, h.iflash_sound, h.room, h.intact, ?_, ?_⟩
  · exact List.forall_mem_cons.2 ⟨h.good w.now (.head _), h.good⟩
  · have hfirst := (List.pairwise_cons.1 h.nested).1
    exact List.pairwise_cons.2 ⟨List.forall_mem_cons.2 ⟨.refl _, hfirst⟩, h.nested⟩

/-- **A step** keeps the invariant, and spares the variables of live images. -/
theorem Inv.step (h : Inv w) (hs : Step a w w') :
    Inv w' ∧ w.context.SameRegions w'.context ∧ Spares a w w' := by
  cases hs with
  | arm _ f g => exact ⟨h.armed f g, w.context.sameRegions_withFaults f g, fun _ _ _ _ _ => rfl⟩
  | @load _ loader source name entry exports image s' es hl hload =>
    obtain ⟨ha, p, e, hsettled, himage, hwrote⟩ := (Loader.load_allocates hl).of_ok hload
    obtain ⟨addr, rfl⟩ : ∃ addr, image = p.image name addr := ⟨_, himage⟩
    have hkept : (w.live.withImage w.context s'.context (p.image name addr)).Kept s'.context :=
      (h.kept ha).withImage (h.good w.now (.head _)).taken hsettled hwrote h.xip_sound (ha.xip.sound h.xip_sound)
    exact h.advances ha nofun hkept (fun _ _ hb => .inl hb) fun _ _ hb => hb
  | @loadFailed _ loader source name entry exports e s' es hl hload =>
    exact h.failed ((Loader.load_allocates hl).of_error hload)
  | @patch _ κ _ p k r s' es hlive hstep =>
    obtain ⟨ha, -, hcopies, hrecords⟩ := Patcher.step_made (s := ⟨p, w.context, k⟩) h.packed h.room
      hstep
    have hsound := ha.resident.edited.sound h.iflash_sound
    have hkept := ((h.kept ha).withCopies h.packed hsound hcopies).withRecords
      (ha.resident.packed h.packed) hsound hrecords
    exact h.advances ha (fun k hk => ⟨p.image, hlive, rfl, hk.owned⟩) hkept (fun _ _ hb => hb)
      fun _ _ hb => .inl (.inl hb)
  | @emit _ target base addr c' es hemit =>
    obtain ⟨ha, hrecord⟩ := (Context.emit_sat h.packed h.room target base).of_ok hemit
    have hkept : (w.live.withRecords c' [addr]).Kept c' := (h.kept ha).withRecords (ha.resident.packed h.packed)
      (ha.resident.edited.sound h.iflash_sound) (List.forall_mem_singleton.2 hrecord)
    exact h.advances ha nofun hkept (fun _ _ hb => hb) fun _ _ hb => .inl hb
  | @emitFailed _ target base e c' es hemit =>
    exact h.failed ((Context.emit_sat h.packed h.room target base).of_error hemit)
  | checkpoint => exact ⟨h.marked, .refl _, fun _ _ _ _ _ => rfl⟩
  | @rollback _ later earlier m c' es hmarks hback =>
    have hm : m ∈ w.marks := hmarks ▸ List.mem_append_right _ (.head _)
    have hc' : c' = w.context.rewound m.checkpoint := (h.rollback hm).of_ok hback
    subst hc'
    exact ⟨h.rolledBack hmarks, w.context.sameRegions_rewound _, fun _ _ _ _ _ => rfl⟩

/-! ### Runs -/

/-- A run from an invariant world stays among these. -/
lemma Inv.run (h : Inv w) (hrun : Run w w') : Inv w' ∧ w.context.SameRegions w'.context := by
  induction hrun with
  | refl => exact ⟨h, .refl _⟩
  | tail _ hstep ih =>
    obtain ⟨hinv, hregions, -⟩ := ih.1.step hstep
    exact ⟨hinv, ih.2.trans hregions⟩

lemma Run.trans (h : Run w w') (h' : Run w' w'') : Run w w'' := by
  induction h' with
  | refl => exact h
  | tail _ hstep ih => exact ih.tail hstep

/-- What has been spared by a patcher at every step has been spared by all of them. -/
lemma Spares.trans (h : Spares a w w') (h' : Spares a w' w'')
    (hlive : w'.live.images = w.live.images) : Spares a w w'' :=
  fun image himage hne k hk =>
    (h' image (hlive ▸ himage) hne k hk).trans (h image himage hne k hk)

/-- A run that patches only this image leads from the world to the context. -/
def Patches (image : Image) (w : World) (c : Context) : Prop :=
  ∃ w', Run w w' ∧ Spares (.patch image) w w' ∧ w'.live.images = w.live.images ∧ w'.context = c

variable {κ : Type} [CacheControl κ] {image : Image}

lemma Patches.head {c : Context} (h : Inv w) (hstep : Step (.patch image) w w')
    (himages : w'.live.images = w.live.images) (hrest : Patches image w' c) :
    Patches image w c := by
  obtain ⟨w'', hrun, hspares, himages', hc⟩ := hrest
  exact ⟨w'', Run.trans (.tail (.refl w) hstep) hrun, (h.step hstep).2.2.trans hspares himages,
    himages'.trans himages, hc⟩

/-- The step of a patcher whose image is live is a step of the world, and the image stays live. -/
lemma Inv.step_patches (h : Inv w) {s : Patcher.State κ} (hcontext : s.context = w.context)
    (himage : s.patcher.image = image) (hlive : image ∈ w.live.images) :
    Sat Patcher.step s
      (fun _ s' => s'.patcher.image = image ∧ ∃ w', Step (.patch image) w w' ∧
        w'.live.images = w.live.images ∧ s'.context = w'.context)
      (fun _ s' => ∃ w', Step (.patch image) w w' ∧
        w'.live.images = w.live.images ∧ s'.context = w'.context) := by
  obtain ⟨p, c, k⟩ := s
  dsimp only at hcontext himage
  subst hcontext himage
  rcases hstep : Patcher.step ⟨p, w.context, k⟩ with ⟨r, s', es⟩
  have hmade := Patcher.step_made (s := ⟨p, w.context, k⟩) h.packed h.room hstep
  have hw' := Step.patch w hlive hstep
  unfold Sat
  rw [hstep]
  rcases r with e | more
  · exact ⟨_, hw', rfl, rfl⟩
  · exact ⟨hmade.image_eq, _, hw', rfl, rfl⟩

/-- Any number of steps of a patcher whose image is live is a run. -/
lemma Inv.steps_patches (n : Nat) {s : Patcher.State κ} (h : Inv w)
    (hcontext : s.context = w.context) (himage : s.patcher.image = image)
    (hlive : image ∈ w.live.images) :
    Sat (Patcher.steps n) s (fun _ s' => Patches image w s'.context)
      (fun _ s' => Patches image w s'.context) := by
  induction n generalizing s w with
  | zero => exact ⟨w, .refl w, fun _ _ _ _ _ => rfl, rfl, hcontext.symm⟩
  | succ n ih =>
    unfold Patcher.steps
    refine Sat.bind (h.step_patches hcontext himage hlive) ?_ ?_
    · rintro more s' ⟨himage', w', hstep, himages, hcontext'⟩
      have hhead : ∀ {c}, Patches image w' c → Patches image w c := Patches.head h hstep himages
      cases more with
      | false =>
        exact sat_pure.2 (hhead ⟨w', .refl w', fun _ _ _ _ _ => rfl, rfl, hcontext'.symm⟩)
      | true =>
        exact (ih (h.step hstep).1 hcontext' himage' (himages ▸ hlive)).mono
          (fun _ _ hrest => hhead hrest) fun _ _ hrest => hhead hrest
    · rintro _ s' ⟨w', hstep, himages, hcontext'⟩
      exact Patches.head h hstep himages
        ⟨w', .refl w', fun _ _ _ _ _ => rfl, rfl, hcontext'.symm⟩

/-- A whole pass over a live image is a run, also if it fails. -/
lemma Inv.pass_patches (h : Inv w) (hlive : image ∈ w.live.images) (cache : κ) :
    Patches image w (Patcher.runOn image (w.context, cache)).state.1 := by
  have hrun : Sat (Patcher.runOn image) (w.context, cache) (fun _ t => Patches image w t.1)
      (fun _ t => Patches image w t.1) := by
    unfold Patcher.runOn Patcher.run
    refine sat_zoom.2 (Sat.get_bind (Sat.bind (h.steps_patches _ rfl rfl hlive) ?_ fun _ _ h => h))
    exact fun _ s' h => Sat.get_bind (sat_pure.2 h)
  rcases hout : Patcher.runOn image (w.context, cache) with ⟨_ | report, t, es⟩
  · exact hrun.of_error hout
  · exact hrun.of_ok hout

/-- Fresh regions and a fresh pool, with nothing made yet. -/
def fresh (xip iflash : Region) (pool : Pool) : World := ⟨.create xip iflash pool, .none, []⟩

lemma inv_fresh {xip iflash : Region} (pool : Pool) (hxip : xip.Sound) (hiflash : iflash.Sound)
    (hroom : Record.width ≤ iflash.sector) : Inv (fresh xip iflash pool) := by
  refine ⟨hxip, hiflash, hroom, ⟨fun _ _ h => h.elim, fun _ _ h => h.elim⟩, ?_, ?_⟩
  · refine List.forall_mem_singleton.2 ⟨⟨fun _ _ h => h.elim, fun _ _ h => h.elim, ?_, .nil⟩,
      ⟨?_, ?_, ?_⟩, ?_, hxip.free_aligned, hiflash.free_aligned⟩
    all_goals rintro _ ⟨⟩
  · exact List.pairwise_singleton _ _

/-- **Live allocations are never disturbed.** From fresh regions on, in any order of loads, patching,
trampolines, checkpoints, rollbacks and injected failures, after every step what is live is at its
address and has the bytes that it had when it was made; the variables of a live image have changed
only if the step patched this image; and no byte outside the partitions has changed. Every checkpoint
can be rolled back to, and a whole pass over a live image is a run of such steps, which spares all
other images. -/
theorem live_undisturbed {xip iflash : Region} (pool : Pool) (hxip : xip.Sound)
    (hiflash : iflash.Sound) (hroom : Record.width ≤ iflash.sector)
    (hrun : Run (fresh xip iflash pool) w) (hstep : Step a w w') :
    w'.live.Covered w'.context ∧ w'.live.Intact w'.context ∧ Spares a w w' ∧
      (fresh xip iflash pool).context.SameRegions w'.context ∧
      (∀ m ∈ w'.marks, (Context.rollback m.checkpoint w'.context).result = .ok ()) ∧
      ∀ image ∈ w'.live.images, ∀ {κ : Type} [CacheControl κ] (cache : κ),
        Patches image w' (Patcher.runOn image (w'.context, cache)).state.1 := by
  obtain ⟨hinv, hregions⟩ := (inv_fresh pool hxip hiflash hroom).run hrun
  obtain ⟨hinv', hregions', hspares⟩ := hinv.step hstep
  refine ⟨(hinv'.good w'.now (.head _)).covered, hinv'.intact, hspares, hregions.trans hregions',
    fun m hm => ?_, fun image himage _ _ cache => hinv'.pass_patches himage cache⟩
  have hback := hinv'.rollback hm
  rcases hout : Context.rollback m.checkpoint w'.context with ⟨e | _, c, es⟩
  · exact (hback.of_error hout).elim
  · rfl

/-- A module is loaded, a checkpoint is taken, and the module is patched. -/
theorem live_undisturbed_linkedObject :
    ∃ w image w', Run (fresh (Small.region "xip" 0x10000000) (Small.region "iflash" 0x8000000)
        (.create 0x20000000 48)) w ∧
      image ∈ w.live.images ∧ Step (.patch image) w w' ∧
      w'.live.Covered w'.context ∧ w'.live.Intact w'.context ∧ Spares (.patch image) w w' ∧
      Small.context.SameRegions w'.context ∧
      ∀ m ∈ w'.marks, (Context.rollback m.checkpoint w'.context).result = .ok () := by
  obtain ⟨image, s', es, hload⟩ := exists_ok
    (o := Small.load 16 Loader.linkedObject Small.context) (by decide +kernel)
  have hloaded := Step.load (fresh (Small.region "xip" 0x10000000)
    (Small.region "iflash" 0x8000000) (.create 0x20000000 48))
    (Small.loader_sized (by decide) rfl) hload
  obtain ⟨w, hrun, hlive⟩ : ∃ w, Run _ w ∧ image ∈ w.live.images :=
    ⟨_, (Run.tail (.refl _) hloaded).tail (.checkpoint _), .head _⟩
  have hstep := Step.patch (κ := Unit) w (p := Patcher.start image) (k := ()) hlive rfl
  obtain ⟨hcovered, hintact, hspares, hregions, hmarks, -⟩ := live_undisturbed _
    (Small.region_sound _ _) (Small.region_sound _ _) (by decide) hrun hstep
  exact ⟨w, image, _, hrun, hlive, hstep, hcovered, hintact, hspares, hregions, hmarks⟩

end World

end FlashLink
