import FlashLink.Proofs.Redirecting

/-!
Residency isolation.

A whole pass over an image copies exactly the sections that are tagged, and redirects exactly those
words of the variables that are addresses in them; nothing else of the pool and nothing of
execute-in-place flash changes. One lemma for each stage shows that it keeps the invariant of passes and
comes nearer to the end, so that the steps allowed for a pass are always enough.
-/

namespace FlashLink

open Act

namespace Patcher

/-! ### Stages -/

variable {κ : Type} {s : State κ} {c : Context} {image : Image}

/-- How many sections have been passed. -/
def passed (image : Image) : PatchStage → Nat
  | .scanning next => next
  | .copying index => index
  | .patching target _ => target.index + 1
  | .done => image.sections.length

/-- The steps that are left at most. -/
def toGo (image : Image) : PatchStage → Nat
  | .scanning next => 1 + (image.sections.length - next) * (3 + image.words)
  | .copying index => 3 + image.words + (image.sections.length - (index + 1)) * (3 + image.words)
  | .patching target cursor =>
    2 + (image.words - cursor) + (image.sections.length - (target.index + 1)) * (3 + image.words)
  | .done => 0

lemma toGo_copying_lt {next index : Nat} (hle : next ≤ index) (hlt : index < image.sections.length) :
    toGo image (.copying index) < toGo image (.scanning next) := by
  have hmul : (image.sections.length - index) * (3 + image.words) ≤
      (image.sections.length - next) * (3 + image.words) := Nat.mul_le_mul_right _ (by omega)
  have hsucc : image.sections.length - index = image.sections.length - (index + 1) + 1 := by omega
  rw [hsucc, Nat.add_mul] at hmul
  unfold toGo
  dsimp only
  omega

/-- The copies that word `k` has been compared with. -/
def reach (copies : List ResidentCopy) (k : Nat) : PatchStage → List ResidentCopy
  | .patching _ cursor => if k < cursor then copies else copies.dropLast
  | _ => copies

/-- Where these copies put an address. -/
def relocate (copies : List ResidentCopy) (word : UInt32) : Option Addr :=
  copies.findSome? (·.relocate? word)

/-- Where word `k` has to lead, as far as has been found out. -/
def goal (image : Image) (c : Context) (copies : List ResidentCopy) (stage : PatchStage) (k : Nat) :
    Option Addr :=
  relocate (reach copies k stage) (image.word c k)

/-- What the stage refers to. -/
def Staged (image : Image) (copies : List ResidentCopy) : PatchStage → Prop
  | .copying index => ∃ q, image.sections[index]? = some q ∧
    image.taggedBefore (index + 1) = image.taggedBefore index ++ [q]
  | .patching target _ => ∃ others name, copies = others ++ [target.copy name]
  | _ => True

/-- **The invariant** of a pass over an image that started in context `c`. -/
structure Progress (image : Image) (c : Context) (stage : PatchStage) (s : State κ) : Prop where
  image_eq : s.patcher.image = image
  extended : Context.Extended (Patched image) c s.context
  copies : Copies s.context c.iflash.nextFree s.context.iflash.nextFree
    (image.taggedBefore (passed image stage)) s.patcher.report.copies
  staged : Staged image s.patcher.report.copies stage
  memo : Memo image.gotBase s
  redirected : Redirected image c (goal image c s.patcher.report.copies stage) s

lemma relocate_concat (copies : List ResidentCopy) (copy : ResidentCopy) (word : UInt32) :
    relocate (copies ++ [copy]) word = (relocate copies word).or (copy.relocate? word) := by
  rw [relocate, List.findSome?_append, relocate, List.findSome?_singleton]

/-- An image fits in a context, and the context is regular, as long as a pass goes on. -/
structure Suited (image : Image) (c : Context) : Prop where
  ready : c.Ready
  regular : c.Regular
  fits : image.Fits c

namespace Progress

variable {stage : PatchStage}

lemma ready (h : Progress image c stage s) (hc : Suited image c) : s.context.Ready :=
  h.extended.ready hc.ready

/-- A copy of a pass is regular, and its section is in execute-in-place flash. -/
lemma copy_regular (h : Progress image c stage s) (hc : Suited image c) {copy : ResidentCopy}
    (hcopy : copy ∈ s.patcher.report.copies) :
    copy.Regular ∧ ∀ a, covers copy.xip copy.size a → s.context.xip.contains a := by
  have hregular := hc.regular.congr h.extended.sameBoard
  obtain ⟨q, hq, offset, -, hend, hof⟩ := h.copies.of_mem hcopy
  obtain ⟨hq, hcls⟩ := Image.mem_taggedBefore hq
  obtain ⟨place, haddr, hle, hword⟩ := (hc.fits.congr h.extended.sameBoard).flash q hq hcls
  have hfree := (h.ready hc).iflash_sound.free_le
  have hend' : offset + q.size ≤ s.context.iflash.partition.size := by omega
  have heven : ∀ {n}, n % wordSize = 0 → n % 2 = 0 := fun hn => by rw [wordSize] at hn; omega
  rw [hof.copy_eq, haddr]
  exact ⟨⟨heven (Region.address_aligned hregular.xip hword),
    heven (Region.address_aligned hregular.iflash hof.aligned),
    Region.address_fits hregular.iflash hend'⟩,
    fun a ha => Region.contains_of_covers hregular.xip hle ha⟩

/-- A word that has been redirected is no address in a section. -/
lemma redirect?_eq_none (h : Progress image c stage s) (hc : Suited image c) {copy : ResidentCopy}
    (hcopy : copy ∈ s.patcher.report.copies) {target addr : Addr}
    (hmade : s.patcher.made.lookup target = some addr) : copy.relocate? addr = none := by
  have hregular := hc.regular.congr h.extended.sameBoard
  obtain ⟨offset, hrecord⟩ := h.memo.records target addr hmade
  have hle := hrecord.le
  have hfree := (h.ready hc).iflash_sound.free_le
  have hwidth : 0 < Record.width := by decide
  have hbare : addr &&& ~~~1 = s.context.iflash.address offset := by
    have haligned := Region.address_aligned hregular.iflash hrecord.aligned
    rw [wordSize] at haligned
    rw [hrecord.addr_eq]
    exact bare_or (by omega) 1
  refine Option.eq_none_iff_forall_ne_some.2 fun t ht => ?_
  have hcovers := (ResidentCopy.relocate?_eq_some.1 ht).1
  rw [hbare] at hcovers
  exact hregular.apart _ ((h.copy_regular hc hcopy).2 _ hcovers)
    (Region.contains_address hregular.iflash.fits (by omega))

/-- The caches do not matter. -/
lemma congr {s' : State κ} (h : Progress image c stage s) (hpatcher : s'.patcher = s.patcher)
    (hcontext : s'.context = s.context) : Progress image c stage s' := by
  obtain ⟨p, d, k⟩ := s
  obtain ⟨p', d', k'⟩ := s'
  dsimp only at hpatcher hcontext
  subst hpatcher hcontext
  exact ⟨h.1, h.2, h.3, h.4, ⟨h.5.1, h.5.2, h.5.3⟩, ⟨h.6.1, h.6.2, h.6.3, h.6.4⟩⟩

/-- Words before the cursor have been compared with all copies. -/
lemma goal_before {target : PatchTarget} {copies : List ResidentCopy} {cursor k : Nat}
    (hlt : k < cursor) :
    goal image c copies (.patching target cursor) k = relocate copies (image.word c k) := by
  rw [goal, reach, if_pos hlt]

/-- Words from the cursor on have been compared with all copies but the last. -/
lemma goal_after {target : PatchTarget} {others : List ResidentCopy} {copy : ResidentCopy}
    {cursor k : Nat} (hle : cursor ≤ k) :
    goal image c (others ++ [copy]) (.patching target cursor) k =
      relocate others (image.word c k) := by
  rw [goal, reach, if_neg (by omega), List.dropLast_concat]

/-- The next stage. -/
def Reached (image : Image) (c : Context) (before stage : PatchStage) (s : State κ) : Prop :=
  Progress image c stage s ∧ (stage ≠ .done → toGo image stage < toGo image before)

lemma copy_sat {index : Nat} (h : Progress image c (.copying index) s) (hc : Suited image c) :
    Sat (copy index) s (Reached image c (.copying index)) fun _ _ => True := by
  obtain ⟨q, hq, htagged⟩ := h.staged
  refine copy_rule (fun hnone => ?_) fun q' hq' => ?_
  · rw [h.image_eq, hq] at hnone
    cases hnone
  obtain rfl : q = q' := by simpa [h.image_eq, hq] using hq'
  refine (copySection_copies (h.ready hc) q).mono ?_ fun _ _ _ => trivial
  rintro dest d ⟨hextended, hpool, hat, hof⟩
  refine ⟨⟨h.image_eq, ?_, ?_, ⟨_, _, rfl⟩, ⟨?_, h.memo.nodup, h.memo.count⟩, ?_⟩, fun _ => ?_⟩
  · exact h.extended.trans (hextended.mono fun _ h => h.elim)
  · change Copies d _ _ (image.taggedBefore (index + 1)) _
    rw [htagged]
    exact (h.copies.extended hextended).snoc hat.1 hof hat.2.1
  · intro target addr hmade
    obtain ⟨offset, hrecord⟩ := h.memo.records target addr hmade
    exact ⟨offset, hrecord.extended hextended⟩
  · have hredirected : Redirected image c (goal image c s.patcher.report.copies (.copying index))
        { s with context := d } := by
      obtain ⟨hmade, hpatched, hkept, hcount⟩ := h.redirected
      refine ⟨hmade, fun k hk target ht => ?_, ?_, hcount⟩
      · rw [hpatched k hk target ht, Image.word, Image.word]
        dsimp only
        rw [hpool]
      · dsimp only
        rw [hpool]
        exact hkept
    have hnext : Redirected image c (goal image c
        (s.patcher.report.copies ++ [⟨q.name, q.addr, dest.addr, q.size⟩])
        (.patching ⟨index, q.addr, dest.addr, q.size⟩ 0)) { s with context := d } := by
      refine hredirected.congr fun k _ => ?_
      rw [goal_after (Nat.zero_le k)]
      rfl
    exact ⟨hnext.made, hnext.patched, hnext.kept, hnext.count⟩
  · unfold toGo
    dsimp only
    omega

/-- Comparing a word with one more section does not find what has been redirected. -/
lemma goal_of_none {target : PatchTarget} {cursor k : Nat}
    (h : Progress image c (.patching target cursor) s) (hk : cursor ≤ k)
    (hnone : target.redirect? (image.word s.context k) = none) :
    relocate s.patcher.report.copies (image.word c k) =
      goal image c s.patcher.report.copies (.patching target cursor) k := by
  obtain ⟨others, name, hcopies⟩ := h.staged
  rcases hgoal : goal image c s.patcher.report.copies (.patching target cursor) k with _ | found
  · rw [h.redirected.word_eq hgoal] at hnone
    rw [hcopies, goal_after hk] at hgoal
    rw [hcopies, relocate_concat, hgoal, Option.none_or]
    exact hnone
  · rw [hcopies, goal_after hk] at hgoal
    rw [hcopies, relocate_concat, hgoal, Option.some_or]

/-- A word that is an address in the section has not been redirected before. -/
lemma goal_of_some {target : PatchTarget} {cursor k : Nat} {found : Addr}
    (h : Progress image c (.patching target cursor) s) (hc : Suited image c) (hk : cursor ≤ k)
    (hwords : k < image.words) (hfound : target.redirect? (image.word s.context k) = some found) :
    goal image c s.patcher.report.copies (.patching target cursor) k = none ∧
      relocate s.patcher.report.copies (image.word c k) = some found := by
  obtain ⟨others, name, hcopies⟩ := h.staged
  have hmem : target.copy name ∈ s.patcher.report.copies := by simp [hcopies]
  rcases hgoal : goal image c s.patcher.report.copies (.patching target cursor) k with _ | other
  · refine ⟨rfl, ?_⟩
    rw [h.redirected.word_eq hgoal] at hfound
    rw [hcopies, goal_after hk] at hgoal
    rw [hcopies, relocate_concat, hgoal, Option.none_or]
    exact hfound
  · have hmade := h.redirected.patched k hwords other hgoal
    have hnone : target.redirect? _ = none := h.redirect?_eq_none hc hmem hmade
    rw [hnone] at hfound
    cases hfound

/-- No word is left to redirect: the section is left behind. -/
lemma leave {target : PatchTarget} {cursor : Nat}
    (h : Progress image c (.patching target cursor) s)
    (hnone : ∀ k < image.words, cursor ≤ k → target.redirect? (image.word s.context k) = none) :
    Reached image c (.patching target cursor) (.scanning (target.index + 1)) s := by
  refine ⟨⟨h.image_eq, h.extended, h.copies, trivial, h.memo, h.redirected.congr fun k hk => ?_⟩,
    fun _ => ?_⟩
  · rcases Nat.lt_or_ge k cursor with hlt | hge
    · rw [goal_before hlt]
      rfl
    · rw [← h.goal_of_none hge (hnone k hk hge)]
      rfl
  · unfold toGo
    dsimp only
    omega

/-- The cursor passes word `i`, and words that are no addresses in the section. -/
lemma goal_passed {target : PatchTarget} {cursor i k : Nat}
    (h : Progress image c (.patching target cursor) s) (hle : cursor ≤ i)
    (hskipped : cursor ≤ k → k < i → target.redirect? (image.word s.context k) = none) (hne : k ≠ i) :
    goal image c s.patcher.report.copies (.patching target (i + 1)) k =
      goal image c s.patcher.report.copies (.patching target cursor) k := by
  rcases Nat.lt_trichotomy k i with hlt | rfl | hgt
  · rw [goal_before (by omega)]
    rcases Nat.lt_or_ge k cursor with hlt' | hge
    · rw [goal_before hlt']
    · exact h.goal_of_none hge (hskipped hge hlt)
  · exact (hne rfl).elim
  · obtain ⟨others, name, hcopies⟩ := h.staged
    rw [hcopies, goal_after (by omega), goal_after (by omega)]

/-- Writing a word of the variables extends the context. -/
lemma overwrite_extended {b : RamBlock} {i : Nat} (hb : image.data = some b) (hi : i < image.words)
    (c : Context) (addr : Addr) :
    Context.Extended (Patched image) c
      { c with pool := c.pool.overwrite b (4 * i) (Bytes.ofU32 addr) } := by
  rw [Image.words_eq hb] at hi
  have hchanged : Pool.Changed (Patched image) c.pool
      (c.pool.overwrite b (4 * i) (Bytes.ofU32 addr)) := by
    unfold Pool.overwrite
    refine Pool.changed_overwrite fun k h1 h2 => ⟨b, hb, by omega, ?_⟩
    rw [Bytes.size_ofU32] at h2
    omega
  exact ⟨⟨.refl _ _, .refl _ _, hchanged.advanced fun _ h => .inr h⟩, .refl _ _⟩

lemma patch_sat {target : PatchTarget} {cursor : Nat}
    (h : Progress image c (.patching target cursor) s) (hc : Suited image c) :
    Sat (patch target cursor) s (Reached image c (.patching target cursor)) fun _ _ => True := by
  refine patch_rule (fun hb => ?bare) (fun b hb hfind => ?none) fun b i word found hb hfind => ?some <;>
    rw [h.image_eq] at hb
  case bare =>
    refine h.leave fun k hk => ?_
    rw [Image.words, hb] at hk
    cases hk
  case none => exact h.leave fun k => findWord_no_word hb hfind
  obtain ⟨hle, hi, hfound, hskipped⟩ := findWord_word hb hfind
  obtain ⟨hnone, hsome⟩ := h.goal_of_some hc hle hi hfound
  rw [h.image_eq]
  refine (trampolineTo_memo (h.ready hc) h.memo found).mono ?_ fun _ _ h => h
  rintro addr s' ⟨hmemo, hextended, hled⟩
  have hoverwrite := overwrite_extended hb hi s'.context addr
  refine ⟨⟨?_, ?_, ?_, ?_, ?_, ?_⟩, fun _ => ?_⟩
  · exact hled.image_eq.trans h.image_eq
  · exact (h.extended.trans (hextended.mono fun _ h => h.elim)).trans hoverwrite
  · dsimp only
    rw [hled.copies_eq]
    exact ((h.copies.extended hextended).extended hoverwrite).mono
      hextended.resident.edited.free_le
  · dsimp only
    rw [hled.copies_eq]
    exact h.staged
  · refine ⟨fun t a ht => ?_, hmemo.nodup, hmemo.count⟩
    obtain ⟨offset, hrecord⟩ := hmemo.records t a ht
    exact ⟨offset, hrecord.extended hoverwrite⟩
  · dsimp only
    rw [hled.copies_eq]
    refine h.redirected.insert hled hb (hc.fits.data b hb) hi hnone
      ((goal_before (Nat.lt_succ_self i)).trans hsome) (fun k hk hne => ?_) rfl
      (by simp only [Pool.overwrite]) rfl
    exact h.goal_passed hle (hskipped k) hne
  · unfold toGo
    dsimp only
    omega

variable [CacheControl κ]

lemma scan_sat {next : Nat} (h : Progress image c (.scanning next) s) :
    Sat (scan next) s (Reached image c (.scanning next)) fun _ _ => True := by
  have hcopies := h.copies
  refine scan_rule (fun index hnext => ?found) fun hnext => ?last
  case found =>
    rw [h.image_eq] at hnext
    obtain ⟨hle, hsame, q, hq, htagged⟩ := Image.nextTagged_some hnext
    refine ⟨⟨h.image_eq, h.extended, ?_, ⟨q, hq, htagged⟩, h.memo, h.redirected⟩,
      fun _ => toGo_copying_lt hle (List.getElem?_eq_some_iff.1 hq).1⟩
    rwa [passed, ← hsame] at hcopies
  case last =>
    rw [h.image_eq] at hnext
    refine (finish_sat s).mono ?_ fun _ _ h => h.elim
    rintro _ s' ⟨hpatcher, hcontext⟩
    refine ⟨?_, fun hne => (hne rfl).elim⟩
    refine Progress.congr (s := s) ⟨h.image_eq, h.extended, ?_, trivial, h.memo, h.redirected⟩ hpatcher
      hcontext
    rw [passed, Image.nextTagged_none hnext] at hcopies
    rwa [passed, Image.taggedBefore_length]

/-- **A step** keeps the invariant and comes nearer to the end, unless it is the last one. -/
lemma step_sat (h : Progress image c s.patcher.stage s) (hc : Suited image c) :
    Sat step s
      (fun more s' => Progress image c s'.patcher.stage s' ∧
        if more then toGo image s'.patcher.stage < toGo image s.patcher.stage
        else s'.patcher.stage = .done)
      fun _ _ => True := by
  have hadvance : Sat (advance s.patcher.stage) s (Reached image c s.patcher.stage) fun _ _ => True := by
    generalize s.patcher.stage = stage at h
    cases stage with
    | scanning next => exact h.scan_sat
    | copying index => exact h.copy_sat hc
    | patching target cursor => exact h.patch_sat hc
    | done => exact sat_pure.2 ⟨h, fun hne => (hne rfl).elim⟩
  refine step_rule (hadvance.mono ?_ fun _ _ h => h)
  rintro stage s' ⟨h', hless⟩
  refine ⟨⟨h'.image_eq, h'.extended, h'.copies, h'.staged, ⟨h'.memo.records, h'.memo.nodup, h'.memo.count⟩,
    ⟨h'.redirected.made, h'.redirected.patched, h'.redirected.kept, h'.redirected.count⟩⟩, ?_⟩
  by_cases hdone : stage = .done
  · simp [hdone]
  · simpa [hdone] using hless hdone

lemma toGo_pos {stage : PatchStage} (h : stage ≠ .done) : 0 < toGo image stage := by
  cases stage with
  | done => exact (h rfl).elim
  | _ =>
    unfold toGo
    dsimp only
    omega

lemma done_of_toGo {stage : PatchStage} (h : toGo image stage = 0) : stage = .done := by
  by_contra hne
  exact Nat.ne_of_gt (toGo_pos hne) h

/-- As many steps as are left at most lead to the end. -/
lemma steps_sat (n : Nat) (h : Progress image c s.patcher.stage s) (hc : Suited image c)
    (hn : toGo image s.patcher.stage ≤ n) :
    Sat (steps n) s (fun _ s' => Progress image c .done s') fun _ _ => True := by
  refine steps_end_rule (I := fun s => Progress image c s.patcher.stage s)
    (m := fun s => toGo image s.patcher.stage) (fun s h => ?_) (fun s h hzero => ?_) n h hn
  · refine (h.step_sat hc).mono ?_ fun _ _ h => h
    rintro more s' ⟨h', hmore⟩
    cases more with
    | false =>
      have hdone : s'.patcher.stage = .done := hmore
      exact hdone ▸ h'
    | true => exact ⟨h', hmore⟩
  · exact done_of_toGo hzero ▸ h

end Progress

/-- Nothing has been done before a pass. -/
lemma progress_start (c : Context) (cache : κ) :
    Progress image c (.scanning 0) ⟨start image, c, cache⟩ := by
  have hnone : ∀ k, ¬ (goal image c (start image).report.copies (.scanning 0) k).isSome := nofun
  refine ⟨rfl, .refl _ _, Nat.le_refl _, trivial, ⟨?_, List.nodup_nil, rfl⟩, ⟨fun target => ?_, ?_,
    .refl _, ?_⟩⟩
  · rintro _ _ ⟨⟩
  · refine iff_of_false (by simp [start]) ?_
    rintro ⟨k, -, ⟨⟩⟩
  · rintro k - target ⟨⟩
  · exact (Finset.card_eq_zero.2 (Finset.filter_eq_empty_iff.2 fun k _ => hnone k)).symm

variable [CacheControl κ]

lemma runOn_progress (hc : Suited image c) (cache : κ) :
    Sat (runOn image) (c, cache)
      (fun report t => ∃ s' : State κ, Progress image c .done s' ∧ report = s'.patcher.report ∧
        t.1 = s'.context)
      fun _ _ => True := by
  refine runOn_rule ((Progress.steps_sat _ (progress_start c cache) hc ?_).mono ?_ fun _ _ h => h)
  · exact Nat.le_refl _
  · exact fun _ s' h => ⟨s', h, rfl, rfl⟩

end Patcher

/-! ### Whole passes -/

namespace Image

/-- The word is an address in a section that is to be made resident, the Thumb bit aside. -/
def PointsInto (i : Image) (word : UInt32) : Prop := ∃ q ∈ i.tagged, q.contains (word &&& ~~~1)

instance (i : Image) (word : UInt32) : Decidable (i.PointsInto word) :=
  inferInstanceAs (Decidable (∃ q ∈ i.tagged, q.contains (word &&& ~~~1)))

/-- What a pass over the image from `c` to `c'` has done, and nothing else. -/
structure Isolated (image : Image) (c c' : Context) (report : ResidencyReport) : Prop where
  /-- Exactly the tagged sections are copied, in order, each to its own span that was free. -/
  copied : Patcher.Copies c' c.iflash.nextFree c'.iflash.nextFree image.tagged report.copies
  /-- A word that is an address in one of them leads through a trampoline to the copy. -/
  redirected : ∀ k < image.words, image.PointsInto (image.word c k) → ∃ target offset,
    report.residentAddress? (image.word c k) = some target ∧
      Patcher.RecordOf c' target image.gotBase (image.word c' k) offset
  unchanged : ∀ k < image.words, ¬ image.PointsInto (image.word c k) →
    image.word c' k = image.word c k
  /-- Words that held different addresses lead through different trampolines, and no others do. -/
  shared : ∀ j < image.words, ∀ k < image.words, image.PointsInto (image.word c j) →
    image.PointsInto (image.word c k) →
      (image.word c' j = image.word c' k ↔ image.word c j = image.word c k)
  pool : Bytes.SameOn (fun i => ∀ k < image.words, image.PointsInto (image.word c k) →
    i < image.slot k ∨ image.slot k + 4 ≤ i) c.pool.mem c'.pool.mem
  xip : c'.xip.device.contents = c.xip.device.contents
  pointers : report.pointersPatched =
    {k ∈ Finset.range image.words | image.PointsInto (image.word c k)}.card
  trampolines : report.trampolines =
    ({k ∈ Finset.range image.words | image.PointsInto (image.word c k)}.image (image.word c)).card

end Image

namespace Patcher.Progress

variable {κ : Type} {s : State κ} {c : Context} {image : Image}

/-- The words with a goal are the addresses in tagged sections. -/
lemma pointsInto_iff (h : Progress image c .done s) (word : UInt32) :
    image.PointsInto word ↔ (relocate s.patcher.report.copies word).isSome := by
  have hcopies := h.copies
  rw [passed, Image.taggedBefore_length] at hcopies
  have hrelocate : ∀ {q copy offset}, CopyOf s.context q copy offset →
      ((copy.relocate? word).isSome ↔ q.contains (word &&& ~~~1)) := by
    intro q copy offset hof
    rw [Option.isSome_iff_exists]
    simp only [ResidentCopy.relocate?_eq_some, hof.copy_eq, PlacedSection.contains]
    simp
  rw [relocate, List.findSome?_isSome_iff]
  constructor
  · rintro ⟨q, hq, hin⟩
    obtain ⟨copy, hcopy, offset, hof⟩ := hcopies.of_section hq
    exact ⟨copy, hcopy, (hrelocate hof).2 hin⟩
  · rintro ⟨copy, hcopy, hsome⟩
    obtain ⟨q, hq, offset, -, -, hof⟩ := hcopies.of_mem hcopy
    exact ⟨q, hq, (hrelocate hof).1 hsome⟩

/-- Different addresses have different goals. -/
lemma relocate_inj (h : Progress image c .done s) (hc : Suited image c) {w v : UInt32} {target : Addr}
    (hw : relocate s.patcher.report.copies w = some target)
    (hv : relocate s.patcher.report.copies v = some target) : w = v := by
  obtain ⟨a, ha, hwa⟩ := List.exists_of_findSome?_eq_some hw
  obtain ⟨b, hb, hvb⟩ := List.exists_of_findSome?_eq_some hv
  have hra := (h.copy_regular hc ha).1
  have hrb := (h.copy_regular hc hb).1
  have hregular := hc.regular.congr h.extended.sameBoard
  obtain rfl : a = b := h.copies.unique hregular.iflash (h.ready hc).iflash_sound.free_le ha hb
    (hra.relocated hwa).1 (hrb.relocated hvb).1
  exact hra.relocate?_inj hwa hvb

/-- A word that is an address in a tagged section leads to a trampoline to the copy. -/
lemma redirected_of (h : Progress image c .done s) {k : Nat} (hk : k < image.words)
    (hin : image.PointsInto (image.word c k)) : ∃ target,
      relocate s.patcher.report.copies (image.word c k) = some target ∧
      s.patcher.made.lookup target = some (image.word s.context k) := by
  obtain ⟨target, htarget⟩ := Option.isSome_iff_exists.1 ((h.pointsInto_iff _).1 hin)
  exact ⟨target, htarget, h.redirected.patched k hk target htarget⟩

/-- Equal addresses share a trampoline, and no others do. -/
lemma word_eq_iff (h : Progress image c .done s) (hc : Suited image c) {j k : Nat}
    (hj : j < image.words) (hk : k < image.words) (hinj : image.PointsInto (image.word c j))
    (hink : image.PointsInto (image.word c k)) :
    image.word s.context j = image.word s.context k ↔ image.word c j = image.word c k := by
  have hregular := hc.regular.congr h.extended.sameBoard
  obtain ⟨t, ht, hmade⟩ := h.redirected_of hj hinj
  obtain ⟨u, hu, hmade'⟩ := h.redirected_of hk hink
  constructor
  · intro heq
    obtain ⟨o, ho⟩ := h.memo.records _ _ hmade
    obtain ⟨o', ho'⟩ := h.memo.records _ _ hmade'
    rw [← heq] at ho'
    obtain rfl := ho.offset_eq (h.ready hc) hregular.iflash ho'
    obtain rfl := ho.target_eq ho'
    exact h.relocate_inj hc ht hu
  · intro heq
    rw [heq, hu] at ht
    cases ht
    exact Option.some.inj (hmade.symm.trans hmade')

/-- There is one trampoline for each address in a tagged section. -/
lemma trampolines_eq (h : Progress image c .done s) (hc : Suited image c) :
    s.patcher.report.trampolines = (({k ∈ Finset.range image.words |
      image.PointsInto (image.word c k)} : Finset Nat).image (image.word c)).card := by
  -- the targets of the trampolines are the goals of the words
  have hmem : ∀ target, target ∈ (s.patcher.made.map (·.1)).toFinset ↔
      ∃ k < image.words, relocate s.patcher.report.copies (image.word c k) = some target := by
    intro target
    rw [List.mem_toFinset, ← lookup_isSome]
    exact h.redirected.made target
  rw [h.memo.count, ← List.length_map (·.1), ← List.toFinset_card_of_nodup h.memo.nodup]
  refine (Finset.card_bij (fun w _ => (relocate s.patcher.report.copies w).getD 0) ?_ ?_ ?_).symm
  · intro w hw
    obtain ⟨k, hk, rfl⟩ := Finset.mem_image.1 hw
    obtain ⟨hk, hin⟩ := Finset.mem_filter.1 hk
    obtain ⟨target, htarget, -⟩ := h.redirected_of (Finset.mem_range.1 hk) hin
    exact (hmem _).2 ⟨k, Finset.mem_range.1 hk, by rw [htarget, Option.getD_some]⟩
  · intro w hw v hv heq
    obtain ⟨j, hj, rfl⟩ := Finset.mem_image.1 hw
    obtain ⟨k, hk, rfl⟩ := Finset.mem_image.1 hv
    obtain ⟨hj, hinj⟩ := Finset.mem_filter.1 hj
    obtain ⟨hk, hink⟩ := Finset.mem_filter.1 hk
    obtain ⟨t, ht, -⟩ := h.redirected_of (Finset.mem_range.1 hj) hinj
    obtain ⟨u, hu, -⟩ := h.redirected_of (Finset.mem_range.1 hk) hink
    rw [ht, hu, Option.getD_some, Option.getD_some] at heq
    exact h.relocate_inj hc ht (heq ▸ hu)
  · intro target htarget
    obtain ⟨k, hk, hfound⟩ := (hmem target).1 htarget
    have hin : image.PointsInto (image.word c k) := by
      rw [h.pointsInto_iff, hfound]
      rfl
    exact ⟨_, Finset.mem_image_of_mem _ (Finset.mem_filter.2 ⟨Finset.mem_range.2 hk, hin⟩),
      by rw [hfound, Option.getD_some]⟩

/-- **A pass that has come to its end** has done what it should, and nothing else. -/
lemma isolated (h : Progress image c .done s) (hc : Suited image c) :
    image.Isolated c s.context s.patcher.report := by
  have hfilter : {k ∈ Finset.range image.words | image.PointsInto (image.word c k)} =
      {k ∈ Finset.range image.words |
        (goal image c s.patcher.report.copies .done k).isSome} :=
    Finset.filter_congr fun k _ => h.pointsInto_iff _
  have hcopies := h.copies
  rw [passed, Image.taggedBefore_length] at hcopies
  refine ⟨hcopies, fun k hk hin => ?_, fun k hk hin => ?_,
    fun j hj k hk hinj hink => h.word_eq_iff hc hj hk hinj hink, ?_, ?_, ?_, h.trampolines_eq hc⟩
  · obtain ⟨target, htarget, hmade⟩ := h.redirected_of hk hin
    obtain ⟨offset, hrecord⟩ := h.memo.records _ _ hmade
    exact ⟨target, offset, htarget, hrecord⟩
  · refine h.redirected.word_eq ?_
    rwa [h.pointsInto_iff, Option.not_isSome_iff_eq_none] at hin
  · refine h.redirected.kept.mono fun i hi k hk hsome => hi k hk ?_
    rwa [h.pointsInto_iff]
  · exact Bytes.ext_get fun i => (h.extended.untouched.same.get_eq i fun _ hk => hk.elim).symm
  · rw [h.redirected.count, hfilter]

end Patcher.Progress

namespace BoardHistory

variable {faults : Prop} {h : BoardHistory} {image : Image}

/-- A pass over an image that was loaded once is a pass over one that fits. -/
lemma Inv.suited {board : Context} (hi : Inv board h) (hregular : board.Regular)
    (himage : image ∈ h.images) : Patcher.Suited image h.context :=
  ⟨hi.ready, hregular.congr hi.same, hi.fits himage⟩

/-- **Residency isolation.** Whatever has happened on the board since an image was loaded, a pass over
it that succeeds copies exactly the tagged sections and redirects exactly those words of its variables
that are addresses in them. All other bytes of the pool and all of execute-in-place flash are as they
were, and the report counts what has been done. -/
theorem pass_isolated {xip iflash : Region} (pool : Pool) (hxip : xip.Sound) (hiflash : iflash.Sound)
    (hroom : Record.width ≤ iflash.sector) (hregular : (start xip iflash pool).context.Regular)
    (hrun : Run faults (start xip iflash pool) h) (himage : image ∈ h.images) {κ : Type}
    [CacheControl κ] {cache cache' : κ} {report : ResidencyReport} {c' : Context} {es : List Event}
    (hpass : Patcher.runOn image (h.context, cache) = ⟨.ok report, (c', cache'), es⟩) :
    image.Isolated h.context c' report := by
  have hsuited := ((inv_start pool hxip hiflash hroom).run hrun).suited hregular himage
  obtain ⟨s', hprogress, rfl, rfl⟩ := (Patcher.runOn_progress hsuited cache).of_ok hpass
  exact hprogress.isolated hsuited

/-- Resident code, and three variables, the first and the last of which are its address. -/
def pointersObject : Bytes := Small.object
  (Small.ofWords [0x4770, 0x10000001, 7, 0x10000001, 0, 0, 0, 0, 1, 1, 0, 0x10012] ++
    (Bytes.ofText "\x00e\x00.text.iflash\x00.data\x00").toList)
  [.replicate 10 0, [3, 1, 6, 0, 52, 4, 0, 0, 4, 0], [16, 1, 3, 0, 56, 12, 0, 0, 4, 0],
    [0, 2, 0, 0, 68, 32, 4, 1, 4, 16], [0, 3, 0, 0, 100, 22, 0, 0, 1, 0]]

/-- What a pass right after a load reports. -/
def reported? (loaded : Outcome Loader.State Image) : Option ResidencyReport := do
  let image ← loaded.result.toOption
  (Patcher.runOn image (loaded.state.context, ())).result.toOption

lemma regular_small : Small.context.Regular := by
  refine ⟨⟨by decide, by decide⟩, ⟨by decide, by decide⟩, fun a => ?_⟩
  rw [Region.contains_eq, Region.contains_eq, covers_iff, covers_iff]
  change 0x10000000 ≤ a.toNat ∧ _ → ¬ (_ ∧ a.toNat < 0x8000000 + 64)
  omega

/-- Both pointers lead through one trampoline. -/
theorem pass_isolated_pointersObject :
    ∃ (h : BoardHistory) (image : Image) (report : ResidencyReport) (c' : Context) (es : List Event),
      Run False (start (Small.region "xip" 0x10000000) (Small.region "iflash" 0x8000000)
        (.create 0x20000000 48)) h ∧
      image ∈ h.images ∧ Patcher.runOn image (h.context, ()) = ⟨.ok report, (c', ()), es⟩ ∧
      image.Isolated h.context c' report ∧ report.pointersPatched = 2 ∧ report.trampolines = 1 := by
  have hcounts : (reported? (Small.load 16 pointersObject Small.context)).map
      (fun r => (r.pointersPatched, r.trampolines)) = some (2, 1) := by decide +kernel
  obtain ⟨report, hreport, hcounts⟩ := Option.map_eq_some_iff.1 hcounts
  rcases hload : Small.load 16 pointersObject Small.context with ⟨_ | image, s', es⟩
  · rw [hload] at hreport
    cases hreport
  rw [hload] at hreport
  have hstep : Step False _ (start (Small.region "xip" 0x10000000) (Small.region "iflash" 0x8000000)
      (.create 0x20000000 48)) _ := Step.load _ (Small.loader_sized (by decide) rfl) _ _ _ _ hload
  rcases hpass : Patcher.runOn image (s'.context, ()) with ⟨_ | r, ⟨c', ⟨⟩⟩, es'⟩
  · unfold reported? at hreport
    dsimp only [Except.toOption, Option.bind_eq_bind, Option.bind_some] at hreport
    rw [hpass] at hreport
    cases hreport
  unfold reported? at hreport
  dsimp only [Except.toOption, Option.bind_eq_bind, Option.bind_some] at hreport
  rw [hpass] at hreport
  cases hreport
  have hrun := (Run.refl _).tail hstep
  have himage : image ∈ [image] := .head _
  exact ⟨_, image, report, c', es', hrun, himage, hpass,
    pass_isolated _ (Small.region_sound _ _) (Small.region_sound _ _) (by decide) regular_small hrun
      himage hpass, congrArg Prod.fst hcounts, congrArg Prod.snd hcounts⟩

end BoardHistory

end FlashLink
