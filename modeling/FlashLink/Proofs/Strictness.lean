import FlashLink.Proofs.Supported

/-!
Strict and lenient loads. Relocations of other types than the three that are supported are errors to a strict
loader, and passed over by a lenient one. So wherever a strict load succeeds, a lenient one does exactly the
same; and a module that is loaded leniently is loaded strictly if and only if there is no such relocation in
the tables of sections with contents.
-/

namespace FlashLink

namespace Act

variable {σ τ α β : Type} {x y : Act σ α} {f g : α → Act σ β}

/-! ### Agreement -/

/-- Wherever `x` succeeds, `y` ends exactly alike. -/
def Agrees (x y : Act σ α) : Prop := ∀ s a, (x s).result = .ok a → y s = x s

namespace Agrees

lemma refl (x : Act σ α) : Agrees x x := fun _ _ _ => rfl

lemma bind (h : Agrees x y) (hfg : ∀ a, Agrees (f a) (g a)) : Agrees (x >>= f) (y >>= g) := by
  intro s b hb
  rcases hx : x s with ⟨e | a, t, es⟩
  · rw [bind_of_error hx] at hb
    cases hb
  · have hy : y s = ⟨.ok a, t, es⟩ := (h s a (by rw [hx])).trans hx
    rw [bind_of_ok hx] at hb
    rw [bind_of_ok hx, bind_of_ok hy, hfg a t b hb]

lemma zoom {part : Part τ σ} (h : Agrees x y) : Agrees (Act.zoom part x) (Act.zoom part y) := by
  intro t a ha
  rw [zoom_eq] at ha
  rw [zoom_eq, zoom_eq, h _ a ha]

lemma throw_bind {e : Error} {k : β → Act σ α} : Agrees (throw e >>= k) y := fun _ _ h => nomatch h

end Agrees

end Act

open Act

/-! ### Applying relocations -/

namespace Relocation

variable {σ : Type}

/-- Lenient linking does what strict linking does, as far as that goes. -/
lemma apply_agrees (first : Nat) (base : Addr) (resolve : Nat → Act σ Addr) (r : Relocation) :
    Agrees (apply first base true resolve r) (apply first base false resolve r) := by
  unfold apply
  refine .bind (.refl _) fun w => ?_
  rcases hk : r.kind <;> dsimp only
  · exact .refl _
  · exact .refl _
  · exact .refl _
  · -- the strict one fails
    by_cases hroom : (decide (first ≤ r.start) && decide (r.start - first + 4 ≤ w.1.size)) = true
    · rw [if_pos hroom, if_pos rfl]
      exact .throw_bind
    · rw [if_neg hroom]
      exact .throw_bind

lemma applyAll_agrees (first : Nat) (base : Addr) (resolve : Nat → Act σ Addr) (rs : List Relocation)
    (t : Tally) : Agrees (applyAll first base true resolve rs t) (applyAll first base false resolve rs t) := by
  induction rs generalizing t with
  | nil => exact .refl _
  | cons r rs ih =>
    unfold applyAll
    refine .bind (.refl _) fun w => ?_
    split_ifs
    · exact .bind (apply_agrees first base resolve r) fun done => ih _
    · exact ih t

lemma applyChunk_agrees (first : Nat) (base : Addr) (resolve : Nat → Act σ Addr) (rs : List Relocation) :
    Agrees (applyChunk first base true resolve rs) (applyChunk first base false resolve rs) := by
  unfold applyChunk
  refine .bind (.refl _) fun w => ?_
  split_ifs
  · exact .bind (.refl _) fun _ => applyAll_agrees first base resolve rs _
  · exact applyAll_agrees first base resolve rs _

end Relocation

/-! ### Sections -/

namespace Desk

variable {β : Type}

lemma foldFrom_agrees (t : RelocationTable) {f g : β → List Relocation → Act Desk β}
    (hfg : ∀ b batch, Agrees (f b batch) (g b batch)) (fuel first : Nat) (b : β) :
    Agrees (foldFrom t f fuel first b) (foldFrom t g fuel first b) := by
  induction fuel generalizing first b with
  | zero => exact .refl _
  | succ fuel ih =>
    unfold foldFrom
    split_ifs
    · exact .refl _
    · exact .bind (.refl _) fun batch => .bind (hfg b batch) fun b' => ih _ b'

lemma stageChunk_agrees (scope : Scope) (s : SectionInfo) (base : Addr) (padding : UInt8) (start len : Nat) :
    Agrees (stageChunk scope true s base padding start len)
      (stageChunk scope false s base padding start len) := by
  unfold stageChunk
  refine .bind (.refl _) fun _ => .bind (.refl _) fun _ => ?_
  rcases s.relocations with _ | t
  · exact .refl _
  · exact foldFrom_agrees t (fun sum batch =>
      .bind (Relocation.applyChunk_agrees start base scope.resolve batch).zoom fun _ => .refl _) _ _ _

end Desk

namespace Bench

lemma streamFrom_agrees (scope : Scope) (s : SectionInfo) (span : FlashSpan) (fuel start chunks : Nat)
    (sum : Tally) : Agrees (streamFrom scope true s span fuel start chunks sum)
      (streamFrom scope false s span fuel start chunks sum) := by
  induction fuel generalizing start chunks sum with
  | zero => exact .refl _
  | succ fuel ih =>
    unfold streamFrom
    split_ifs
    · exact .refl _
    · exact .bind (.refl _) fun stop => .bind (.refl _) fun w =>
        .bind (Desk.stageChunk_agrees scope s span.addr _ start _).zoom fun done =>
          .bind (.refl _) fun w' => .bind (.refl _) fun _ => ih _ _ _

lemma stream_agrees (scope : Scope) (s : SectionInfo) (span : FlashSpan) :
    Agrees (stream scope true s span) (stream scope false s span) :=
  .bind (.refl _) fun _ => .bind (streamFrom_agrees scope s span _ _ _ _) fun _ => .refl _

end Bench

namespace Workshop

lemma relocate_agrees (scope : Scope) (s : SectionInfo) (start : Nat) (base : Addr) (t : RelocationTable)
    (fuel first : Nat) (sum : Tally) :
    Agrees (copySection.relocate scope true s start base t fuel first sum)
      (copySection.relocate scope false s start base t fuel first sum) := by
  induction fuel generalizing first sum with
  | zero => exact .refl _
  | succ fuel ih =>
    unfold copySection.relocate
    split_ifs
    · exact .refl _
    · exact .bind (.refl _) fun batch =>
        .bind (Relocation.applyChunk_agrees 0 base scope.resolve batch).zoom fun done => ih _ _

lemma copySection_agrees (scope : Scope) (ram : RamBlock) (s : SectionInfo) (offset : Nat) :
    Agrees (copySection scope true ram s offset) (copySection scope false ram s offset) := by
  unfold copySection
  refine .bind (.refl _) fun _ => ?_
  rcases s.relocations with _ | t
  · exact .refl _
  · exact .bind (relocate_agrees scope s _ _ t _ _ _) fun _ => .refl _

lemma copyAll_agrees (scope : Scope) (ram : RamBlock) (offsets : List (SectionInfo × Nat)) (sum : Tally) :
    Agrees (copyAll scope true ram offsets sum) (copyAll scope false ram offsets sum) := by
  induction offsets generalizing sum with
  | nil => exact .refl _
  | cons q rest ih => exact .bind (copySection_agrees scope ram q.1 q.2) fun done => ih _

end Workshop

/-! ### Loads -/

namespace Job

lemma streamAll_agrees (scope : Scope) (flash : List (SectionInfo × FlashSpan)) (sum : Tally) :
    Agrees (streamAll scope true flash sum) (streamAll scope false flash sum) := by
  induction flash generalizing sum with
  | nil => exact .refl _
  | cons q rest ih => exact .bind (Bench.stream_agrees scope q.1 q.2).zoom fun done => ih _

lemma commit_agrees (scope : Scope) (space : Reservation) :
    Agrees (commit scope true space) (commit scope false space) := by
  unfold commit
  refine .bind (streamAll_agrees scope space.flash .zero) fun sum => ?_
  rcases space.data with _ | b
  · exact .refl _
  · exact .bind (Workshop.copyAll_agrees scope b.ram b.offsets sum).zoom fun _ => .refl _

/-- Wherever a strict load succeeds, a lenient one does exactly the same. -/
lemma run_agrees (config : LoaderConfig) (name : String) (exports : Lookup) (entry : String) :
    Agrees (run { config with strict := true } name exports entry)
      (run { config with strict := false } name exports entry) := by
  unfold run
  exact .bind (.refl _) fun found => .bind (.refl _) fun space =>
    .bind (commit_agrees _ space) fun sum => .refl _

end Job

/-! ### Unsupported relocations -/

namespace Relocation

variable {first : Nat} {base : Addr} {rule : Rule} {r : Relocation} {rs : List Relocation} {buf out old : Bytes}

/-- The types that are supported. -/
def IsSupported (r : Relocation) : Prop := r.type = 0 ∨ r.type = 2 ∨ r.type = 10

instance (r : Relocation) : Decidable r.IsSupported := inferInstanceAs (Decidable (_ ∨ _ ∨ _))

lemma isSupported_iff : r.IsSupported ↔ r.kind ≠ .unsupported := by
  unfold IsSupported kind
  split_ifs with h1 h2 h3 <;> simp [*]

lemma field_strict_iff : field base true rule r old = .ok out ↔
    field base false rule r old = .ok out ∧ r.IsSupported := by
  rw [isSupported_iff]
  unfold field
  rcases r.kind <;> simp

lemma link_strict_iff (hr : inside first buf.size r = true) : link first base true rule buf r = .ok out ↔
    link first base false rule buf r = .ok out ∧ r.IsSupported := by
  unfold link
  rw [if_pos hr, if_pos hr]
  constructor
  · intro h
    rcases hf : field base true rule r (buf.slice (r.start - first) 4) with e | b <;> rw [hf] at h
    · cases h
    obtain ⟨hlenient, hsupported⟩ := field_strict_iff.1 hf
    exact ⟨hlenient ▸ h, hsupported⟩
  · rintro ⟨h, hsupported⟩
    rcases hf : field base false rule r (buf.slice (r.start - first) 4) with e | b <;> rw [hf] at h
    · cases h
    rw [field_strict_iff.2 ⟨hf, hsupported⟩]
    exact h

/-- **Strict linking** succeeds where lenient linking does and every entry is supported. -/
lemma linkAll_strict_iff (hrs : ∀ r ∈ rs, inside first buf.size r = true) :
    linkAll first base true rule rs buf = .ok out ↔
      linkAll first base false rule rs buf = .ok out ∧ ∀ r ∈ rs, r.IsSupported := by
  induction rs generalizing buf with
  | nil => simp
  | cons r rs ih =>
    obtain ⟨hr, hrs⟩ := List.forall_mem_cons.1 hrs
    rw [linkAll_cons, linkAll_cons, List.forall_mem_cons]
    constructor
    · intro h
      obtain ⟨b, hb, h⟩ := ok_of_bind h
      obtain ⟨hlenient, hsupported⟩ := (link_strict_iff hr).1 hb
      obtain ⟨hrest, hall⟩ := (ih (by rwa [size_link hb])).1 h
      exact ⟨by rw [hlenient]; exact hrest, hsupported, hall⟩
    · rintro ⟨h, hsupported, hall⟩
      obtain ⟨b, hb, h⟩ := ok_of_bind h
      rw [(link_strict_iff hr).2 ⟨hb, hsupported⟩]
      exact (ih (by rwa [size_link hb])).2 ⟨h, hall⟩

end Relocation

namespace SectionInfo

variable {s : SectionInfo} {src : Source} {base : Addr} {rule : Relocation.Rule} {out : Bytes}

/-- A section whose fields lie in it is linked strictly if it is linked leniently and every entry is
supported. -/
lemma TableFits.links_strict_iff (h : s.TableFits src) : s.Links src base true rule 0 s.size out ↔
    s.Links src base false rule 0 s.size out ∧ ∀ r ∈ s.entries src.data, r.IsSupported := by
  have hfields : ∀ r ∈ s.entries src.data, r.stop ≤ s.size := by
    unfold entries
    rcases hr : s.relocations with _ | t
    · exact nofun
    · exact (h t hr).2
  unfold Links
  rw [and_assoc]
  refine and_congr_right fun hholds => Relocation.linkAll_strict_iff fun r hr => ?_
  have hstop := hfields r hr
  have hpos : 0 < r.stop := Nat.succ_pos _
  rw [Relocation.inside_iff, Bytes.size_slice_of_le (hholds (by omega))]
  omega

end SectionInfo

/-! ### Modules -/

namespace Object

/-- No relocation of a section with contents has an unsupported type. -/
def LinksFully (data : Bytes) : Prop :=
  ∀ (i : Nat) h, (rawHeaders data)[i]? = some h → h.IsFilled → ∀ r ∈ rawEntries data i, r.IsSupported

lemma Describes.linksFully_iff {config : LoaderConfig} {data : Bytes} {o : Object}
    (h : Describes config data o) :
    LinksFully data ↔ ∀ s ∈ o.sections.toList, s.header.IsFilled →
      ∀ r ∈ s.entries data, r.IsSupported := by
  have hentries : ∀ (i : Nat) s, o.sections[i]? = some s → s.header.IsFilled →
      s.entries data = rawEntries data i := by
    intro i s hi hfilled
    refine h.entries_eq i s hi ?_
    rw [h.cls_eq i s hi]
    rcases hfilled with hcls | hcls | hcls <;> rw [hcls] <;> rfl
  constructor
  · intro hall s hs hfilled
    obtain ⟨i, hi⟩ := List.mem_iff_getElem?.1 hs
    rw [Array.getElem?_toList] at hi
    rw [hentries i s hi hfilled]
    exact hall i s.header (h.header_eq i s hi) hfilled
  · intro hall i g hi hfilled
    have hlt : i < o.sections.size := by
      rw [h.size_eq]
      exact (List.getElem?_eq_some_iff.1 hi).1
    have hs : o.sections[i]? = some o.sections[i] := Array.getElem?_eq_getElem hlt
    obtain rfl := Option.some.inj (hi.symm.trans (h.header_eq i _ hs))
    rw [← hentries i _ hs hfilled]
    exact hall _ (Array.mem_toList_iff.2 (Array.getElem_mem hlt)) hfilled

lemma Describes.isFilled_iff {config : LoaderConfig} {data : Bytes} {o : Object} {s : SectionInfo}
    (h : Describes config data o) (hs : s ∈ o.sections.toList) :
    s.header.IsFilled ↔ s.cls.any SectionClass.isFlash ∨ s.cls = some .data := by
  obtain ⟨i, hi⟩ := List.mem_iff_getElem?.1 hs
  rw [Array.getElem?_toList] at hi
  rw [SectionHeader.IsFilled, ← h.cls_eq i s hi]
  rcases s.cls with _ | cls
  · simp
  · cases cls <;> simp [SectionClass.isFlash]

end Object

namespace Job.Plan

variable {config : LoaderConfig} {src : Source} {name entry : String} {exports : Lookup} {p : Plan}
  {c e e' : Context} {image : Image}

/-- Strictness has no say in the plan. -/
lemma Settled.withStrict (h : p.Settled config src c e) (b : Bool) :
    p.Settled { config with strict := b } src c e :=
  ⟨⟨h.inspected.parsed, h.inspected.symbols_eq, h.inspected.tables⟩, h.granted⟩

/-- Sections with contents are streamed or copied, and no others. -/
lemma Settled.isFilled_iff (h : p.Settled config src c e) {s : SectionInfo} :
    s ∈ p.object.sections.toList ∧ s.header.IsFilled ↔
      (∃ span, (s, span) ∈ p.space.flash) ∨ ∃ b ∈ p.space.data, ∃ offset, (s, offset) ∈ b.offsets := by
  have hflash : s ∈ p.object.inFlash ↔ ∃ span, (s, span) ∈ p.space.flash := by
    rw [← h.reserved.sections_eq, List.mem_map]
    simp
  have hdata : s ∈ p.object.ofClass .data ↔ ∃ b ∈ p.space.data, ∃ offset, (s, offset) ∈ b.offsets := by
    obtain ⟨pool, hgiven, -⟩ := h.reserved.data
    rcases hb : p.space.data with _ | b <;> rw [hb] at hgiven
    · rw [hgiven.1]
      simp
    · rw [← hgiven.2.1, List.mem_map]
      simp
  rw [← hflash, ← hdata, Object.inFlash, Object.ofClass, List.mem_filter, List.mem_filter, ← and_or_left]
  refine and_congr_right fun hs => (h.inspected.describes.isFilled_iff hs).trans ?_
  rw [beq_iff_eq]

/-- What is loaded strictly has no unsupported relocation. -/
lemma Loaded.linksFully (h : p.Settled config src c e)
    (hl : p.Loaded { config with strict := true } src name exports entry c e e' image) :
    Object.LinksFully src.data := by
  refine h.inspected.describes.linksFully_iff.2 fun s hs hfilled => ?_
  have hfits := h.inspected.tables s hs
  obtain ⟨span, hq⟩ | ⟨b, hb, offset, hq⟩ := h.isFilled_iff.1 ⟨hs, hfilled⟩
  · exact (hfits.links_strict_iff.1 (hl.committed.flash _ hq)).2
  · exact (hfits.links_strict_iff.1 (hl.committed.data b hb _ hq)).2

/-- What is loaded leniently can be loaded strictly if it has no unsupported relocation. -/
lemma Loaded.loadable_strict (h : p.Settled config src c e)
    (hl : p.Loaded { config with strict := false } src name exports entry c e e' image)
    (hfull : Object.LinksFully src.data) :
    p.Loadable { config with strict := true } src exports entry := by
  have hsupported := h.inspected.describes.linksFully_iff.1 hfull
  refine ⟨fun q hq => ⟨hl.committed.divisible q hq, ?_⟩, fun b hb q hq => ?_, _, hl.entered⟩
  · obtain ⟨hs, hfilled⟩ := h.isFilled_iff.2 (.inl ⟨q.2, hq⟩)
    exact ⟨_, (h.inspected.tables q.1 hs).links_strict_iff.2
      ⟨hl.committed.flash q hq, hsupported q.1 hs hfilled⟩⟩
  · obtain ⟨hs, hfilled⟩ := h.isFilled_iff.2 (.inr ⟨b, hb, q.2, hq⟩)
    exact ⟨_, (h.inspected.tables q.1 hs).links_strict_iff.2
      ⟨hl.committed.data b hb q hq, hsupported q.1 hs hfilled⟩⟩

end Job.Plan

/-! ### Loaders -/

namespace Loader

variable {name entry : String} {exports : Lookup} {s : State}

namespace State

/-- The same loader, strict or not. -/
def withStrict (s : State) (b : Bool) : State := { s with loader.config.strict := b }

end State

lemma Sized.withStrict (h : s.loader.Sized) (b : Bool) : (s.withStrict b).loader.Sized :=
  ⟨h.accepted, h.staging_size, h.raw_size⟩

/-- A load is a run of its job, after which the loader is as strict as before. -/
lemma load_withStrict (name entry : String) (exports : Lookup) (s : State) (b : Bool) :
    load name exports entry (s.withStrict b) =
      let o := Job.run { s.loader.config with strict := b } name exports entry (jobPart s).1
      ⟨o.result, ((jobPart s).2 o.state).withStrict b, o.events⟩ := rfl

/-- **Strictness.** With flash that works, a module is loaded strictly exactly if it is loaded leniently and
no relocation of its code, constants and variables has another type than the three that are supported. Both
loads then do the same, to the last byte of flash and pool. -/
theorem load_strict (hl : s.loader.Sized) (hsound : s.context.xip.Sound) (hunarmed : s.context.xip.Unarmed) :
    ((∃ image, (load name exports entry (s.withStrict true)).result = .ok image) ↔
      (∃ image, (load name exports entry (s.withStrict false)).result = .ok image) ∧
        Object.LinksFully s.source.data) ∧
    ∀ image s' es, load name exports entry (s.withStrict true) = ⟨.ok image, s', es⟩ →
      load name exports entry (s.withStrict false) = ⟨.ok image, s'.withStrict false, es⟩ := by
  have hsame : ∀ image s' es, load name exports entry (s.withStrict true) = ⟨.ok image, s', es⟩ →
      load name exports entry (s.withStrict false) = ⟨.ok image, s'.withStrict false, es⟩ := by
    intro image s' es hload
    have hagrees := Job.run_agrees s.loader.config name exports entry (jobPart s).1
    rw [load_withStrict] at hload ⊢
    rcases hrun : Job.run { s.loader.config with strict := true } name exports entry (jobPart s).1
      with ⟨r, j, es'⟩
    rw [hrun] at hload hagrees
    cases hload
    rw [hagrees image rfl]
    rfl
  have hends (b : Bool) := @load_sat name entry exports (s.withStrict b) (hl.withStrict b) hsound hunarmed
  refine ⟨⟨fun ⟨image, hok⟩ => ?_, fun ⟨⟨image, hok⟩, hfull⟩ => ?_⟩, hsame⟩
  · rcases hload : load name exports entry (s.withStrict true) with ⟨r, s', es⟩
    rw [hload] at hok
    cases hok
    obtain ⟨p, e, hp, hloaded⟩ := (hends true).of_ok hload
    refine ⟨⟨image, by rw [hsame image s' es hload]⟩, ?_⟩
    exact Job.Plan.Loaded.linksFully (hp.withStrict s.loader.config.strict) hloaded
  · obtain ⟨p, e, hp, hloaded⟩ := (hends false).of_result hok
    have hloadable := hloaded.loadable_strict (hp.withStrict s.loader.config.strict) hfull
    rcases hr : (load name exports entry (s.withStrict true)).result with err | image'
    · exact absurd ⟨p, e, hp.withStrict true, hloadable⟩ ((hends true).of_failure hr)
    · exact ⟨image', rfl⟩

/-- Two words of code, and a relocation of the first for symbol 1, of this type. -/
def relocatedObject (type : UInt32) : Bytes := Small.object
  (Small.ofWords [0, 0, 0, 0x100 ||| type, 0, 0, 0, 0, 1, 0, 0, 0x10012] ++
    (Bytes.ofText "\x00e\x00.text\x00").toList)
  [.replicate 10 0, [3, 1, 6, 0, 52, 8, 0, 0, 4, 0], [0, 9, 0, 0, 60, 8, 3, 1, 4, 8],
    [0, 2, 0, 0, 68, 32, 4, 1, 4, 16], [0, 3, 0, 0, 100, 9, 0, 0, 1, 0]]

/-- A small board that is about to load it. -/
def relocatedState (type : UInt32) : State := ⟨Small.loader 16, .ofBytes "m" (relocatedObject type), Small.context⟩

/-- An address is filled in by both loaders, and a relative address is left alone by the lenient one. -/
theorem load_strict_relocatedObject :
    (∃ image s' es, load "m" (fun _ => none) "e" ((relocatedState 2).withStrict true) = ⟨.ok image, s', es⟩ ∧
      load "m" (fun _ => none) "e" ((relocatedState 2).withStrict false) =
        ⟨.ok image, s'.withStrict false, es⟩) ∧
      Object.LinksFully (relocatedObject 2) ∧
      (∃ image, (load "m" (fun _ => none) "e" ((relocatedState 3).withStrict false)).result = .ok image) ∧
      ¬ Object.LinksFully (relocatedObject 3) := by
  have hsized : (Small.loader 16).Sized := Small.loader_sized (by decide) rfl
  obtain ⟨hiff₂, hsame₂⟩ := @load_strict "m" "e" (fun _ => none) (relocatedState 2) hsized
    (Small.region_sound _ _) rfl
  obtain ⟨hiff₃, -⟩ := @load_strict "m" "e" (fun _ => none) (relocatedState 3) hsized
    (Small.region_sound _ _) rfl
  obtain ⟨image, s', es, hload⟩ := exists_ok
    (o := load "m" (fun _ => none) "e" ((relocatedState 2).withStrict true)) (by decide +kernel)
  obtain ⟨image', t, es', hlenient⟩ := exists_ok
    (o := load "m" (fun _ => none) "e" ((relocatedState 3).withStrict false)) (by decide +kernel)
  have hfails : (load "m" (fun _ => none) "e" ((relocatedState 3).withStrict true)).result =
      .error (.unsupportedRelocation 3 0) := by decide +kernel
  refine ⟨⟨image, s', es, hload, hsame₂ image s' es hload⟩, (hiff₂.1 ⟨image, by rw [hload]⟩).2,
    ⟨image', by rw [hlenient]⟩, fun hfull => ?_⟩
  obtain ⟨_, hok⟩ := hiff₃.2 ⟨⟨image', by rw [hlenient]⟩, hfull⟩
  cases hfails.symm.trans hok

end Loader

end FlashLink
