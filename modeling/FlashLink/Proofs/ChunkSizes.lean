import FlashLink.Proofs.OneShot

/-!
What the sizes of the buffers decide. Two loaders with the same limits and different buffers place and
link a module alike whenever both load it. They need not both load it: a chunk has to end on a word
boundary that no field straddles, and a run of packed fields can leave none within a chunk's reach. That
is the only difference, so a module that loads with small chunks loads with large ones.
-/

namespace FlashLink

open Act Relocation Job

/-- The configurations differ at most in the sizes of the buffers. -/
def LoaderConfig.SameLimits (a b : LoaderConfig) : Prop :=
  b = { a with chunkSize := b.chunkSize, batchSize := b.batchSize, cacheSlots := b.cacheSlots }

/-- Larger chunks reach at least as far. -/
lemma Relocation.Divisible.mono {rs : List Relocation} {m n size start : Nat}
    (h : Divisible rs m size start) (hle : m ≤ n) : Divisible rs n size start := by
  intro a ha hcut hshort
  obtain ⟨b, hb, hlt, hreach⟩ := h a ha hcut (by omega)
  exact ⟨b, hb, hlt, by omega⟩

namespace Job.Plan

variable {a b : LoaderConfig} {src : Source} {name entry : String} {exports : Lookup} {p : Plan}
  {c e e₁ e₂ : Context} {i₁ i₂ image : Image}

/-- Buffers have no say in the plan. -/
lemma Settled.congr (h : p.Settled a src c e) (hab : a.SameLimits b) : p.Settled b src c e := by
  obtain ⟨⟨hparsed, hsymbols, htables⟩, hgranted⟩ := h
  have hparse : Object.parse b = Object.parse a := by
    rw [hab]
    rfl
  have htable : p.object.symbolTable b = p.object.symbolTable a := by
    rw [hab]
    rfl
  exact ⟨⟨hparse ▸ hparsed, htable ▸ hsymbols, htables⟩, hgranted⟩

/-- A plan that has been carried out with one chunk size can be with another, if every flash section
can be cut into chunks of that size. -/
lemma Loaded.loadable_iff (h : p.Loaded a src name exports entry c e e₁ image)
    (hab : a.SameLimits b) :
    p.Loadable b src exports entry ↔
      ∀ q ∈ p.space.flash, Divisible (q.1.entries src.data) b.chunkSize q.1.size 0 := by
  have hstrict : b.strict = a.strict := by rw [hab]
  constructor
  · exact fun hl q hq => (hl.streamable q hq).1
  · intro hdiv
    refine ⟨fun q hq => ⟨hdiv q hq, ?_⟩, fun b hb q hq => ?_, _, h.entered⟩
    · rw [hstrict]
      exact ⟨_, h.committed.flash q hq⟩
    · rw [hstrict]
      exact ⟨_, h.committed.data b hb q hq⟩

/-- The condition on the flash sections, seen from the image. -/
lemma Settled.divisible_iff (h : p.Settled a src c e) {addr : Addr} {chunk : Nat} :
    (∀ q ∈ p.space.flash, Divisible (q.1.entries src.data) chunk q.1.size 0) ↔
      ∀ q ∈ (p.image name addr).sections, q.cls.isFlash →
        Divisible (Object.rawEntries src.data q.index) chunk q.size 0 := by
  have hmem : ∀ q ∈ p.space.flash, q.1 ∈ p.object.sections.toList := fun q hq =>
    (List.mem_filter.1 (h.reserved.sections_eq ▸ List.mem_map_of_mem hq)).1
  constructor
  · intro hdiv q hq hcls
    obtain ⟨s, span, hspan, hqs, -⟩ := h.flash_section hq hcls
    rw [← (h.header_eq (hmem _ hspan) hqs).2, hqs.size_eq]
    exact hdiv _ hspan
  · intro hdiv q hq
    obtain ⟨r, hr, hcls, hrs, -⟩ : ∃ r ∈ (p.image name addr).sections, _ := h.section_of_span hq
    rw [(h.header_eq (hmem _ hq) hrs).2, ← hrs.size_eq]
    exact hdiv r hr hcls

/-- A plan that has been carried out twice, from one context, left the same image and the same
sections behind. -/
lemma Settled.loaded_unique (h : p.Settled a src c e) (hsound : c.xip.Sound)
    (hab : a.SameLimits b) (h₁ : p.Loaded a src name exports entry c e e₁ i₁)
    (h₂ : p.Loaded b src name exports entry c e e₂ i₂) :
    i₂ = i₁ ∧ ∀ q ∈ i₁.sections, ∃ offset bytes,
      StoredAt c e₁ q offset bytes ∧ StoredAt c e₂ q offset bytes := by
  have hstrict : b.strict = a.strict := by rw [hab]
  have hentry : i₂.entry = i₁.entry := by simpa [h₁.entered] using h₂.entered.symm
  have himage : i₂ = i₁ := by rw [h₂.image_eq, h₁.image_eq, hentry]
  refine ⟨himage, fun q hq => ?_⟩
  rw [h₁.image_eq] at hq
  have hlinked := h₂.committed
  rw [hstrict] at hlinked
  obtain ⟨hdatas, hbsss, -⟩ := h.reserved.housed
  rcases hcls : q.cls.isFlash with _ | _
  · obtain ⟨s, d, offset, hoffset, hqs, ha, ⟨-, hd⟩ | ⟨-, hd⟩⟩ := h.block_section hq hcls
    · have hsame := (h₁.committed.data d hd _ hoffset).unique (hlinked.data d hd _ hoffset)
      have hs₁ := h.stored_block h₁.committed.toWrote (hdatas d hd) hoffset hqs ha hcls
      have hs₂ := h.stored_block hlinked.toWrote (hdatas d hd) hoffset hqs ha hcls
      rw [← hsame] at hs₂
      exact ⟨_, _, hs₁, hs₂⟩
    · have hlaid := (hbsss d hd).laid.mem hoffset
      have hs₁ := h.stored_block h₁.committed.toWrote (hbsss d hd) hoffset hqs ha hcls
      have hs₂ := h.stored_block hlinked.toWrote (hbsss d hd) hoffset hqs ha hcls
      rw [Bytes.slice_eq_zeros fun i hi hlt => h₁.committed.bss d hd i (by omega) (by omega)] at hs₁
      rw [Bytes.slice_eq_zeros fun i hi hlt => hlinked.bss d hd i (by omega) (by omega)] at hs₂
      exact ⟨_, _, hs₁, hs₂⟩
  · obtain ⟨s, span, hspan, hqs, ha⟩ := h.flash_section hq hcls
    have hsame := (h₁.committed.flash _ hspan).unique (hlinked.flash _ hspan)
    have hs₁ := h.stored_flash h₁.committed.toWrote hsound hspan hqs ha hcls
    have hs₂ := h.stored_flash hlinked.toWrote hsound hspan hqs ha hcls
    rw [← hsame] at hs₂
    exact ⟨_, _, hs₁, hs₂⟩

end Job.Plan

namespace Loader

variable {s t s' : State} {name entry : String} {exports : Lookup} {image : Image} {es : List Event}

/-- **Buffer sizes** decide one thing only. A module that loads with some buffers loads with others of
any size exactly if its flash sections can be cut into chunks of that size, and then with the same image
and the same sections. -/
theorem load_buffer_sizes (hs : s.loader.Sized) (ht : t.loader.Sized)
    (hlimits : s.loader.config.SameLimits t.loader.config) (hsource : t.source = s.source)
    (hcontext : t.context = s.context) (hsound : s.context.xip.Sound)
    (hunarmed : s.context.xip.Unarmed) (hload : load name exports entry s = ⟨.ok image, s', es⟩) :
    ((∃ image', (load name exports entry t).result = .ok image') ↔
      ∀ q ∈ image.sections, q.cls.isFlash →
        Divisible (Object.rawEntries s.source.data q.index) t.loader.config.chunkSize q.size 0) ∧
    ∀ image' t' es', load name exports entry t = ⟨.ok image', t', es'⟩ →
      image' = image ∧ ∀ q ∈ image.sections, ∃ offset bytes,
        StoredAt s.context s'.context q offset bytes ∧
        StoredAt s.context t'.context q offset bytes := by
  obtain ⟨p, e, hp, hloaded⟩ := (load_sat hs hsound hunarmed).of_ok hload
  have hsat : Sat (load name exports entry) t _ _ :=
    load_sat ht (hcontext ▸ hsound) (hcontext ▸ hunarmed)
  rw [hsource, hcontext] at hsat
  have hp' := hp.congr hlimits
  have hcondition := (hloaded.loadable_iff hlimits).trans
    (@Plan.Settled.divisible_iff _ _ name _ _ _ hp image.entry _)
  rw [← hloaded.image_eq] at hcondition
  rw [← hcondition]
  constructor
  · constructor
    · rintro ⟨image', hok⟩
      obtain ⟨p', e', hp₂, hloaded₂⟩ := hsat.of_result hok
      obtain ⟨rfl, rfl⟩ := hp₂.unique hp'
      exact (hloaded.loadable_iff hlimits).2 hloaded₂.committed.divisible
    · intro hloadable
      rcases hr : (load name exports entry t).result with err | image'
      · exact absurd ⟨p, e, hp', hloadable⟩ (hsat.of_failure hr)
      · exact ⟨image', rfl⟩
  · intro image' t' es' hload'
    obtain ⟨p', e', hp₂, hloaded₂⟩ := hsat.of_ok hload'
    obtain ⟨rfl, rfl⟩ := hp₂.unique hp'
    exact hp.loaded_unique hsound hlimits hloaded hloaded₂

/-- Code that ends in five addresses, packed two bytes off the word boundaries. -/
def packedObject : Bytes := Small.object
  (Small.ofWords [0x4770, 0, 0, 0, 0, 0, 2, 0x102, 6, 0x102, 10, 0x102, 14, 0x102, 18, 0x102,
    0, 0, 0, 0, 1, 0, 0, 0x10012] ++ (Bytes.ofText "\x00e\x00.text\x00").toList)
  [.replicate 10 0, [3, 1, 6, 0, 52, 24, 0, 0, 4, 0], [0, 9, 0, 0, 76, 40, 3, 1, 4, 8],
    [0, 2, 0, 0, 116, 32, 4, 1, 4, 16], [0, 3, 0, 0, 148, 9, 0, 0, 1, 0]]

/-- It loads with chunks of 32 bytes. With chunks of 16 its fields count as overlapping. -/
theorem load_buffer_sizes_packedObject :
    ∃ image s' es, Small.load 32 packedObject Small.context = ⟨.ok image, s', es⟩ ∧
      (Small.load 16 packedObject Small.context).result = .error (.parse (.straddled 4)) ∧
      ¬ ∀ q ∈ image.sections, q.cls.isFlash →
        Divisible (Object.rawEntries packedObject q.index) 16 q.size 0 := by
  obtain ⟨image, s', es, hload⟩ := exists_ok
    (o := Small.load 32 packedObject Small.context) (by decide +kernel)
  have hfails : (Small.load 16 packedObject Small.context).result =
      .error (.parse (.straddled 4)) := by decide +kernel
  have hsizes := load_buffer_sizes
    (s := ⟨Small.loader 32, .ofBytes "m" packedObject, Small.context⟩)
    (t := ⟨Small.loader 16, .ofBytes "m" packedObject, Small.context⟩)
    (Small.loader_sized (by decide) rfl) (Small.loader_sized (by decide) rfl) rfl rfl rfl
    (Small.region_sound _ _) rfl hload
  refine ⟨image, s', es, hload, hfails, fun hdivisible => ?_⟩
  obtain ⟨image', hok⟩ := hsizes.1.2 hdivisible
  cases hfails.symm.trans hok

/-- A module that loads also loads with larger chunks. -/
theorem load_larger_chunks (hs : s.loader.Sized) (ht : t.loader.Sized)
    (hlimits : s.loader.config.SameLimits t.loader.config) (hsource : t.source = s.source)
    (hcontext : t.context = s.context) (hsound : s.context.xip.Sound)
    (hunarmed : s.context.xip.Unarmed)
    (hlarger : s.loader.config.chunkSize ≤ t.loader.config.chunkSize)
    (hload : load name exports entry s = ⟨.ok image, s', es⟩) :
    (load name exports entry t).result = .ok image := by
  obtain ⟨p, e, hp, hloaded⟩ := (load_sat hs hsound hunarmed).of_ok hload
  have hsat : Sat (load name exports entry) t _ _ :=
    load_sat ht (hcontext ▸ hsound) (hcontext ▸ hunarmed)
  rw [hsource, hcontext] at hsat
  have hp' := hp.congr hlimits
  have hloadable := (hloaded.loadable_iff hlimits).2 fun q hq =>
    (hloaded.committed.divisible q hq).mono hlarger
  rcases hr : (load name exports entry t).result with err | image'
  · exact absurd ⟨p, e, hp', hloadable⟩ (hsat.of_failure hr)
  · obtain ⟨p', e', hp₂, hloaded₂⟩ := hsat.of_result hr
    obtain ⟨rfl, rfl⟩ := hp₂.unique hp'
    rw [(hp.loaded_unique hsound hlimits hloaded hloaded₂).1]

end Loader

end FlashLink
