import FlashLink.Proofs.Placing

/-!
Loading against a one-shot linker. The reference applies every entry of a table, in turn, to a whole
section in memory, with a resolver that remembers nothing. What loading stores of a section, chunk by
chunk and batch by batch through a symbol cache, is what the reference makes of the section's bytes.
-/

namespace FlashLink

open Act

/-! ### The reference -/

namespace Relocation

/-- Applies every entry, in turn, to a whole section. -/
def applyEach (base : Addr) (strict : Bool) (rule : Rule) : List Relocation → Act (Bytes × Unit) Unit
  | [] => return ()
  | r :: rs => do
    let _ ← r.apply 0 base strict fun i => Act.ofExcept (rule i)
    applyEach base strict rule rs

/-- The bytes of a whole section, linked at once. -/
def oneShot (base : Addr) (strict : Bool) (rule : Rule) (rs : List Relocation) (file : Bytes) :
    Except Error Bytes :=
  match applyEach base strict rule rs (file, ()) with
  | ⟨.ok _, (out, _), _⟩ => .ok out
  | ⟨.error e, _, _⟩ => .error e

variable {base : Addr} {strict : Bool} {rule : Rule}

lemma applyEach_sat {rs : List Relocation} {file : Bytes} (h : ∀ r ∈ rs, r.stop ≤ file.size) :
    Sat (applyEach base strict rule rs) (file, ())
      (fun _ t => linkAll 0 base strict rule rs file = .ok t.1)
      (fun e _ => linkAll 0 base strict rule rs file = .error e) := by
  induction rs generalizing file with
  | nil => exact rfl
  | cons r rs ih =>
    have hin : inside 0 file.size r := inside_iff.2 ⟨Nat.zero_le _, by simpa using h r (.head _)⟩
    unfold applyEach
    rw [linkAll_cons]
    have hrule : ∀ i s, True → Yields (Act.ofExcept (rule i)) s (rule i) fun _ : Unit => True :=
      fun i s _ => sat_ofExcept (fun _ h => ⟨h, trivial⟩) fun _ h => ⟨h, trivial⟩
    refine Sat.bind (apply_sat hrule trivial hin) ?_ ?_
    · rintro done ⟨b, _⟩ ⟨hb, -⟩
      rw [hb]
      exact ih fun q hq => (size_link hb).symm ▸ h q (.tail _ hq)
    · rintro e _ ⟨he, -⟩
      rw [he]
      rfl

/-- Nothing is left out if every field lies in the section. -/
lemma oneShot_eq {rs : List Relocation} {file : Bytes} (h : ∀ r ∈ rs, r.stop ≤ file.size) :
    oneShot base strict rule rs file = linkAll 0 base strict rule rs file := by
  have hsat : Sat (applyEach base strict rule rs) (file, ()) _ _ := applyEach_sat h
  unfold Sat at hsat
  unfold oneShot
  generalize applyEach base strict rule rs (file, ()) = x at hsat ⊢
  rcases x with ⟨_ | _, ⟨out, _⟩, _⟩
  · exact hsat.symm
  · exact hsat.symm

end Relocation

/-- The section asks for a place: it is allocated, not empty, and of a type that gets one. -/
def SectionHeader.IsPlaced (h : SectionHeader) : Prop :=
  h.isAllocated ∧ h.size ≠ 0 ∧ h.type ∈ [progbits, initArray, finiArray, preinitArray, nobits]

instance (h : SectionHeader) : Decidable h.IsPlaced := inferInstanceAs (Decidable (_ ∧ _ ∧ _))

lemma SectionHeader.isSome_class? (h : SectionHeader) : h.class?.isSome ↔ h.IsPlaced := by
  unfold class? IsPlaced
  simp only [List.mem_cons, List.not_mem_nil, or_false]
  rcases h.isAllocated
  · simp
  by_cases hsize : h.size = 0
  · simp [hsize]
  · split_ifs <;> simp_all <;> tauto

/-- The symbol table as it stands in the object, with the names cut off at the limit. -/
def Object.rawSymbols (config : LoaderConfig) (data : Bytes) : Option SymbolTable := do
  let symtab ← (rawHeaders data).find? (·.type == SectionHeader.symtab)
  let strtab ← (rawHeaders data)[symtab.link.toNat]?
  return ⟨symtab.offset, symtab.size / Symbol.width,
    data.slice strtab.offset (min strtab.size config.maxStrings)⟩

/-- The placed section is at an offset of the flash region or of the pool that has been allocated
between the two contexts, and its bytes are `b`. -/
def StoredAt (c c' : Context) (q : PlacedSection) (offset : Nat) (b : Bytes) : Prop :=
  if q.cls.isFlash then
    c.xip.nextFree ≤ offset ∧ offset + q.size ≤ c'.xip.nextFree ∧
      q.addr = c'.xip.address offset ∧ c'.xip.bytes offset q.size = b
  else
    c.pool.used ≤ offset ∧ offset + q.size ≤ c'.pool.used ∧
      q.addr = c'.pool.base + UInt32.ofNat offset ∧ c'.pool.mem.slice offset q.size = b

/-- The image, and the context it left behind, are those of a one-shot linker. -/
structure OneShot (config : LoaderConfig) (src : Source) (scope : Scope) (entry : String)
    (c c' : Context) (image : Image) : Prop where
  /-- Every section that asks for a place has one, and no other, in the order of the headers. -/
  indices : image.sections.map (·.index) =
    ((Object.rawHeaders src.data).zipIdx.filter fun h => h.1.IsPlaced).map (·.2)
  headers : ∀ q ∈ image.sections, ∃ h, (Object.rawHeaders src.data)[q.index]? = some h ∧
    h.class? = some q.cls ∧ h.size = q.size ∧
    Object.sectionName (Object.rawNames config src.data) q.index h = .ok q.name
  /-- Sections with contents are linked as a whole. -/
  linked : ∀ q ∈ image.sections, q.cls ≠ .bss →
    ∃ h, (Object.rawHeaders src.data)[q.index]? = some h ∧ h.offset + h.size ≤ src.data.size ∧
      ∃ offset out, Relocation.oneShot q.addr config.strict (scope.rule src)
        (Object.rawEntries src.data q.index) (src.data.slice h.offset h.size) = .ok out ∧
        StoredAt c c' q offset out
  cleared : ∀ q ∈ image.sections, q.cls = .bss → ∃ offset, StoredAt c c' q offset (.zeros q.size)
  /-- The module is entered at the first global, defined symbol of the name. -/
  entered : ∃ i s base, scope.symbols.IsFirst src entry i s ∧
    (if s.isAbsolute then some 0 else scope.placement.get? s.home) = some base ∧
    image.entry = if s.isFunction then (base + s.value) ||| 1 else base + s.value

namespace Job.Plan

variable {config : LoaderConfig} {src : Source} {name entry : String} {exports : Lookup} {p : Plan}
  {c e e' : Context} {image : Image}

lemma Settled.rawSymbols (h : p.Settled config src c e) :
    Object.rawSymbols config src.data = some p.symbols := by
  obtain ⟨-, ht⟩ := (Object.symbolTable_sat (.refl src) p.object config).of_result
    h.inspected.symbols_eq
  have hd := h.inspected.describes
  rw [Object.rawSymbols, hd.symtab_eq, Option.bind_eq_bind, Option.bind_some, hd.strtab_eq, ht]
  rfl

lemma Settled.indices_eq (h : p.Settled config src c e) {a : Addr} :
    (p.image name a).sections.map (·.index) =
      ((Object.rawHeaders src.data).zipIdx.filter fun h => h.1.IsPlaced).map (·.2) := by
  have hd := h.inspected.describes
  -- the parsed sections are the raw headers with their indices
  have hraw : p.object.sections.toList.map (fun s => (s.header, s.index)) =
      (Object.rawHeaders src.data).zipIdx := by
    refine List.ext_getElem? fun i => ?_
    rw [List.getElem?_map, Array.getElem?_toList, List.getElem?_zipIdx]
    rcases hs : p.object.sections[i]? with _ | s
    · rw [Array.getElem?_eq_none_iff, hd.size_eq] at hs
      rw [List.getElem?_eq_none hs]
      rfl
    · rw [hd.header_eq i s hs, ← hd.index_eq i s hs]
      simp
  rw [map_index h.sections_forall, ← hraw, List.filter_map, List.map_map]
  refine congrArg (List.map _) (List.filter_congr fun s hs => ?_)
  rw [hd.cls_eq s.index s (index_lt hd hs).2, Bool.eq_iff_iff, SectionHeader.isSome_class?]
  simp

/-- The section of the object that a placed section is. -/
lemma Settled.header_eq (h : p.Settled config src c e) {q : PlacedSection} {s : SectionInfo}
    (hs : s ∈ p.object.sections.toList) (hqs : PlacedAs q s) :
    (Object.rawHeaders src.data)[q.index]? = some s.header ∧
      s.entries src.data = Object.rawEntries src.data q.index := by
  have hd := h.inspected.describes
  have hi := (index_lt hd hs).2
  rw [hqs.index_eq]
  exact ⟨hd.header_eq _ s hi, hd.entries_eq _ s hi (by rw [hqs.mem_cls]; rfl)⟩

/-- What is linked as a whole is what the reference makes of it. -/
lemma Settled.oneShot_eq (h : p.Settled config src c e) {q : PlacedSection} {s : SectionInfo}
    {out : Bytes} (hs : s ∈ p.object.sections.toList) (hqs : PlacedAs q s)
    (hlinks : s.Links src q.addr config.strict ((p.scope exports).rule src) 0 s.size out) :
    s.header.offset + s.header.size ≤ src.data.size ∧
      Relocation.oneShot q.addr config.strict ((p.scope exports).rule src)
        (Object.rawEntries src.data q.index) (src.data.slice s.header.offset s.header.size) =
          .ok out := by
  have hd := h.inspected.describes
  have hpos := hd.size_pos hs (by rw [hqs.mem_cls]; rfl)
  obtain ⟨hholds, hlink⟩ := hlinks
  have hfile : s.header.offset + s.header.size ≤ src.data.size := hholds hpos
  refine ⟨hfile, ?_⟩
  rw [← (h.header_eq hs hqs).2, Relocation.oneShot_eq]
  · exact hlink
  · intro r hr
    rw [Bytes.size_slice_of_le hfile]
    rcases ht : s.relocations with _ | t
    · rw [SectionInfo.entries_none ht] at hr
      cases hr
    · rw [SectionInfo.entries_some ht] at hr
      exact (h.inspected.tables s hs t ht).2 r hr

/-- The bytes of a span, after committing. -/
lemma Settled.stored_flash (h : p.Settled config src c e) {k : Nat} (hc : Wrote p.space k e e')
    (hsound : c.xip.Sound) {q : PlacedSection} {s : SectionInfo} {span : FlashSpan} (hspan : (s, span) ∈ p.space.flash)
    (hqs : PlacedAs q s) (ha : q.addr = span.addr) (hcls : q.cls.isFlash) :
    StoredAt c e' q span.offset (e'.xip.bytes span.offset s.size) := by
  obtain ⟨h1, h2, h3⟩ := h.reserved.spans.mem hspan
  have hlen : s.size ≤ span.len := by
    rw [h3]
    exact le_alignUp _ hsound.sector_pos
  rw [StoredAt, if_pos hcls]
  refine ⟨h1, ?_, ?_, by rw [hqs.size_eq]⟩
  · rw [hc.xip.free_eq, hqs.size_eq]
    omega
  · rw [hc.xip.address_eq, h.reserved.address_eq, ha, h3]

/-- The bytes of a place in a block, after committing. -/
lemma Settled.stored_block (h : p.Settled config src c e) {k : Nat} (hc : Wrote p.space k e e')
    {q : PlacedSection} {s : SectionInfo} {sections : List SectionInfo} {b : Block} {offset : Nat}
    (hb : Housed c e sections b) (hoffset : (s, offset) ∈ b.offsets) (hqs : PlacedAs q s)
    (ha : q.addr = Block.address b.ram offset) (hcls : q.cls.isFlash = false) :
    StoredAt c e' q (b.ram.offset + offset)
      (e'.pool.mem.slice (b.ram.offset + offset) s.size) := by
  have hlaid := hb.laid.mem hoffset
  have hused := hb.used_le
  have hend := hb.le_used
  rw [StoredAt, if_neg (by simp [hcls])]
  refine ⟨by omega, ?_, ?_, by rw [hqs.size_eq]⟩
  · rw [hc.pool.used_eq, hqs.size_eq]
    omega
  · rw [hc.pool.base_eq, h.reserved.base_eq, ha, Block.address, hb.addr_eq, UInt32.ofNat_add, UInt32.add_assoc]

variable {a : Addr} {q : PlacedSection} {chunk : Nat}

/-- A placed section is as its header says. -/
lemma Settled.header_matches (h : p.Settled config src c e) (hq : q ∈ (p.image name a).sections) :
    ∃ header, (Object.rawHeaders src.data)[q.index]? = some header ∧ header.class? = some q.cls ∧
      header.size = q.size ∧
      Object.sectionName (Object.rawNames config src.data) q.index header = .ok q.name := by
  have hd := h.inspected.describes
  obtain ⟨t, ht, hqt, -⟩ := mem_placedSections.1 hq
  have hi := (index_lt hd ht).2
  refine ⟨t.header, (h.header_eq ht hqt).1, ?_, hqt.size_eq.symm, ?_⟩
  · rw [← hd.cls_eq _ t hi, hqt.mem_cls]
  · rw [hqt.index_eq, hqt.name_eq]
    exact hd.name_eq _ t hi

/-- A section with contents is stored as the reference links it. -/
lemma Settled.stored_linked (h : p.Settled config src c e) (hsound : c.xip.Sound)
    (hc : Committed chunk (p.scope exports) src config.strict p.space c e e')
    (hq : q ∈ (p.image name a).sections) (hbss : q.cls ≠ .bss) :
    ∃ header, (Object.rawHeaders src.data)[q.index]? = some header ∧
      header.offset + header.size ≤ src.data.size ∧ ∃ offset out,
        Relocation.oneShot q.addr config.strict ((p.scope exports).rule src)
          (Object.rawEntries src.data q.index) (src.data.slice header.offset header.size) = .ok out ∧
        StoredAt c e' q offset out := by
  obtain ⟨hdatas, -, -⟩ := h.reserved.housed
  rcases hcls : q.cls.isFlash with _ | _
  · obtain ⟨t, b, offset, hoffset, hqt, ha, ⟨-, hb⟩ | ⟨hno, -⟩⟩ := h.block_section hq hcls
    swap
    · exact absurd hno hbss
    have ht : t ∈ p.object.sections.toList := (List.mem_filter.1
      ((hdatas b hb).sections_eq ▸ List.mem_map_of_mem hoffset)).1
    have hlinks := hc.data b hb _ hoffset
    rw [← ha] at hlinks
    obtain ⟨hfile, hone⟩ := h.oneShot_eq ht hqt hlinks
    exact ⟨t.header, (h.header_eq ht hqt).1, hfile, _, _, hone,
      h.stored_block hc.toWrote (hdatas b hb) hoffset hqt ha hcls⟩
  · obtain ⟨t, span, hspan, hqt, ha⟩ := h.flash_section hq hcls
    have ht : t ∈ p.object.sections.toList := (List.mem_filter.1
      (h.reserved.sections_eq ▸ List.mem_map_of_mem hspan)).1
    have hlinks := hc.flash _ hspan
    rw [← ha] at hlinks
    obtain ⟨hfile, hone⟩ := h.oneShot_eq ht hqt hlinks
    exact ⟨t.header, (h.header_eq ht hqt).1, hfile, _, _, hone,
      h.stored_flash hc.toWrote hsound hspan hqt ha hcls⟩

/-- A section without contents is cleared. -/
lemma Settled.stored_cleared (h : p.Settled config src c e)
    (hc : Committed chunk (p.scope exports) src config.strict p.space c e e')
    (hq : q ∈ (p.image name a).sections) (hbss : q.cls = .bss) :
    ∃ offset, StoredAt c e' q offset (.zeros q.size) := by
  obtain ⟨-, hbsss, -⟩ := h.reserved.housed
  have hcls : q.cls.isFlash = false := by rw [hbss]; rfl
  obtain ⟨t, b, offset, hoffset, hqt, ha, ⟨hno, -⟩ | ⟨-, hb⟩⟩ := h.block_section hq hcls
  · rw [hbss] at hno
    cases hno
  have hlaid := (hbsss b hb).laid.mem hoffset
  have hzeros : e'.pool.mem.slice (b.ram.offset + offset) t.size = .zeros q.size := by
    rw [hqt.size_eq]
    exact Bytes.slice_eq_zeros fun i h1 h2 => hc.bss b hb i (by omega) (by omega)
  rw [← hzeros]
  exact ⟨_, h.stored_block hc.toWrote (hbsss b hb) hoffset hqt ha hcls⟩

end Job.Plan

namespace Loader

open Job

variable {s s' : State} {name entry : String} {exports : Lookup} {image : Image}
  {es : List Event}

/-- **Soundness** of loading: whatever the object, the limits and the sizes of the buffers, a load that
succeeds did what a one-shot linker does. -/
theorem load_oneShot (hl : s.loader.Sized) (hsound : s.context.xip.Sound)
    (hunarmed : s.context.xip.Unarmed) (hload : load name exports entry s = ⟨.ok image, s', es⟩) :
    ∃ symbols, Object.rawSymbols s.loader.config s.source.data = some symbols ∧
      OneShot s.loader.config s.source
        ⟨symbols, image.placement (Object.rawHeaders s.source.data).length, exports⟩ entry s.context
        s'.context image := by
  obtain ⟨p, e, hp, hcommitted, hentered, himage⟩ :=
    (load_sat hl hsound hunarmed).of_ok hload
  refine ⟨p.symbols, hp.rawSymbols, ?_⟩
  have hd := hp.inspected.describes
  have hscope : (⟨p.symbols, image.placement (Object.rawHeaders s.source.data).length, exports⟩ :
      Scope) = p.scope exports := by
    rw [himage, ← hd.size_eq, hp.placement_eq]
    rfl
  rw [hscope]
  rw [himage]
  refine ⟨hp.indices_eq, fun q hq => hp.header_matches hq,
    fun q hq hbss => hp.stored_linked hsound hcommitted hq hbss,
    fun q hq hbss => hp.stored_cleared hcommitted hq hbss, ?_⟩
  obtain ⟨-, i, sym, base, hfirst, hbase, hentry⟩ :=
    ((p.scope exports).entryAddress_sat entry (.refl s.source)).of_result hentered
  exact ⟨i, sym, base, hfirst, hbase, hentry⟩

/-- Code that ends in the address of a variable, the variable, and a word to clear. -/
def linkedObject : Bytes := Small.object
  (Small.ofWords [0xbf004770, 0, 42, 4, 0x202, 0, 0, 0, 0, 1, 0, 0, 0x10012, 3, 0, 0, 0x20011] ++
    (Bytes.ofText "\x00e\x00v\x00.text\x00.data\x00.bss\x00").toList)
  [.replicate 10 0, [5, 1, 6, 0, 52, 8, 0, 0, 4, 0], [11, 1, 3, 0, 60, 4, 0, 0, 4, 0],
    [17, 8, 3, 0, 64, 4, 0, 0, 4, 0], [0, 9, 0, 0, 64, 8, 5, 1, 4, 8],
    [0, 2, 0, 0, 72, 48, 6, 1, 4, 16], [0, 3, 0, 0, 120, 22, 0, 0, 1, 0]]

theorem load_oneShot_linkedObject :
    ∃ image s' es, Small.load 16 linkedObject Small.context = ⟨.ok image, s', es⟩ ∧
      ∃ symbols, Object.rawSymbols (Small.loader 16).config linkedObject = some symbols ∧
        OneShot (Small.loader 16).config (.ofBytes "m" linkedObject)
          ⟨symbols, image.placement (Object.rawHeaders linkedObject).length, fun _ => none⟩ "e"
          Small.context s'.context image := by
  obtain ⟨image, s', es, hload⟩ := exists_ok
    (o := Small.load 16 linkedObject Small.context) (by decide +kernel)
  exact ⟨image, s', es, hload,
    load_oneShot (s := ⟨Small.loader 16, .ofBytes "m" linkedObject, Small.context⟩)
      (Small.loader_sized (by decide) rfl) (Small.region_sound _ _) rfl hload⟩

end Loader

end FlashLink
