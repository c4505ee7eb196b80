import FlashLink.Proofs.Loading

/-!
Where the sections of a loaded module are. Every section with a class gets exactly one address, that
of its flash span or of its place in a block, and the image lists those sections in the order of their
headers. So the image alone determines what symbols mean.
-/

namespace FlashLink

open Act Relocation

namespace Placement

lemma size_setAll (p : Placement) (spots : List (Nat × Addr)) :
    (p.setAll spots).bases.size = p.bases.size := by
  induction spots generalizing p with
  | nil => rfl
  | cons q rest ih => exact (ih (p.set q.1 q.2)).trans (by simp [set])

/-- Placements of one size that place alike are the same. -/
lemma ext_get {p q : Placement} (hsize : p.bases.size = q.bases.size)
    (h : ∀ i, p.get? i = q.get? i) : p = q := by
  obtain ⟨a⟩ := p
  obtain ⟨b⟩ := q
  congr 1
  refine Array.ext hsize fun i hi hi' => ?_
  have := h i
  rw [get?, get?, Array.getD_eq_getD_getElem?, Array.getD_eq_getD_getElem?,
    Array.getElem?_eq_getElem hi, Array.getElem?_eq_getElem hi'] at this
  exact this

end Placement

/-- The placement that an image describes, of a module with `count` section headers. -/
def Image.placement (i : Image) (count : Nat) : Placement :=
  (Placement.create count).setAll (i.sections.map fun s => (s.index, s.addr))

namespace Job

/-! ### Spots -/

/-- Every section of the reservation, and its address. -/
def Reservation.spots (r : Reservation) : List (Nat × Addr) :=
  r.flash.map (fun q => (q.1.index, q.2.addr)) ++
    (((r.data.map Block.spots).getD []) ++ ((r.bss.map Block.spots).getD []))

lemma Reservation.placement_eq (r : Reservation) (o : Object) :
    r.placement o = (Placement.create o.sections.size).setAll r.spots := by
  have hblock : ∀ (b : Option Block) (p : Placement),
      (b.map (·.place p)).getD p = p.setAll ((b.map Block.spots).getD []) := by
    rintro (_ | b) p
    · rfl
    · exact b.place_eq p
  unfold Reservation.placement
  dsimp only
  rw [hblock, hblock, Reservation.spots, Placement.setAll, Placement.setAll, Placement.setAll,
    List.foldl_append, List.foldl_append, List.foldl_map]

/-- The sections that get a place, by class. -/
def placedOf (o : Object) : List SectionInfo := o.inFlash ++ (o.ofClass .data ++ o.ofClass .bss)

lemma mem_placedOf {o : Object} {s : SectionInfo} :
    s ∈ placedOf o ↔ s ∈ o.sections.toList ∧ s.cls.isSome := by
  rw [placedOf, List.mem_append, List.mem_append, Object.inFlash, Object.ofClass, Object.ofClass,
    List.mem_filter, List.mem_filter, List.mem_filter]
  rcases s.cls with _ | _ | _ | _ | _ <;> simp [SectionClass.isFlash]

variable {config : LoaderConfig} {src : Source} {o : Object} {space : Reservation} {c e : Context}

lemma given_mem {sections : List SectionInfo} {p p' : Pool} {b : Option Block} {s : SectionInfo}
    (h : Block.Given sections p p' b) (hs : s ∈ sections) :
    ∃ b', b = some b' ∧ ∃ offset, (s, offset) ∈ b'.offsets := by
  rcases b with _ | b
  · rw [h.1] at hs
    cases hs
  · obtain ⟨⟨s, offset⟩, hq, rfl⟩ := List.mem_map.1 (h.2.1 ▸ hs)
    exact ⟨b, rfl, offset, hq⟩

/-- The sections of one block, and none for no block. -/
lemma given_sections {sections : List SectionInfo} {p p' : Pool} {b : Option Block}
    (h : Block.Given sections p p' b) :
    ((b.map Block.spots).getD []).map (·.1) = sections.map (·.index) := by
  rcases b with _ | b
  · rw [h.1]
    rfl
  · rw [← h.2.1, Option.map_some, Option.getD_some, Block.spots, List.map_map, List.map_map]
    rfl

lemma Reserved.spots_indices (h : Reserved c o space e) :
    space.spots.map (·.1) = (placedOf o).map (·.index) := by
  obtain ⟨p, hdata, hbss⟩ := h.data
  rw [Reservation.spots, List.map_append, List.map_append, given_sections hdata,
    given_sections hbss, placedOf, List.map_append, List.map_append, ← h.sections_eq, List.map_map,
    List.map_map]
  rfl

/-! ### Indices -/

lemma index_lt {data : Bytes} (h : Object.Describes config data o) {s : SectionInfo}
    (hs : s ∈ o.sections.toList) : s.index < o.sections.size ∧ o.sections[s.index]? = some s := by
  obtain ⟨i, hi⟩ := List.mem_iff_getElem?.1 hs
  rw [Array.getElem?_toList] at hi
  obtain ⟨hlt, -⟩ := Array.getElem?_eq_some_iff.1 hi
  rw [h.index_eq i s hi]
  exact ⟨hlt, hi⟩

lemma index_inj {data : Bytes} (h : Object.Describes config data o) {s t : SectionInfo}
    (hs : s ∈ o.sections.toList) (ht : t ∈ o.sections.toList) (heq : s.index = t.index) : s = t := by
  have := (index_lt h hs).2
  rw [heq, (index_lt h ht).2] at this
  cases this
  rfl

lemma indices_nodup {data : Bytes} (h : Object.Describes config data o) :
    (o.sections.toList.map (·.index)).Nodup := by
  have : o.sections.toList.map (·.index) = List.range o.sections.size := by
    refine List.ext_getElem (by simp) fun i h1 h2 => ?_
    rw [List.length_map, Array.length_toList] at h1
    rw [List.getElem_map, List.getElem_range, Array.getElem_toList]
    exact h.index_eq i _ (Array.getElem?_eq_getElem h1)
  rw [this]
  exact List.nodup_range

lemma placedOf_nodup {data : Bytes} (h : Object.Describes config data o) :
    ((placedOf o).map (·.index)).Nodup := by
  have hall := indices_nodup h
  have hpart : ∀ p : SectionInfo → Bool, ((o.sections.toList.filter p).map (·.index)).Nodup :=
    fun p => hall.sublist (List.filter_sublist.map _)
  -- sections of different classes are different sections
  have hapart : ∀ p q : SectionInfo → Bool, (∀ s, p s → q s → False) →
      ∀ i ∈ (o.sections.toList.filter p).map (·.index),
        ∀ j ∈ (o.sections.toList.filter q).map (·.index), i ≠ j := by
    rintro p q hpq _ h1 _ h2 rfl
    obtain ⟨s, hs, rfl⟩ := List.mem_map.1 h1
    obtain ⟨t, ht, heq⟩ := List.mem_map.1 h2
    obtain ⟨hs, hps⟩ := List.mem_filter.1 hs
    obtain ⟨ht, hqt⟩ := List.mem_filter.1 ht
    exact hpq s hps (index_inj h ht hs heq ▸ hqt)
  have hflash : ∀ (s : SectionInfo) (cls : SectionClass), cls.isFlash = false →
      s.cls.any SectionClass.isFlash → s.cls == some cls → False := by
    intro s cls hcls h1 h2
    rw [eq_of_beq h2, Option.any_some, hcls] at h1
    cases h1
  rw [placedOf, List.map_append, List.map_append, List.nodup_append, List.nodup_append]
  refine ⟨hpart _, ⟨hpart _, hpart _, hapart _ _ fun s h1 h2 => ?_⟩, fun i hi j hj => ?_⟩
  · rw [eq_of_beq h1] at h2
    cases h2
  · rcases List.mem_append.1 hj with hj | hj
    · exact hapart _ _ (fun s => hflash s .data rfl) i hi j hj
    · exact hapart _ _ (fun s => hflash s .bss rfl) i hi j hj

/-! ### Addresses -/

/-- A section with a class is where its spot says. -/
lemma Reserved.get?_spot (h : Reserved c o space e) {data : Bytes}
    (hd : Object.Describes config data o) {s : SectionInfo} {a : Addr}
    (hs : s ∈ o.sections.toList) (ha : (s.index, a) ∈ space.spots) :
    (space.placement o).get? s.index = some a := by
  rw [space.placement_eq]
  refine Placement.get?_setAll _ (h.spots_indices ▸ placedOf_nodup hd) ?_ ha
  simpa [Placement.create] using (index_lt hd hs).1

/-- A section without a class has no address. -/
lemma Reserved.get?_none (h : Reserved c o space e) {i : Nat}
    (hi : ∀ s ∈ o.sections.toList, s.index = i → s.cls = none) :
    (space.placement o).get? i = none := by
  rw [space.placement_eq, Placement.get?_setAll_of_notMem _ ?_, Placement.get?_create]
  rw [h.spots_indices]
  intro hmem
  obtain ⟨s, hs, rfl⟩ := List.mem_map.1 hmem
  obtain ⟨hs, hcls⟩ := mem_placedOf.1 hs
  rw [hi s hs rfl] at hcls
  cases hcls

/-- Every section with a class is in a spot. -/
lemma Reserved.exists_spot (h : Reserved c o space e) {s : SectionInfo}
    (hs : s ∈ o.sections.toList) (hcls : s.cls.isSome) : ∃ a, (s.index, a) ∈ space.spots := by
  have hmem : s.index ∈ space.spots.map (·.1) := by
    rw [h.spots_indices]
    exact List.mem_map_of_mem (mem_placedOf.2 ⟨hs, hcls⟩)
  obtain ⟨⟨i, a⟩, hq, rfl⟩ := List.mem_map.1 hmem
  exact ⟨a, hq⟩

/-! ### The sections of the image -/

/-- The placed section is the one of `s`. -/
structure PlacedAs (q : PlacedSection) (s : SectionInfo) : Prop where
  mem_cls : s.cls = some q.cls
  index_eq : q.index = s.index
  name_eq : q.name = s.name
  size_eq : q.size = s.size

lemma map_index {l : List PlacedSection} {r : List SectionInfo} (h : List.Forall₂ PlacedAs l r) :
    l.map (·.index) = r.map (·.index) := by
  induction h with
  | nil => rfl
  | cons hqs _ ih => rw [List.map_cons, List.map_cons, hqs.index_eq, ih]

lemma mem_placedSections {p : Placement} {q : PlacedSection} :
    q ∈ placedSections o p ↔
      ∃ s ∈ o.sections.toList, PlacedAs q s ∧ p.get? s.index = some q.addr := by
  rw [placedSections, List.mem_filterMap]
  refine exists_congr fun s => and_congr_right fun _ => ?_
  constructor
  · intro h
    rcases hc : s.cls with _ | cls <;> rcases ha : p.get? s.index with _ | addr <;>
      simp only [hc, ha] at h <;> cases h
    exact ⟨⟨hc, rfl, rfl, rfl⟩, rfl⟩
  · rintro ⟨⟨hc, hi, hn, hs⟩, ha⟩
    rw [hc, ha]
    obtain ⟨i, n, cls, size, addr⟩ := q
    dsimp only at hi hn hs ⊢
    rw [hi, hn, hs]

variable {p : Plan} {name : String} {a : Addr} {q : PlacedSection}

namespace Plan.Settled

lemma spot_eq (h : p.Settled config src c e) {s : SectionInfo} {b : Addr}
    (hs : s ∈ p.object.sections.toList) (ha : (p.space.placement p.object).get? s.index = some a)
    (hb : (s.index, b) ∈ p.space.spots) : b = a := by
  have := h.reserved.get?_spot h.inspected.describes hs hb
  rw [ha] at this
  cases this
  rfl

/-- The image lists every section that has a class, in order. -/
lemma sections_forall (h : p.Settled config src c e) :
    List.Forall₂ PlacedAs (p.image name a).sections
      (p.object.sections.toList.filter (·.cls.isSome)) := by
  have hplaced : ∀ s ∈ p.object.sections.toList, s.cls.isSome →
      ∃ b, (p.space.placement p.object).get? s.index = some b := by
    intro s hs hcls
    obtain ⟨b, hb⟩ := h.reserved.exists_spot hs hcls
    exact ⟨b, h.reserved.get?_spot h.inspected.describes hs hb⟩
  change List.Forall₂ PlacedAs (placedSections p.object _) _
  unfold placedSections
  generalize p.object.sections.toList = l at hplaced
  induction l with
  | nil => exact .nil
  | cons s rest ih =>
    have hrest := ih fun t ht => hplaced t (.tail _ ht)
    rcases hc : s.cls with _ | cls
    · rw [List.filterMap_cons_none (by simp only [hc]), List.filter_cons_of_neg (by simp [hc])]
      exact hrest
    · obtain ⟨b, hb⟩ := hplaced s (.head _) (by rw [hc]; rfl)
      rw [List.filterMap_cons_some (b := ⟨s.index, s.name, cls, s.size, b⟩) (by simp only [hc, hb]),
        List.filter_cons_of_pos (by simp [hc])]
      exact .cons ⟨hc, rfl, rfl, rfl⟩ hrest

lemma sections_nodup (h : p.Settled config src c e) :
    ((p.image name a).sections.map (·.index)).Nodup := by
  rw [map_index h.sections_forall]
  exact (indices_nodup h.inspected.describes).sublist (List.filter_sublist.map _)

/-- A placed section of flash is that of a span. -/
lemma flash_section (h : p.Settled config src c e) (hq : q ∈ (p.image name a).sections)
    (hcls : q.cls.isFlash) :
    ∃ s span, (s, span) ∈ p.space.flash ∧ PlacedAs q s ∧ q.addr = span.addr := by
  obtain ⟨s, hs, hqs, ha⟩ := mem_placedSections.1 hq
  have hmem : s ∈ p.space.flash.map (·.1) := by
    rw [h.reserved.sections_eq]
    exact List.mem_filter.2 ⟨hs, by rw [hqs.mem_cls]; exact hcls⟩
  obtain ⟨⟨s', span⟩, hspan, rfl⟩ := List.mem_map.1 hmem
  refine ⟨s', span, hspan, hqs, (h.spot_eq hs ha ?_).symm⟩
  exact List.mem_append_left _ (List.mem_map.2 ⟨_, hspan, rfl⟩)

/-- A span is that of a placed section of flash. -/
lemma section_of_span (h : p.Settled config src c e) {s : SectionInfo} {span : FlashSpan}
    (hspan : (s, span) ∈ p.space.flash) :
    ∃ q ∈ (p.image name a).sections, q.cls.isFlash ∧ PlacedAs q s ∧ q.addr = span.addr := by
  have hmem : s ∈ p.object.inFlash := h.reserved.sections_eq ▸ List.mem_map_of_mem hspan
  obtain ⟨hs, hcls⟩ := List.mem_filter.1 hmem
  obtain ⟨cls, hc, hflash⟩ := (Option.any_eq_true _ _).1 hcls
  have ha := h.reserved.get?_spot h.inspected.describes hs
    (List.mem_append_left _ (List.mem_map.2 ⟨_, hspan, rfl⟩))
  exact ⟨⟨s.index, s.name, cls, s.size, span.addr⟩,
    mem_placedSections.2 ⟨s, hs, ⟨hc, rfl, rfl, rfl⟩, ha⟩, hflash, ⟨hc, rfl, rfl, rfl⟩, rfl⟩

/-- A placed section of variables is that of a place in a block. -/
lemma block_section (h : p.Settled config src c e) (hq : q ∈ (p.image name a).sections)
    (hcls : q.cls.isFlash = false) :
    ∃ s b offset, (s, offset) ∈ b.offsets ∧ PlacedAs q s ∧ q.addr = Block.address b.ram offset ∧
      (q.cls = .data ∧ p.space.data = some b ∨ q.cls = .bss ∧ p.space.bss = some b) := by
  obtain ⟨s, hs, hqs, ha⟩ := mem_placedSections.1 hq
  obtain ⟨pool, hdata, hbss⟩ := h.reserved.data
  have hmem : s ∈ p.object.ofClass q.cls := List.mem_filter.2 ⟨hs, by rw [hqs.mem_cls]; exact beq_self_eq_true _⟩
  have hspot : ∀ (b : Block) (offset : Nat), (s, offset) ∈ b.offsets →
      (p.space.data = some b ∨ p.space.bss = some b) → Block.address b.ram offset = q.addr := by
    intro b offset hb hspace
    have hspot : (s.index, Block.address b.ram offset) ∈ b.spots := List.mem_map.2 ⟨_, hb, rfl⟩
    refine h.spot_eq hs ha (List.mem_append_right _ ?_)
    rcases hspace with hb | hb <;> rw [hb]
    · exact List.mem_append_left _ hspot
    · exact List.mem_append_right _ hspot
  rcases hc : q.cls <;> rw [hc] at hcls hmem
  · cases hcls
  · cases hcls
  · obtain ⟨b, hb, offset, hoffset⟩ := given_mem hdata hmem
    exact ⟨s, b, offset, hoffset, hqs, (hspot b offset hoffset (.inl hb)).symm, .inl ⟨rfl, hb⟩⟩
  · obtain ⟨b, hb, offset, hoffset⟩ := given_mem hbss hmem
    exact ⟨s, b, offset, hoffset, hqs, (hspot b offset hoffset (.inr hb)).symm, .inr ⟨rfl, hb⟩⟩

/-- The image says where every section is. -/
lemma placement_eq (h : p.Settled config src c e) :
    (p.image name a).placement p.object.sections.size = p.space.placement p.object := by
  have hd := h.inspected.describes
  have hindices : ((p.image name a).sections.map fun q => (q.index, q.addr)).map (·.1) =
      (p.image name a).sections.map (·.index) := List.map_map
  refine Placement.ext_get ?_ fun i => ?_
  · rw [p.space.placement_eq, Image.placement, Placement.size_setAll, Placement.size_setAll]
  by_cases hi : ∃ q ∈ (p.image name a).sections, q.index = i
  · obtain ⟨q, hq, rfl⟩ := hi
    obtain ⟨s, hs, hqs, ha⟩ := mem_placedSections.1 hq
    rw [hqs.index_eq, ha]
    refine Placement.get?_setAll _ (hindices ▸ h.sections_nodup) ?_ ?_
    · simpa [Placement.create] using (index_lt hd hs).1
    · exact List.mem_map.2 ⟨q, hq, by rw [hqs.index_eq]⟩
  · rw [Image.placement, Placement.get?_setAll_of_notMem, Placement.get?_create]
    · refine (h.reserved.get?_none fun s hs hsi => ?_).symm
      by_contra hne
      obtain ⟨cls, hcls⟩ := Option.ne_none_iff_exists'.1 hne
      obtain ⟨b, hb⟩ := h.reserved.exists_spot hs (by rw [hcls]; rfl)
      have ha := h.reserved.get?_spot hd hs hb
      exact hi ⟨⟨s.index, s.name, cls, s.size, b⟩,
        mem_placedSections.2 ⟨s, hs, ⟨hcls, rfl, rfl, rfl⟩, ha⟩, hsi⟩
    · rw [hindices]
      intro hmem
      obtain ⟨q, hq, hqi⟩ := List.mem_map.1 hmem
      exact hi ⟨q, hq, hqi⟩

end Plan.Settled

end Job

end FlashLink
