import FlashLink.Load.Object
import FlashLink.Proofs.Boundaries

/-!
What parsing makes of the bytes of an object: one section for every header, in order, with the class
that the header gives it and with the entries of the relocation tables that name it. Parsing only
reads, so a parsed object depends on nothing but the bytes and the limits.
-/

namespace FlashLink

open Act

namespace Object

/-! ### The object in the bytes -/

/-- The section headers as they stand in the object. -/
def rawHeaders (data : Bytes) : List SectionHeader :=
  let file := FileHeader.ofBytes (data.slice 0 FileHeader.width)
  (List.range file.shnum.toNat).map fun i => SectionHeader.ofBytes
    (data.slice (file.shoff.toNat + i * SectionHeader.width) SectionHeader.width)

/-- The section names, cut off at the limit. -/
def rawNames (config : LoaderConfig) (data : Bytes) : Bytes :=
  match (rawHeaders data)[(FileHeader.ofBytes (data.slice 0 FileHeader.width)).shstrndx.toNat]? with
  | some h => data.slice h.offset (min h.size config.maxNames)
  | none => #[]

/-- The entries of the relocation table in a header. -/
def tableEntries (data : Bytes) (h : SectionHeader) : List Relocation :=
  RelocationTable.entries ⟨h.offset, h.size / Relocation.width⟩ data

/-- The header holds a relocation table for section `i`. -/
def Targets (i : Nat) (h : SectionHeader) : Prop :=
  h.type = SectionHeader.rel ∧ h.info.toNat = i

instance (i : Nat) (h : SectionHeader) : Decidable (Targets i h) :=
  inferInstanceAs (Decidable (_ ∧ _))

/-- The entries that apply to section `i`, in the order of their table. -/
def rawEntries (data : Bytes) (i : Nat) : List Relocation :=
  ((rawHeaders data).filter (Targets i)).flatMap (tableEntries data)

/-- The object is the one that the bytes hold. -/
structure Describes (config : LoaderConfig) (data : Bytes) (o : Object) : Prop where
  size_eq : o.sections.size = (rawHeaders data).length
  index_eq : ∀ (i : Nat) (s : SectionInfo), o.sections[i]? = some s → s.index = i
  header_eq : ∀ (i : Nat) (s : SectionInfo), o.sections[i]? = some s → (rawHeaders data)[i]? = some s.header
  cls_eq : ∀ (i : Nat) (s : SectionInfo), o.sections[i]? = some s → s.cls = s.header.class?
  name_eq : ∀ (i : Nat) (s : SectionInfo), o.sections[i]? = some s →
    sectionName (rawNames config data) i s.header = .ok s.name
  entries_eq : ∀ (i : Nat) (s : SectionInfo), o.sections[i]? = some s → s.cls.isSome →
    s.entries data = rawEntries data i
  symtab_eq : (rawHeaders data).find? (·.type == SectionHeader.symtab) = some o.symtab
  strtab_eq : (rawHeaders data)[o.symtab.link.toNat]? = some o.strtab

/-- Empty sections have no class. -/
lemma Describes.size_pos {config : LoaderConfig} {data : Bytes} {o : Object} {s : SectionInfo}
    (h : Describes config data o) (hs : s ∈ o.sections.toList) (hcls : s.cls.isSome) : 0 < s.size := by
  obtain ⟨i, hi⟩ := List.mem_iff_getElem?.1 hs
  rw [Array.getElem?_toList] at hi
  by_contra hzero
  have : s.header.size = 0 := by rw [SectionInfo.size] at hzero; omega
  rw [h.cls_eq i s hi, SectionHeader.class?, this] at hcls
  simp at hcls

/-! ### Naming and classifying -/

/-- A section as it is named and classified, before tables are attached. -/
structure Plain (names : Bytes) (hs : List SectionHeader) (index k : Nat) (s : SectionInfo) :
    Prop where
  index_eq : s.index = index + k
  header_eq : hs[k]? = some s.header
  cls_eq : s.cls = s.header.class?
  name_eq : sectionName names (index + k) s.header = .ok s.name
  bare : s.relocations = none

lemma describe_ok {names : Bytes} {hs : List SectionHeader} {index : Nat}
    {seen last : Option SectionHeader} {list : List SectionInfo}
    (h : describe names index seen hs = .ok (list, last)) :
    list.length = hs.length ∧ (∀ k s, list[k]? = some s → Plain names hs index k s) ∧
      last = seen.or (hs.find? (·.type == SectionHeader.symtab)) := by
  induction hs generalizing index seen list last with
  | nil =>
    cases h
    exact ⟨rfl, fun k s hs => by simp at hs, by simp⟩
  | cons hd tl ih =>
    unfold describe at h
    obtain ⟨name, hname, h⟩ := ok_of_bind h
    have hrest : ∃ rest, describe names (index + 1)
        (if hd.type = SectionHeader.symtab then some hd else seen) tl = .ok (rest, last) ∧
        list = ⟨index, name, hd, hd.class?, none⟩ :: rest ∧
        (hd.type = SectionHeader.symtab → seen = none) := by
      dsimp only at h
      split_ifs at h with hsym
      · obtain ⟨_, hcheck, h⟩ := ok_of_bind h
        obtain ⟨⟨rest, last'⟩, hr, h⟩ := ok_of_bind h
        cases h
        refine ⟨rest, by rw [if_pos hsym]; exact hr, rfl, fun _ => ?_⟩
        unfold checkSymtab at hcheck
        split_ifs at hcheck with hseen
        simpa using hseen
      · obtain ⟨⟨rest, last'⟩, hr, h⟩ := ok_of_bind h
        cases h
        exact ⟨rest, by rw [if_neg hsym]; exact hr, rfl, fun h => absurd h hsym⟩
    obtain ⟨rest, hr, rfl, hseen⟩ := hrest
    obtain ⟨hlen, hplain, hlast⟩ := ih hr
    refine ⟨by simp [hlen], fun k s hs => ?_, ?_⟩
    · cases k with
      | zero =>
        cases hs
        exact ⟨rfl, rfl, rfl, hname, rfl⟩
      | succ k =>
        obtain ⟨h1, h2, h3, h4, h5⟩ := hplain k s hs
        rw [Nat.add_assoc, Nat.add_comm 1 k] at h1 h4
        exact ⟨h1, h2, h3, h4, h5⟩
    · rw [hlast, List.find?_cons]
      by_cases hsym : hd.type = SectionHeader.symtab
      · simp [hsym, hseen hsym]
      · rw [if_neg hsym, beq_eq_false_iff_ne.2 hsym]

lemma describe_headers {names : Bytes} {hs : List SectionHeader} {index : Nat}
    {seen last : Option SectionHeader} {list : List SectionInfo}
    (h : describe names index seen hs = .ok (list, last)) : list.map (·.header) = hs := by
  obtain ⟨hlen, hplain, -⟩ := describe_ok h
  refine List.ext_getElem? fun k => ?_
  rw [List.getElem?_map]
  rcases hk : list[k]? with _ | s
  · rw [List.getElem?_eq_none (by have := List.getElem?_eq_none_iff.1 hk; omega)]
    rfl
  · exact (hplain k s hk).header_eq.symm

/-! ### Attaching tables -/

variable {data : Bytes} {sections : Array SectionInfo} {index : Nat} {h : SectionHeader}

/-- A table is attached as its header gives it, and only the first one for a section. -/
lemma tableFor_found {target : Nat} {t : RelocationTable}
    (hok : tableFor sections index h = .ok (some (target, t))) :
    Targets target h ∧ t = ⟨h.offset, h.size / Relocation.width⟩ ∧
      ∃ s, sections[target]? = some s ∧ s.relocations = none := by
  unfold tableFor at hok
  dsimp only at hok
  by_cases htype : h.type ≠ SectionHeader.rel ∧ h.type ≠ SectionHeader.rela
  · rw [if_pos htype] at hok
    cases hok
  rw [if_neg htype] at hok
  rcases hs : sections[h.info.toNat]? with _ | s <;> simp only [hs] at hok
  · cases hok
  split_ifs at hok with h1 h2 h3 h4 hr
  · cases hok
  · cases hok
  · rcases hc : s.cls with _ | cls <;> rw [hc] at hok
    · cases hok
    · cases cls <;> cases hok
  · rcases hc : s.cls with _ | cls <;> rw [hc] at hok
    · cases hok
    have hrel : h.type = SectionHeader.rel := by
      by_contra hne
      exact htype ⟨hne, h2⟩
    have heq : (h.info.toNat, (⟨h.offset, h.size / Relocation.width⟩ : RelocationTable)) =
        (target, t) := by
      cases cls <;> cases hok <;> rfl
    cases heq
    exact ⟨⟨hrel, rfl⟩, rfl, s, hs, by simpa using hr⟩

variable (data) in
/-- Only the first table for a section is attached. -/
lemma tableFor_some {target : Nat} {t : RelocationTable}
    (hok : tableFor sections index h = .ok (some (target, t))) :
    Targets target h ∧ t.entries data = tableEntries data h ∧
      ∀ s, sections[target]? = some s → s.relocations = none := by
  obtain ⟨htarget, rfl, s, hs, hbare⟩ := tableFor_found hok
  refine ⟨htarget, rfl, fun s' hs' => ?_⟩
  rw [hs] at hs'
  cases hs'
  exact hbare

/-- A table for a section with a place that is not attached has no entries. -/
lemma tableFor_none (hok : tableFor sections index h = .ok none) {i : Nat} {s : SectionInfo}
    (hs : sections[i]? = some s) (hcls : s.cls = s.header.class?) (hplace : s.cls.isSome)
    (ht : Targets i h) : tableEntries data h = [] := by
  obtain ⟨hrel, rfl⟩ := ht
  have halloc : s.header.isAllocated = true := by
    by_contra hne
    rw [hcls, SectionHeader.class?] at hplace
    simp [hne] at hplace
  unfold tableFor at hok
  dsimp only at hok
  simp only [hs, halloc, hrel] at hok
  split_ifs at hok with h1 h2 h3 h4 h5
  · simp at h1
  · simp at h2
  · rw [tableEntries, RelocationTable.entries, h5]
    rfl
  all_goals
    obtain ⟨cls, hc⟩ := Option.isSome_iff_exists.1 hplace
    rw [hc] at hok
    cases cls <;> cases hok

variable (data) in
/-- **Attaching** gives a section the entries of all tables for it, and changes nothing else. -/
lemma attachTables_ok {rest : List SectionInfo} {sections out : Array SectionInfo}
    (hok : attachTables rest sections = .ok out) :
    out.size = sections.size ∧ ∀ (i : Nat) s, sections[i]? = some s → s.cls = s.header.class? →
      ∃ t, out[i]? = some { s with relocations := t } ∧ (s.cls.isSome →
        SectionInfo.entries { s with relocations := t } data = s.entries data ++
          ((rest.map (·.header)).filter (Targets i)).flatMap (tableEntries data)) := by
  induction rest generalizing sections with
  | nil =>
    cases hok
    exact ⟨rfl, fun i s hs _ => ⟨s.relocations, hs, fun _ => by simp⟩⟩
  | cons q rest ih =>
    unfold attachTables at hok
    obtain ⟨found, hfound, hok⟩ := ok_of_bind hok
    rcases found with _ | ⟨target, table⟩ <;> dsimp only at hok
    · -- nothing to attach
      obtain ⟨hsize, hrest⟩ := ih hok
      refine ⟨hsize, fun i s hs hcls => ?_⟩
      obtain ⟨t, ht, hentries⟩ := hrest i s hs hcls
      refine ⟨t, ht, fun hplace => ?_⟩
      rw [hentries hplace, List.map_cons, List.filter_cons]
      split_ifs with htarget
      · rw [List.flatMap_cons, tableFor_none hfound hs hcls hplace (by simpa using htarget)]
        rfl
      · rfl
    · obtain ⟨htarget, htable, hfirst⟩ := tableFor_some data hfound
      obtain ⟨hsize, hrest⟩ := ih hok
      refine ⟨hsize.trans (Array.size_modify ..), fun i s hs hcls => ?_⟩
      rw [List.map_cons, List.filter_cons]
      by_cases hi : target = i
      · -- this section gets the table
        subst hi
        have hbare := hfirst s hs
        obtain ⟨t, ht, hentries⟩ := hrest target { s with relocations := some table }
          (by rw [Array.getElem?_modify, if_pos rfl, hs]; rfl) hcls
        refine ⟨t, ht, fun hplace => ?_⟩
        rw [if_pos (by simpa using htarget), List.flatMap_cons]
        refine (hentries hplace).trans ?_
        rw [SectionInfo.entries, SectionInfo.entries, hbare, ← htable]
        simp
      · obtain ⟨t, ht, hentries⟩ := hrest i s (by rw [Array.getElem?_modify, if_neg hi, hs]) hcls
        refine ⟨t, ht, fun hplace => ?_⟩
        rw [if_neg (by simpa using fun h : Targets i q.header => hi (htarget.2.symm.trans h.2))]
        exact hentries hplace

/-- What an object is made of: the sections that the headers describe, with their tables, the last symbol
table, and the names that this one links to. -/
lemma ofHeaders_inv {names : Bytes} {hs : List SectionHeader} {o : Object}
    (hok : ofHeaders names hs = .ok o) :
    ∃ bare, describe names 0 none hs = .ok (bare, some o.symtab) ∧ o.symtab.link.toNat ≠ 0 ∧
      hs[o.symtab.link.toNat]? = some o.strtab ∧ attachTables bare bare.toArray = .ok o.sections := by
  unfold ofHeaders at hok
  obtain ⟨⟨bare, last⟩, hdescribe, hok⟩ := ok_of_bind hok
  rcases last with _ | symtab <;> dsimp only at hok
  · cases hok
  rcases hlink : (if symtab.link.toNat = 0 then none else hs[symtab.link.toNat]?) with _ | strtab <;>
    rw [hlink] at hok <;> dsimp only at hok
  · cases hok
  obtain ⟨sections, hsections, hok⟩ := ok_of_bind hok
  cases hok
  split_ifs at hlink with hzero
  exact ⟨bare, hdescribe, hzero, hlink, hsections⟩

variable (data) in
lemma ofHeaders_ok {names : Bytes} {hs : List SectionHeader} {o : Object}
    (hok : ofHeaders names hs = .ok o) :
    o.sections.size = hs.length ∧
      (∀ (i : Nat) s, o.sections[i]? = some s → s.index = i ∧ hs[i]? = some s.header ∧
        s.cls = s.header.class? ∧ sectionName names i s.header = .ok s.name ∧
        (s.cls.isSome → s.entries data = (hs.filter (Targets i)).flatMap (tableEntries data))) ∧
      hs.find? (·.type == SectionHeader.symtab) = some o.symtab ∧
      hs[o.symtab.link.toNat]? = some o.strtab := by
  obtain ⟨plain, hdescribe, -, hlink, hsections⟩ := ofHeaders_inv hok
  obtain ⟨hlen, hplain, hlast⟩ := describe_ok hdescribe
  obtain ⟨hsize, hattach⟩ := attachTables_ok data hsections
  have hheaders := describe_headers hdescribe
  refine ⟨by simpa [hlen] using hsize, fun i s hs' => ?_, by simpa using hlast.symm, hlink⟩
  -- the section before tables were attached
  have hi : i < plain.length := by
    have := (Array.getElem?_eq_some_iff.1 hs').1
    simpa [hsize] using this
  obtain ⟨h1, h2, h3, h4, h5⟩ := hplain i plain[i] (List.getElem?_eq_getElem hi)
  obtain ⟨t, ht, hentries⟩ := hattach i plain[i] (by simp [hi]) h3
  rw [hs'] at ht
  cases ht
  rw [Nat.zero_add] at h1 h4
  refine ⟨h1, h2, h3, h4, fun hplace => ?_⟩
  rw [hentries hplace, SectionInfo.entries, h5, hheaders]
  rfl

/-! ### Reading -/

variable {src u : Source} {config : LoaderConfig}

lemma read_of_same (hu : Source.Same src u) {offset len : Nat} (hlen : 0 < len) :
    Sat (Source.read offset len) u
      (fun b v => Source.Same src v ∧ b = src.data.slice offset len ∧ offset + len ≤ src.data.size)
      (fun _ v => Source.Same src v) := by
  refine (Source.read_same hu offset len).mono ?_ fun _ _ h => h.1
  rintro b v ⟨hv, hb, hslice⟩
  exact ⟨hv, hslice, (Source.fetch_eq_ok hb).2.2 hlen⟩

lemma readHeaders_sat (hu : Source.Same src u) (offset left index : Nat) :
    Sat (readHeaders offset left index) u
      (fun hs v => Source.Same src v ∧ hs = (List.range' index left).map fun i =>
        SectionHeader.ofBytes
          (src.data.slice (offset + i * SectionHeader.width) SectionHeader.width))
      (fun _ v => Source.Same src v) := by
  induction left generalizing index u with
  | zero => exact ⟨hu, rfl⟩
  | succ left ih =>
    unfold readHeaders
    refine Sat.bind (read_of_same hu (by decide)) ?_ fun _ _ h => h
    rintro b v ⟨hv, rfl, -⟩
    refine Sat.bind (ih hv (index + 1)) ?_ fun _ _ h => h
    rintro hs w ⟨hw, rfl⟩
    exact ⟨hw, rfl⟩

/-- Names are cut at the limit, and cannot be read only if their bytes cannot. -/
lemma readStrings_same (hu : Source.Same src u) (h : SectionHeader) (limit : Nat) :
    Sat (readStrings h limit) u
      (fun b v => Source.Same src v ∧ b = src.data.slice h.offset (min h.size limit))
      (fun e v => Source.Same src v ∧ src.fetch h.offset (min h.size limit) = .error e) := by
  have hread : Sat (Source.read h.offset (min h.size limit)) u
      (fun b v => Source.Same src v ∧ b = src.data.slice h.offset (min h.size limit))
      (fun e v => Source.Same src v ∧ src.fetch h.offset (min h.size limit) = .error e) :=
    (Source.read_same hu _ _).mono (fun _ _ h => ⟨h.1, h.2.2⟩) fun _ _ h => h
  unfold readStrings
  split_ifs
  · exact Sat.note_bind hread
  · exact hread

lemma readStrings_sat (hu : Source.Same src u) (h : SectionHeader) (limit : Nat) :
    Sat (readStrings h limit) u
      (fun b v => Source.Same src v ∧ b = src.data.slice h.offset (min h.size limit))
      (fun _ v => Source.Same src v) :=
  (readStrings_same hu h limit).mono (fun _ _ h => h) fun _ _ h => h.1

lemma fileHeader_parse_ok {b : Bytes} {file : FileHeader} (h : FileHeader.parse b = .ok file) :
    file = FileHeader.ofBytes b := by
  unfold FileHeader.parse at h
  dsimp only at h
  split at h <;> cases h
  rfl

lemma readLayout_sat (hu : Source.Same src u) (maxSections : Nat) :
    Sat (readLayout maxSections) u
      (fun l v => Source.Same src v ∧ l.2 = rawHeaders src.data ∧
        l.1 = FileHeader.ofBytes (src.data.slice 0 FileHeader.width))
      (fun _ v => Source.Same src v) := by
  unfold readLayout
  refine Sat.bind (read_of_same hu (by decide)) ?_ fun _ _ h => h
  rintro b v ⟨hv, hb, -⟩
  refine Sat.bind (P := fun file w => Source.Same src w ∧ file = FileHeader.ofBytes b)
    (G := fun _ w => Source.Same src w)
    (sat_ofExcept (fun _ h => ⟨hv, fileHeader_parse_ok h⟩) fun _ _ => hv) ?_ fun _ _ h => h
  rintro file w ⟨hw, hfile⟩
  rw [hb] at hfile
  dsimp only
  split_ifs
  · exact Sat.throw_bind hw
  · exact Sat.throw_bind hw
  · exact Sat.throw_bind hw
  · refine Sat.bind (readHeaders_sat hw file.shoff.toNat file.shnum.toNat 0) ?_ fun _ _ h => h
    rintro hs w ⟨hw, rfl⟩
    refine ⟨hw, ?_, hfile⟩
    rw [rawHeaders, List.range_eq_range', ← hfile]

/-- **Parsing**: what is parsed is the object that the bytes hold. -/
lemma parse_sat (hu : Source.Same src u) (config : LoaderConfig) :
    Sat (parse config) u (fun o v => Source.Same src v ∧ Describes config src.data o)
      (fun _ v => Source.Same src v) := by
  unfold parse
  refine Sat.bind (readLayout_sat hu config.maxSections) ?_ fun _ _ h => h
  rintro ⟨file, hs⟩ v ⟨hv, rfl, rfl⟩
  dsimp only
  rcases hn : (rawHeaders src.data)[_]? with _ | h <;> dsimp only
  · exact hv
  refine Sat.bind (readStrings_sat hv h config.maxNames) ?_ fun _ _ h => h
  rintro names w ⟨hw, rfl⟩
  refine sat_ofExcept (fun o ho => ⟨hw, ?_⟩) fun _ _ => hw
  have hnames : src.data.slice h.offset (min h.size config.maxNames) =
      rawNames config src.data := by
    rw [rawNames, hn]
  rw [hnames] at ho
  obtain ⟨h1, h2, h3, h4⟩ := ofHeaders_ok src.data ho
  exact ⟨h1, fun i s h => (h2 i s h).1, fun i s h => (h2 i s h).2.1, fun i s h => (h2 i s h).2.2.1,
    fun i s h => (h2 i s h).2.2.2.1, fun i s h => (h2 i s h).2.2.2.2, h3, h4⟩

lemma symbolTable_sat (hu : Source.Same src u) (o : Object) (config : LoaderConfig) :
    Sat (o.symbolTable config) u
      (fun t v => Source.Same src v ∧ t = ⟨o.symtab.offset, o.symtab.size / Symbol.width,
        src.data.slice o.strtab.offset (min o.strtab.size config.maxStrings)⟩)
      (fun _ v => Source.Same src v) := by
  unfold symbolTable
  refine Sat.bind (readStrings_sat hu o.strtab config.maxStrings) ?_ fun _ _ h => h
  rintro strings v ⟨hv, rfl⟩
  exact ⟨hv, rfl⟩

/-! ### Steadiness -/

lemma readHeaders_steady (offset left index : Nat) : Source.Steady (readHeaders offset left index) := by
  induction left generalizing index with
  | zero => exact .pure _
  | succ left ih => exact .bind (.read _ _) fun _ => .bind (ih _) fun _ => .pure _

lemma readStrings_steady (h : SectionHeader) (limit : Nat) : Source.Steady (readStrings h limit) := by
  unfold readStrings
  split_ifs
  · exact .bind (.note _) fun _ => .read _ _
  · exact .read _ _

lemma parse_steady (config : LoaderConfig) : Source.Steady (parse config) := by
  refine .bind ?_ fun l => ?_
  · refine .bind (.read _ _) fun b => .bind (.ofExcept _) fun file => ?_
    dsimp only
    split_ifs
    · exact .bind (.throw _) fun _ => .bind (.throw _) fun _ =>
        .bind (readHeaders_steady _ _ _) fun _ => .pure _
    · exact .bind (.throw _) fun _ => .bind (readHeaders_steady _ _ _) fun _ => .pure _
    · exact .bind (.throw _) fun _ => .bind (readHeaders_steady _ _ _) fun _ => .pure _
    · exact .bind (readHeaders_steady _ _ _) fun _ => .pure _
  · obtain ⟨file, hs⟩ := l
    dsimp only
    rcases hs[file.shstrndx.toNat]? with _ | h <;> dsimp only
    · exact .throw _
    · exact .bind (readStrings_steady h _) fun _ => .ofExcept _

lemma symbolTable_steady (o : Object) (config : LoaderConfig) :
    Source.Steady (o.symbolTable config) :=
  .bind (readStrings_steady _ _) fun _ => .pure _

end Object

end FlashLink
