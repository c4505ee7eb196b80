import FlashLink.Proofs.Accepting
import FlashLink.Proofs.NameTables

/-!
Which objects are supported. What parsing asks of a file header, of the names of sections, of the symbol
table and of relocation tables is stated here for the headers as they stand in the object, without the
order in which they are gone through. An object whose headers and names can be read is parsed if and only
if it is supported, and a section then has the entries of the one table for it that is not empty.
-/

namespace FlashLink

open Act

namespace SectionHeader

/-- The contents of the section are in the object, and it gets a place. -/
def IsFilled (h : SectionHeader) : Prop :=
  h.class? = some .text ∨ h.class? = some .readOnly ∨ h.class? = some .data

instance (h : SectionHeader) : Decidable h.IsFilled := inferInstanceAs (Decidable (_ ∨ _ ∨ _))

variable {h : SectionHeader}

/-- Sections that are not allocated have no class. -/
lemma isAllocated_of_class? {cls : SectionClass} (hcls : h.class? = some cls) : h.isAllocated = true := by
  by_contra halloc
  rw [class?, eq_false_of_ne_true halloc] at hcls
  cases hcls

lemma IsFilled.isAllocated (hfilled : h.IsFilled) : h.isAllocated = true := by
  rcases hfilled with hcls | hcls | hcls <;> exact isAllocated_of_class? hcls

/-- The table that the entries in a section make up. -/
def table (h : SectionHeader) : RelocationTable := ⟨h.offset, h.size / Relocation.width⟩

end SectionHeader

namespace Object

/-! ### What is supported -/

/-- The file header as it stands in the object. -/
def rawFile (data : Bytes) : FileHeader := FileHeader.ofBytes (data.slice 0 FileHeader.width)

/-- The file header of a relocatable ELF32 object for ARM, little-endian and of version 1, with as many
sections as are allowed. -/
structure SupportedFile (config : LoaderConfig) (h : FileHeader) : Prop where
  magic : h.ident.slice 0 4 = #[0x7f, 0x45, 0x4c, 0x46]
  elf32 : h.ident.byte 4 = 1
  littleEndian : h.ident.byte 5 = 1
  version : h.ident.byte 6 = 1
  relocatable : h.type = 1
  arm : h.machine = 40
  width : h.shentsize = 40
  sections_pos : 1 ≤ h.shnum.toNat
  sections_le : h.shnum.toNat ≤ config.maxSections

/-- There is a text at the offset, in UTF-8 and with a zero after it. -/
def HasName (names : Bytes) (offset : Nat) : Prop :=
  ∃ name : String, 0 ∉ Bytes.ofText name ∧ names.NamedAt offset (Bytes.ofText name)

/-- The symbol table has whole entries, and a section for the names of symbols. -/
structure SupportedSymtab (hs : List SectionHeader) (h : SectionHeader) : Prop where
  entrySize_eq : h.entrySize.toNat = Symbol.width
  whole : h.size % Symbol.width = 0
  link_pos : 0 < h.link.toNat
  link_lt : h.link.toNat < hs.length

/-- What is asked of a header if it is that of a relocation table. -/
structure Pairable (hs : List SectionHeader) (h : SectionHeader) : Prop where
  target : h.type = SectionHeader.rel ∨ h.type = SectionHeader.rela → h.info.toNat < hs.length
  addends : h.type = SectionHeader.rela → ∀ t ∈ hs[h.info.toNat]?, ¬ t.isAllocated
  entries : h.type = SectionHeader.rel → ∀ t ∈ hs[h.info.toNat]?, t.isAllocated →
    h.entrySize.toNat = Relocation.width ∧ h.size % Relocation.width = 0
  zeros : h.type = SectionHeader.rel → 0 < h.size → ∀ t ∈ hs[h.info.toNat]?, t.class? ≠ some .bss

/-- The header is that of a relocation table for section `i`, and not empty. -/
def Feeds (i : Nat) (h : SectionHeader) : Prop := Targets i h ∧ 0 < h.size

instance (i : Nat) (h : SectionHeader) : Decidable (Feeds i h) := inferInstanceAs (Decidable (_ ∧ _))

/-- The relocation tables for section `i` that are not empty. -/
def tablesFor (hs : List SectionHeader) (i : Nat) : List SectionHeader := hs.filter (Feeds i)

/-- What is asked of the section headers, given the names of sections. -/
structure WellFormed (names : Bytes) (hs : List SectionHeader) : Prop where
  named : ∀ (i : Nat) h, 1 ≤ i → hs[i]? = some h → HasName names h.name.toNat
  symtab : ∃ h, hs.filter (·.type == SectionHeader.symtab) = [h] ∧ SupportedSymtab hs h
  pairable : ∀ h ∈ hs, Pairable hs h
  tables : ∀ (i : Nat) h, hs[i]? = some h → h.IsFilled → (tablesFor hs i).length ≤ 1

/-- The bytes are those of an object that is supported. -/
structure Supported (config : LoaderConfig) (data : Bytes) : Prop where
  file : SupportedFile config (rawFile data)
  names_lt : (rawFile data).shstrndx.toNat < (rawFile data).shnum.toNat
  wellFormed : WellFormed (rawNames config data) (rawHeaders data)

/-- The entries that are applied to section `i`, which has header `h`: those of its one table that is not
empty. -/
def pairedTable (hs : List SectionHeader) (i : Nat) (h : SectionHeader) : Option RelocationTable :=
  if h.IsFilled then (tablesFor hs i).head?.map SectionHeader.table else none

/-! ### File headers -/

lemma supportedFile_iff {config : LoaderConfig} {h : FileHeader} :
    SupportedFile config h ↔
      h.fault? = none ∧ h.shnum.toNat ≠ 0 ∧ h.shnum.toNat ≤ config.maxSections := by
  have hzero : h.shnum ≠ 0 ↔ h.shnum.toNat ≠ 0 := by
    rw [ne_eq, ne_eq, ← UInt16.toNat_inj]
    rfl
  constructor
  · rintro ⟨h1, h2, h3, h4, h5, h6, h7, h8, h9⟩
    refine ⟨?_, by omega, h9⟩
    unfold FileHeader.fault?
    simp [h1, h2, h3, h4, h5, h6, h7]
  · rintro ⟨hfault, hpos, hle⟩
    unfold FileHeader.fault? at hfault
    split_ifs at hfault with h1 h2 h3 h4 h5 h6 h7
    rw [not_and_not_right] at h7
    exact ⟨not_not.1 h1, not_not.1 h2, not_not.1 h3, not_not.1 h4, not_not.1 h5, not_not.1 h6,
      h7 (hzero.2 hpos), by omega, hle⟩

end Object

/-! ### Names -/

namespace Bytes

variable {b name : Bytes} {offset : Nat}

/-- What is read up to the first zero is a name without zeros. -/
lemma untilZero?_eq_some : b.untilZero? offset = some name ↔ 0 ∉ name ∧ b.NamedAt offset name := by
  refine ⟨fun h => ?_, fun ⟨hzero, h⟩ => h.untilZero?_eq hzero⟩
  unfold untilZero? at h
  dsimp only at h
  obtain ⟨n, hn, hname⟩ := Option.map_eq_some_iff.1 h
  obtain ⟨hlt, hend, hbefore⟩ := Array.findIdx?_eq_some_iff_getElem.1 hn
  rw [Array.size_extract] at hlt
  have hsize : name.size = n := by
    rw [← hname, Array.size_extract, Array.size_extract]
    omega
  have hget : ∀ i (hi : i < name.size), b[offset + i]? = some name[i] := by
    intro i hi
    rw [Array.getElem?_eq_getElem (by omega)]
    simp only [← hname, Array.getElem_extract, Nat.zero_add]
  refine ⟨fun hzero => ?_, ext_get fun i => ?_⟩
  · obtain ⟨i, hi, hi0⟩ := Array.mem_iff_getElem.1 hzero
    have hat := hget i hi
    rw [hi0, Array.getElem?_eq_getElem (by omega)] at hat
    refine hbefore i (by omega) ?_
    rw [Array.getElem_extract, Option.some.inj hat]
    rfl
  · rw [getElem?_slice, Array.size_push, hsize]
    split_ifs with hi
    · rcases Nat.lt_or_ge i n with hin | hin
      · rw [Array.getElem?_push_lt (by omega), hget i (by omega)]
      · obtain rfl : i = name.size := by omega
        rw [Array.getElem?_push_size, Array.getElem?_eq_getElem (by omega)]
        rw [Array.getElem_extract, beq_iff_eq] at hend
        exact congrArg some (by simpa only [hsize] using hend)
    · rw [Array.getElem?_eq_none (by rw [Array.size_push]; omega)]

lemma text?_eq_some {s : String} : b.text? = some s ↔ b = ofText s := by
  refine ⟨fun h => ?_, fun h => by rw [h, text?_ofText]⟩
  unfold text? String.fromUTF8? at h
  split at h
  · obtain rfl := Option.some.inj h
    rfl
  · cases h

end Bytes

namespace Object

lemma nameAt?_eq_some {names : Bytes} {offset : Nat} {name : String} :
    nameAt? names offset = some name ↔ 0 ∉ Bytes.ofText name ∧ names.NamedAt offset (Bytes.ofText name) := by
  unfold nameAt?
  simp only [Option.bind_eq_some_iff, Bytes.text?_eq_some, Bytes.untilZero?_eq_some]
  constructor
  · rintro ⟨_, h, rfl⟩
    exact h
  · exact fun h => ⟨_, h, rfl⟩

lemma sectionName_ok_iff {names : Bytes} {index : Nat} {h : SectionHeader} :
    (∃ name, sectionName names index h = .ok name) ↔ (1 ≤ index → HasName names h.name.toNat) := by
  unfold sectionName HasName
  simp only [← nameAt?_eq_some]
  split_ifs with hindex
  · exact ⟨fun _ h => by omega, fun _ => ⟨_, rfl⟩⟩
  · rcases nameAt? names h.name.toNat with _ | name <;> dsimp only
    · exact ⟨fun ⟨_, h⟩ => by (cases h), fun h => by (obtain ⟨_, h⟩ := h (by omega); cases h)⟩
    · exact ⟨fun _ _ => ⟨name, rfl⟩, fun _ => ⟨name, rfl⟩⟩

/-! ### Symbol tables -/

/-- A sequence succeeds if both parts do. -/
lemma exists_ok_bind {α β : Type} {r : Except Error α} {g : α → Except Error β} :
    (∃ b, r >>= g = .ok b) ↔ ∃ a, r = .ok a ∧ ∃ b, g a = .ok b := by
  constructor
  · rintro ⟨b, hb⟩
    obtain ⟨a, ha, hg⟩ := ok_of_bind hb
    exact ⟨a, ha, b, hg⟩
  · rintro ⟨a, rfl, b, hb⟩
    exact ⟨b, hb⟩

lemma checkSymtab_ok_iff {seen : Option SectionHeader} {h : SectionHeader} :
    checkSymtab seen h = .ok () ↔
      seen = none ∧ h.entrySize.toNat = Symbol.width ∧ h.size % Symbol.width = 0 := by
  unfold checkSymtab
  split_ifs with hseen hbad
  · exact ⟨nofun, fun h => by simp [h.1] at hseen⟩
  · exact ⟨nofun, fun h => by omega⟩
  · exact ⟨fun _ => ⟨by simpa using hseen, by omega, by omega⟩, fun _ => rfl⟩

/-- Every header has a name if the first and all others have one. -/
lemma named_cons_iff {names : Bytes} {h : SectionHeader} {hs : List SectionHeader} {index : Nat} :
    (∀ k g, (h :: hs)[k]? = some g → ∃ name, sectionName names (index + k) g = .ok name) ↔
      (∃ name, sectionName names index h = .ok name) ∧
        ∀ k g, hs[k]? = some g → ∃ name, sectionName names (index + 1 + k) g = .ok name := by
  refine ⟨fun hall => ⟨hall 0 h rfl, fun k g hg => ?_⟩, fun ⟨hfirst, hrest⟩ k g hg => ?_⟩
  · rw [Nat.add_right_comm]
    exact hall (k + 1) g hg
  · cases k with
    | zero =>
      cases hg
      exact hfirst
    | succ k =>
      have := hrest k g hg
      rwa [Nat.add_right_comm] at this

/-- Headers are described one at a time. -/
lemma describe_cons_ok_iff {names : Bytes} {h : SectionHeader} {hs : List SectionHeader} {index : Nat}
    {seen : Option SectionHeader} :
    (∃ r, describe names index seen (h :: hs) = .ok r) ↔
      (∃ name, sectionName names index h = .ok name) ∧
        (h.type = SectionHeader.symtab → checkSymtab seen h = .ok ()) ∧
        ∃ r, describe names (index + 1) (if h.type = SectionHeader.symtab then some h else seen) hs =
          .ok r := by
  rw [describe, exists_ok_bind, ← exists_and_right]
  refine exists_congr fun name => and_congr_right fun _ => ?_
  dsimp only
  split_ifs with htype
  · rw [exists_ok_bind]
    refine ⟨fun ⟨_, hcheck, hb⟩ => ⟨fun _ => hcheck, ?_⟩, fun ⟨hcheck, hr⟩ => ⟨(), hcheck htype, ?_⟩⟩
    · obtain ⟨r, hr, -⟩ := exists_ok_bind.1 hb
      exact ⟨r, hr⟩
    · obtain ⟨r, hr⟩ := hr
      exact exists_ok_bind.2 ⟨r, hr, _, rfl⟩
  · refine ⟨fun hb => ⟨fun h => absurd h htype, ?_⟩, fun ⟨_, r, hr⟩ => exists_ok_bind.2 ⟨r, hr, _, rfl⟩⟩
    obtain ⟨r, hr, -⟩ := exists_ok_bind.1 hb
    exact ⟨r, hr⟩

/-- The names and symbol tables that headers are refused for. -/
lemma describe_ok_iff {names : Bytes} {hs : List SectionHeader} {index : Nat} {seen : Option SectionHeader} :
    (∃ r, describe names index seen hs = .ok r) ↔
      (∀ k h, hs[k]? = some h → ∃ name, sectionName names (index + k) h = .ok name) ∧
      (∀ h ∈ hs, h.type = SectionHeader.symtab →
        h.entrySize.toNat = Symbol.width ∧ h.size % Symbol.width = 0) ∧
      seen.toList.length + (hs.filter (·.type == SectionHeader.symtab)).length ≤ 1 := by
  induction hs generalizing index seen with
  | nil =>
    refine ⟨fun _ => ⟨nofun, nofun, ?_⟩, fun _ => ⟨_, rfl⟩⟩
    cases seen <;> simp
  | cons h hs ih =>
    rw [describe_cons_ok_iff, ih, named_cons_iff, List.forall_mem_cons, checkSymtab_ok_iff]
    by_cases htype : h.type = SectionHeader.symtab
    · have hnone : seen = none ↔ seen.toList.length = 0 := by cases seen <;> simp
      rw [if_pos htype, List.filter_cons_of_pos (by simpa using htype), List.length_cons, hnone,
        Option.toList_some, List.length_singleton]
      constructor
      · rintro ⟨hname, hcheck, hnamed, hentries, hone⟩
        obtain ⟨hseen, hentry⟩ := hcheck htype
        exact ⟨⟨hname, hnamed⟩, ⟨fun _ => hentry, hentries⟩, by omega⟩
      · rintro ⟨⟨hname, hnamed⟩, ⟨hentry, hentries⟩, hone⟩
        exact ⟨hname, fun _ => ⟨by omega, hentry htype⟩, hnamed, hentries, by omega⟩
    · rw [if_neg htype, List.filter_cons_of_neg (by simpa using htype)]
      constructor
      · rintro ⟨hname, -, hnamed, hentries, hone⟩
        exact ⟨⟨hname, hnamed⟩, ⟨fun h => absurd h htype, hentries⟩, hone⟩
      · rintro ⟨⟨hname, hnamed⟩, ⟨-, hentries⟩, hone⟩
        exact ⟨hname, fun h => absurd h htype, hnamed, hentries, hone⟩

/-! ### Relocation tables -/

/-- The sections have these headers, and the classes that go with them. -/
structure Mirrors (hs : List SectionHeader) (sections : Array SectionInfo) : Prop where
  header_eq : ∀ i : Nat, sections[i]?.map (·.header) = hs[i]?
  cls_eq : ∀ (i : Nat), ∀ s ∈ sections[i]?, s.cls = s.header.class?

variable {hs : List SectionHeader} {sections : Array SectionInfo}

lemma Mirrors.header_of (hm : Mirrors hs sections) {i : Nat} {s : SectionInfo} (hs' : sections[i]? = some s) :
    hs[i]? = some s.header := by
  rw [← hm.header_eq, hs']
  rfl

lemma Mirrors.attach (hm : Mirrors hs sections) (i : Nat) (t : RelocationTable) :
    Mirrors hs (sections.modify i fun s => { s with relocations := some t }) := by
  constructor
  · intro k
    rw [Array.getElem?_modify, ← hm.header_eq]
    split_ifs
    · rw [Option.map_map]
      rfl
    · rfl
  · intro k s hk
    rw [Array.getElem?_modify] at hk
    split_ifs at hk
    · obtain ⟨q, hq, rfl⟩ := Option.map_eq_some_iff.1 hk
      exact hm.cls_eq k q hq
    · exact hm.cls_eq k s hk

lemma pairable_iff {h t : SectionHeader} (ht : hs[h.info.toNat]? = some t) :
    Pairable hs h ↔ (h.type = SectionHeader.rela → ¬ t.isAllocated) ∧
      (h.type = SectionHeader.rel → t.isAllocated →
        h.entrySize.toNat = Relocation.width ∧ h.size % Relocation.width = 0) ∧
      (h.type = SectionHeader.rel → 0 < h.size → t.class? ≠ some .bss) := by
  constructor
  · exact fun hp => ⟨fun h1 => hp.addends h1 t ht, fun h1 => hp.entries h1 t ht,
      fun h1 h2 => hp.zeros h1 h2 t ht⟩
  · rintro ⟨haddends, hentries, hzeros⟩
    have honly : ∀ g ∈ hs[h.info.toNat]?, g = t := fun g hg => Option.some.inj (hg.symm.trans ht)
    exact ⟨fun _ => (List.getElem?_eq_some_iff.1 ht).1, fun h1 g hg => honly g hg ▸ haddends h1,
      fun h1 g hg => honly g hg ▸ hentries h1, fun h1 h2 g hg => honly g hg ▸ hzeros h1 h2⟩

/-- What becomes of a header: it is no table that is to be attached, or it is attached, or it is refused. If
it could be paired, that is because its section has a table already. -/
inductive Fate (hs : List SectionHeader) (sections : Array SectionInfo) (h : SectionHeader) :
    Except Error (Option (Nat × RelocationTable)) → Prop where
  | passed (hp : Pairable hs h) (hno : ∀ i, ∀ s ∈ sections[i]?, s.header.IsFilled → ¬ Feeds i h) :
    Fate hs sections h (.ok none)
  | attached {i : Nat} {s : SectionInfo} (hp : Pairable hs h) (hfeeds : Feeds i h) (hs' : s ∈ sections[i]?)
    (hfilled : s.header.IsFilled) (hbare : s.relocations = none) :
    Fate hs sections h (.ok (some (i, h.table)))
  | refused {e : Error} (hp : Pairable hs h → ∃ i, Feeds i h ∧ ∃ s ∈ sections[i]?,
      s.header.IsFilled ∧ s.relocations.isSome) :
    Fate hs sections h (.error e)

/-- What becomes of a table that is not empty and has whole entries, for a section that is allocated. -/
lemma tableFor_whole (hm : Mirrors hs sections) (index : Nat) {h : SectionHeader} {s : SectionInfo}
    (hs' : sections[h.info.toNat]? = some s) (halloc : s.header.isAllocated = true)
    (hrel : h.type = SectionHeader.rel)
    (hentries : h.entrySize.toNat = Relocation.width ∧ h.size % Relocation.width = 0) (hsize : 0 < h.size) :
    Fate hs sections h (tableFor sections index h) := by
  have hcls := hm.cls_eq _ s hs'
  have hrela : h.type ≠ SectionHeader.rela := by
    rw [hrel]
    decide
  have hcount : h.size / Relocation.width ≠ 0 := by
    have := Nat.div_add_mod h.size Relocation.width
    intro hzero
    rw [hzero, hentries.2] at this
    omega
  have hfeeds : Feeds h.info.toNat h := ⟨⟨hrel, rfl⟩, hsize⟩
  have hpair (hbss : s.cls ≠ some .bss) : Pairable hs h :=
    (pairable_iff (hm.header_of hs')).2 ⟨fun h => absurd h hrela, fun _ _ => hentries, fun _ _ => hcls ▸ hbss⟩
  unfold tableFor
  dsimp only
  rw [if_neg (by simp [hrel]), hs']
  dsimp only
  rw [if_neg (by simpa using halloc), if_neg hrela, if_neg (by simpa using hentries), if_neg hcount]
  rcases hc : s.cls with _ | cls
  · refine .passed (hpair (by simp [hc])) fun i q hq hfilled hi => ?_
    obtain rfl : h.info.toNat = i := hi.1.2
    obtain rfl : s = q := Option.some.inj (hs'.symm.trans hq)
    rw [SectionHeader.IsFilled, ← hcls, hc] at hfilled
    simp at hfilled
  by_cases hbss : cls = .bss
  · subst hbss
    refine .refused fun hp => absurd (hcls.symm.trans hc) (hp.zeros hrel hsize s.header (hm.header_of hs'))
  have hfilled : s.header.IsFilled := by
    rw [SectionHeader.IsFilled, ← hcls, hc]
    cases cls <;> simp at hbss ⊢
  have hp := hpair (by rw [hc]; simpa using hbss)
  rcases hr : s.relocations with _ | t
  · cases cls
    case bss => exact absurd rfl hbss
    all_goals exact .attached hp hfeeds hs' hfilled hr
  · cases cls
    case bss => exact absurd rfl hbss
    all_goals exact .refused fun _ => ⟨_, hfeeds, s, hs', hfilled, by rw [hr]; rfl⟩

/-- What becomes of any header. -/
lemma tableFor_outcome (hm : Mirrors hs sections) (index : Nat) (h : SectionHeader) :
    Fate hs sections h (tableFor sections index h) := by
  by_cases htype : h.type ≠ SectionHeader.rel ∧ h.type ≠ SectionHeader.rela
  · rw [tableFor, if_pos htype]
    refine .passed ⟨by tauto, fun h => absurd h htype.2, fun h => absurd h htype.1,
      fun h => absurd h htype.1⟩ fun i s _ _ hi => htype.1 hi.1.1
  rcases hs' : sections[h.info.toNat]? with _ | s
  · -- there is no such section
    have hrefused : ¬ Pairable hs h := by
      intro hp
      have hnone := hm.header_eq h.info.toNat
      rw [hs', List.getElem?_eq_getElem (hp.target (by tauto))] at hnone
      cases hnone
    unfold tableFor
    dsimp only
    rw [if_neg htype, hs']
    exact .refused fun hp => absurd hp hrefused
  by_cases hwhole : s.header.isAllocated = true ∧ h.type = SectionHeader.rel ∧
      (h.entrySize.toNat = Relocation.width ∧ h.size % Relocation.width = 0) ∧ 0 < h.size
  · exact tableFor_whole hm index hs' hwhole.1 hwhole.2.1 hwhole.2.2.1 hwhole.2.2.2
  have hpair := pairable_iff (h := h) (hm.header_of hs')
  -- nothing is attached to this section
  have hskip (hno : s.header.isAllocated = true → h.type = SectionHeader.rel → h.size = 0) :
      ∀ i, ∀ q ∈ sections[i]?, q.header.IsFilled → ¬ Feeds i h := by
    rintro i q hq hfilled ⟨⟨hrel, rfl⟩, hsize⟩
    obtain rfl : s = q := Option.some.inj (hs'.symm.trans hq)
    have := hno hfilled.isAllocated hrel
    omega
  unfold tableFor
  dsimp only
  rw [if_neg htype, hs']
  dsimp only
  by_cases halloc : s.header.isAllocated = true
  swap
  · rw [if_pos (by simpa using halloc)]
    exact .passed (hpair.2 ⟨fun _ => halloc, fun _ h => absurd h halloc,
      fun _ _ hbss => halloc (SectionHeader.isAllocated_of_class? hbss)⟩) (hskip fun h => absurd h halloc)
  rw [if_neg (by simpa using halloc)]
  by_cases hrela : h.type = SectionHeader.rela
  · rw [if_pos hrela]
    exact .refused fun hp => absurd halloc ((hpair.1 hp).1 hrela)
  rw [if_neg hrela]
  have hrel : h.type = SectionHeader.rel := by tauto
  by_cases hentries : h.entrySize.toNat ≠ Relocation.width ∨ h.size % Relocation.width ≠ 0
  · rw [if_pos hentries]
    refine .refused fun hp => ?_
    have := (hpair.1 hp).2.1 hrel halloc
    omega
  rw [if_neg hentries]
  have hempty : h.size = 0 := by
    by_contra hsize
    exact hwhole ⟨halloc, hrel, by omega, by omega⟩
  rw [if_pos (by rw [hempty, Nat.zero_div])]
  exact .passed (hpair.2 ⟨fun h => absurd h hrela, fun _ _ => by omega, by omega⟩) (hskip fun _ _ => hempty)

/-! ### Pairing -/

lemma tablesFor_cons (h : SectionHeader) (i : Nat) :
    tablesFor (h :: hs) i = if Feeds i h then h :: tablesFor hs i else tablesFor hs i := by
  unfold tablesFor
  rw [List.filter_cons]
  simp

/-- Sections before and after a table is attached to one of them. -/
lemma getElem?_attach {i k : Nat} {t : RelocationTable} {s : SectionInfo} :
    (sections.modify i fun q => { q with relocations := some t })[k]? = some s ↔
      ∃ q, sections[k]? = some q ∧ s = if i = k then { q with relocations := some t } else q := by
  rw [Array.getElem?_modify]
  split_ifs
  · rw [Option.map_eq_some_iff]
    exact exists_congr fun q => and_congr_right fun _ => eq_comm
  · exact ⟨fun h => ⟨s, h, rfl⟩, fun ⟨q, h, hq⟩ => hq ▸ h⟩

/-- Attaching the table a header gives a section leaves one table less to come for it, and no section has or
gets two if none did before. -/
lemma counts_attach {h : SectionHeader} {i : Nat} {s : SectionInfo} (t : RelocationTable) (hfeeds : Feeds i h)
    (hs' : s ∈ sections[i]?) (hfilled : s.header.IsFilled) (hbare : s.relocations = none) :
    (∀ k, ∀ p ∈ (sections.modify i fun q => { q with relocations := some t })[k]?, p.header.IsFilled →
        p.relocations.toList.length + (tablesFor hs k).length ≤ 1) ↔
      ∀ k, ∀ p ∈ sections[k]?, p.header.IsFilled →
        p.relocations.toList.length + (tablesFor (h :: hs) k).length ≤ 1 := by
  have hother : ∀ k, i ≠ k → tablesFor (h :: hs) k = tablesFor hs k :=
    fun k hk => by rw [tablesFor_cons, if_neg fun h => hk (hfeeds.1.2.symm.trans h.1.2)]
  have hmoved : s.relocations.toList.length + (tablesFor (h :: hs) i).length =
      (some t).toList.length + (tablesFor hs i).length := by
    rw [tablesFor_cons, if_pos hfeeds, hbare, Option.toList_none, Option.toList_some, List.length_nil,
      List.length_singleton, List.length_cons, Nat.zero_add, Nat.add_comm]
  constructor
  · intro hone k p hk hpfilled
    by_cases hik : i = k
    · subst hik
      obtain rfl : s = p := Option.some.inj (hs'.symm.trans hk)
      have hattached := hone i _ (getElem?_attach.2 ⟨s, hs', rfl⟩)
      rw [if_pos rfl] at hattached
      rw [hmoved]
      exact hattached hfilled
    · rw [hother k hik]
      exact hone k p (getElem?_attach.2 ⟨p, hk, by rw [if_neg hik]⟩) hpfilled
  · intro hone k p hk hpfilled
    obtain ⟨p, hp', rfl⟩ := getElem?_attach.1 hk
    by_cases hik : i = k
    · subst hik
      obtain rfl : s = p := Option.some.inj (hs'.symm.trans hp')
      rw [if_pos rfl]
      dsimp only
      rw [← hmoved]
      exact hone i s hs' hfilled
    · rw [if_neg hik] at hpfilled ⊢
      rw [← hother k hik]
      exact hone k p hp' hpfilled

/-- **Pairing** succeeds if every header can be paired, and no section gets two tables. -/
lemma attachTables_ok_iff {rest : List SectionInfo} (hm : Mirrors hs sections) :
    (∃ out, attachTables rest sections = .ok out) ↔
      (∀ q ∈ rest, Pairable hs q.header) ∧ ∀ i, ∀ s ∈ sections[i]?, s.header.IsFilled →
        s.relocations.toList.length + (tablesFor (rest.map (·.header)) i).length ≤ 1 := by
  induction rest generalizing sections with
  | nil =>
    refine ⟨fun _ => ⟨nofun, fun i s _ _ => ?_⟩, fun _ => ⟨sections, rfl⟩⟩
    cases s.relocations <;> simp [tablesFor]
  | cons q rest ih =>
    rw [List.forall_mem_cons, List.map_cons, attachTables, exists_ok_bind]
    generalize hfound : tableFor sections q.index q.header = found
    have hfate := tableFor_outcome hm q.index q.header
    rw [hfound] at hfate
    cases hfate with
    | passed hp hno =>
      simp only [Except.ok.injEq, exists_eq_left']
      have hsame : ∀ i, ∀ s ∈ sections[i]?, s.header.IsFilled →
          tablesFor (q.header :: rest.map (·.header)) i = tablesFor (rest.map (·.header)) i :=
        fun i s hs' hfilled => by rw [tablesFor_cons, if_neg (hno i s hs' hfilled)]
      rw [ih hm]
      constructor
      · rintro ⟨hall, hone⟩
        exact ⟨⟨hp, hall⟩, fun i s hs' hfilled => hsame i s hs' hfilled ▸ hone i s hs' hfilled⟩
      · rintro ⟨⟨-, hall⟩, hone⟩
        exact ⟨hall, fun i s hs' hfilled => hsame i s hs' hfilled ▸ hone i s hs' hfilled⟩
    | @attached i s hp hfeeds hs' hfilled hbare =>
      simp only [Except.ok.injEq, exists_eq_left']
      rw [ih (hm.attach i _), counts_attach q.header.table hfeeds hs' hfilled hbare]
      constructor
      · rintro ⟨hall, hone⟩
        exact ⟨⟨hp, hall⟩, hone⟩
      · rintro ⟨⟨-, hall⟩, hone⟩
        exact ⟨hall, hone⟩
    | refused hp =>
      constructor
      · rintro ⟨_, h, -⟩
        cases h
      rintro ⟨hpair, hone⟩
      obtain ⟨i, hfeeds, s, hs', hfilled, hsome⟩ := hp hpair.1
      have := hone i s hs' hfilled
      obtain ⟨t, ht⟩ := Option.isSome_iff_exists.1 hsome
      rw [tablesFor_cons, if_pos hfeeds, ht, List.length_cons, Option.toList_some, List.length_singleton] at this
      omega

/-- **Pairing** gives a section the entries of the first table for it that is not empty. -/
lemma attachTables_pairs {rest : List SectionInfo} {out : Array SectionInfo} (hm : Mirrors hs sections)
    (hok : attachTables rest sections = .ok out) {i : Nat} {s : SectionInfo} (hs' : sections[i]? = some s) :
    out[i]? = some { s with relocations :=
      if s.header.IsFilled then s.relocations.or ((tablesFor (rest.map (·.header)) i).head?.map (·.table))
      else s.relocations } := by
  induction rest generalizing sections s with
  | nil =>
    cases hok
    simp [hs', tablesFor]
  | cons q rest ih =>
    rw [attachTables] at hok
    obtain ⟨found, hfound, hok⟩ := ok_of_bind hok
    have hfate := tableFor_outcome hm q.index q.header
    rw [hfound] at hfate
    rw [List.map_cons, tablesFor_cons]
    cases hfate with
    | passed hp hno =>
      rw [ih hm hok hs']
      split_ifs with hfilled hfeeds
      · exact absurd hfeeds (hno i s hs' hfilled)
      · rfl
      · rfl
    | @attached k p hp hfeeds hk hfilled hbare =>
      have hnext := ih (hm.attach k _) hok (getElem?_attach.2 ⟨s, hs', rfl⟩)
      rw [hnext]
      by_cases hki : k = i
      · subst hki
        obtain rfl : s = p := Option.some.inj (hs'.symm.trans hk)
        simp [hfeeds, hfilled, hbare]
      · have hnot : ¬ Feeds i q.header := fun h => hki (hfeeds.1.2.symm.trans h.1.2)
        simp [hki, hnot]

/-! ### Objects -/

variable {names : Bytes}

/-- Before tables are attached. -/
lemma describe_mirrors {list : List SectionInfo} {last : Option SectionHeader}
    (h : describe names 0 none hs = .ok (list, last)) :
    Mirrors hs list.toArray ∧ (∀ i : Nat, ∀ s ∈ list.toArray[i]?, s.relocations = none) ∧
      last = (hs.filter (·.type == SectionHeader.symtab)).head? := by
  obtain ⟨-, hplain, hlast⟩ := describe_ok h
  refine ⟨⟨fun i => ?_, fun i s hs' => ?_⟩, fun i s hs' => ?_, ?_⟩
  · rw [List.getElem?_toArray, ← List.getElem?_map, describe_headers h]
  · exact (hplain i s (by simpa using hs')).cls_eq
  · exact (hplain i s (by simpa using hs')).bare
  · rw [hlast, Option.none_or, List.head?_filter]

/-- What is asked of the headers while they are named and classified. -/
lemma describe_none_ok_iff : (∃ r, describe names 0 none hs = .ok r) ↔
    (∀ (i : Nat) h, 1 ≤ i → hs[i]? = some h → HasName names h.name.toNat) ∧
      (∀ h ∈ hs, h.type = SectionHeader.symtab →
        h.entrySize.toNat = Symbol.width ∧ h.size % Symbol.width = 0) ∧
      (hs.filter (·.type == SectionHeader.symtab)).length ≤ 1 := by
  rw [describe_ok_iff, Option.toList_none, List.length_nil, Nat.zero_add]
  refine and_congr_left' (forall₂_congr fun k h => ?_)
  rw [sectionName_ok_iff, Nat.zero_add]
  exact forall_comm

/-- Tables are attached to sections that have none. -/
lemma attachTables_bare_iff {list : List SectionInfo} (hm : Mirrors hs list.toArray)
    (hbare : ∀ i : Nat, ∀ s ∈ list.toArray[i]?, s.relocations = none) (hheaders : list.map (·.header) = hs) :
    (∃ out, attachTables list list.toArray = .ok out) ↔
      (∀ h ∈ hs, Pairable hs h) ∧
        ∀ (i : Nat) h, hs[i]? = some h → h.IsFilled → (tablesFor hs i).length ≤ 1 := by
  rw [attachTables_ok_iff hm, hheaders]
  refine and_congr ⟨fun hall h hh => ?_, fun hall q hq => hall q.header (hheaders ▸ List.mem_map_of_mem hq)⟩
    (forall_congr' fun i => ⟨fun hone h hh hfilled => ?_, fun hone s hs' hfilled => ?_⟩)
  · obtain ⟨q, hq, rfl⟩ := List.mem_map.1 (hheaders ▸ hh)
    exact hall q hq
  · rw [← hm.header_eq] at hh
    obtain ⟨s, hs', rfl⟩ := Option.map_eq_some_iff.1 hh
    have := hone s hs' hfilled
    rw [hbare i s hs', Option.toList_none, List.length_nil, Nat.zero_add] at this
    exact this
  · rw [hbare i s hs', Option.toList_none, List.length_nil, Nat.zero_add]
    exact hone s.header (hm.header_of hs') hfilled

/-- **The headers** describe an object if they are well-formed. -/
lemma ofHeaders_ok_iff : (∃ o, ofHeaders names hs = .ok o) ↔ WellFormed names hs := by
  constructor
  · rintro ⟨o, hok⟩
    obtain ⟨list, hd, hzero, hlink, hsections⟩ := ofHeaders_inv hok
    obtain ⟨hnamed, hentries, hone⟩ := describe_none_ok_iff.1 ⟨_, hd⟩
    obtain ⟨hm, hbare, hlast⟩ := describe_mirrors hd
    -- the one symbol table
    have hsymtab : hs.filter (·.type == SectionHeader.symtab) = [o.symtab] := by
      obtain ⟨rest, hrest⟩ := List.head?_eq_some_iff.1 hlast.symm
      rw [hrest, List.length_cons] at hone
      obtain rfl : rest = [] := List.eq_nil_of_length_eq_zero (by omega)
      exact hrest
    obtain ⟨hmem, htype⟩ := List.mem_filter.1 (hsymtab ▸ List.mem_singleton_self o.symtab)
    obtain ⟨hentry, hwhole⟩ := hentries o.symtab hmem (by simpa using htype)
    obtain ⟨hpair, htables⟩ := (attachTables_bare_iff hm hbare (describe_headers hd)).1 ⟨_, hsections⟩
    exact ⟨hnamed, ⟨o.symtab, hsymtab, hentry, hwhole, Nat.pos_of_ne_zero hzero,
      (List.getElem?_eq_some_iff.1 hlink).1⟩, hpair, htables⟩
  · rintro ⟨hnamed, ⟨symtab, hsymtab, hentry, hwhole, hpos, hlt⟩, hpair, htables⟩
    have hentries : ∀ h ∈ hs, h.type = SectionHeader.symtab →
        h.entrySize.toNat = Symbol.width ∧ h.size % Symbol.width = 0 := by
      intro h hmem htype
      have hin : h ∈ hs.filter (·.type == SectionHeader.symtab) :=
        List.mem_filter.2 ⟨hmem, by simpa using htype⟩
      obtain rfl := List.mem_singleton.1 (hsymtab ▸ hin)
      exact ⟨hentry, hwhole⟩
    obtain ⟨⟨list, last⟩, hd⟩ := describe_none_ok_iff.2 ⟨hnamed, hentries, by rw [hsymtab]; exact Nat.le_refl _⟩
    obtain ⟨hm, hbare, hlast⟩ := describe_mirrors hd
    obtain ⟨sections, hsections⟩ :=
      (attachTables_bare_iff hm hbare (describe_headers hd)).2 ⟨hpair, htables⟩
    rw [hsymtab] at hlast
    subst hlast
    exact ⟨_, ofHeaders_eq hd (by omega) (List.getElem?_eq_getElem hlt) hsections⟩

/-- The sections of an object have the tables for them. -/
lemma ofHeaders_pairs {o : Object} (hok : ofHeaders names hs = .ok o) {i : Nat} {s : SectionInfo}
    (hs' : o.sections[i]? = some s) : s.relocations = pairedTable hs i s.header := by
  obtain ⟨list, hd, -, -, hsections⟩ := ofHeaders_inv hok
  obtain ⟨hm, hbare, -⟩ := describe_mirrors hd
  -- the section before tables were attached
  have hi : i < list.toArray.size := (attachTables_ok #[] hsections).1 ▸ (Array.getElem?_eq_some_iff.1 hs').1
  have hplain : list.toArray[i]? = some list.toArray[i] := Array.getElem?_eq_getElem hi
  have hpairs := attachTables_pairs hm hsections hplain
  rw [describe_headers hd, hbare i _ hplain, Option.none_or] at hpairs
  obtain rfl := Option.some.inj (hs'.symm.trans hpairs)
  rfl

/-! ### Parsing -/

/-- The bytes of the span can be read. -/
def Delivers (src : Source) (offset len : Nat) : Prop := ∃ b, src.fetch offset len = .ok b

/-- The file header, the section headers and the names of sections can be read, as far as parsing gets to
them. -/
structure Reads (config : LoaderConfig) (src : Source) : Prop where
  file : Delivers src 0 FileHeader.width
  headers : SupportedFile config (rawFile src.data) → ∀ i < (rawFile src.data).shnum.toNat,
    Delivers src ((rawFile src.data).shoff.toNat + i * SectionHeader.width) SectionHeader.width
  names : SupportedFile config (rawFile src.data) →
    ∀ h ∈ (rawHeaders src.data)[(rawFile src.data).shstrndx.toNat]?,
      Delivers src h.offset (min h.size config.maxNames)

variable {src u : Source} {config : LoaderConfig}

/-- The headers are read if the file header is supported. -/
lemma Reads.readLayout (h : Reads config src) :
    Sat (readLayout config.maxSections) src
      (fun l v => Source.Same src v ∧ SupportedFile config (rawFile src.data) ∧
        l = (rawFile src.data, rawHeaders src.data))
      (fun _ _ => ¬ SupportedFile config (rawFile src.data)) := by
  unfold Object.readLayout
  refine Sat.bind (read_delivered (.refl src) h.file) ?_ fun _ _ h => h.elim
  rintro b v ⟨hv, rfl⟩
  have hsupported := @supportedFile_iff config (rawFile src.data)
  refine Sat.bind (P := fun file w => Source.Same src w ∧ file = rawFile src.data ∧ file.fault? = none)
    (G := fun _ _ => ¬ SupportedFile config (rawFile src.data)) ?_ ?_ fun _ _ h => h
  · unfold FileHeader.parse
    dsimp only
    rcases hfault : (FileHeader.ofBytes (src.data.slice 0 FileHeader.width)).fault? with _ | why
    · exact ⟨hv, rfl, hfault⟩
    · intro hs
      have := (hsupported.1 hs).1
      rw [rawFile, hfault] at this
      cases this
  rintro _ w ⟨hw, rfl, hfault⟩
  dsimp only
  split_ifs with hnone hmany hmany
  · exact Sat.throw_bind fun hs => (hsupported.1 hs).2.1 hnone
  · exact Sat.throw_bind fun hs => (hsupported.1 hs).2.1 hnone
  · exact Sat.throw_bind fun hs => absurd (hsupported.1 hs).2.2 (by omega)
  have hfile := hsupported.2 ⟨hfault, hnone, by omega⟩
  -- the last header is in the source, and so are the others
  have hlast := (Source.fetch_ok_iff (by decide)).1
    (h.headers hfile ((rawFile src.data).shnum.toNat - 1) (by omega))
  have hheld : (rawFile src.data).shoff.toNat +
      (0 + (rawFile src.data).shnum.toNat) * SectionHeader.width ≤ src.data.size := by
    rw [SectionHeader.width] at *
    omega
  refine Sat.bind ((readHeaders_held hw hheld).of_false (readHeaders_sat hw _ _ _)) ?_
    fun _ _ h => h.elim
  rintro _ x ⟨hx, rfl⟩
  refine ⟨hx, hfile, ?_⟩
  rw [rawHeaders, List.range_eq_range']
  rfl

/-- **Parsing** succeeds if the object is supported. -/
lemma Reads.parse (h : Reads config src) :
    Sat (parse config) src
      (fun o _ => Supported config src.data ∧ ∀ (i : Nat) s, o.sections[i]? = some s →
        s.relocations = pairedTable (rawHeaders src.data) i s.header)
      (fun _ _ => ¬ Supported config src.data) := by
  unfold Object.parse
  refine Sat.bind h.readLayout ?_ fun _ _ hfile hs => hfile hs.file
  rintro ⟨_, _⟩ v ⟨hv, hfile, ⟨⟩⟩
  dsimp only
  have hlen : (rawHeaders src.data).length = (rawFile src.data).shnum.toNat := by
    rw [rawHeaders, List.length_map, List.length_range]
    rfl
  rcases hn : (rawHeaders src.data)[(rawFile src.data).shstrndx.toNat]? with _ | g <;> dsimp only
  · refine sat_throw.2 fun hs => ?_
    have := List.getElem?_eq_none_iff.1 hn
    have := hs.names_lt
    omega
  have hlt := (List.getElem?_eq_some_iff.1 hn).1
  refine Sat.bind (readStrings_delivered hv (h.names hfile g hn)) ?_ fun _ _ h => h.elim
  rintro names w ⟨-, rfl⟩
  have hnames : src.data.slice g.offset (min g.size config.maxNames) = rawNames config src.data := by
    rw [rawNames, ← rawFile, hn]
  rw [hnames]
  refine sat_ofExcept (fun o ho => ⟨⟨hfile, hlen ▸ hlt, ofHeaders_ok_iff.1 ⟨o, ho⟩⟩,
    fun i s hs => ofHeaders_pairs ho hs⟩) fun e he hs => ?_
  obtain ⟨o, ho⟩ := ofHeaders_ok_iff.2 hs.wellFormed
  rw [ho] at he
  cases he

/-- **What is accepted.** If the headers and names of an object can be read, it is parsed exactly if it is
supported. It is then described as it stands in the bytes, and every section with contents has the entries
of its one relocation table that is not empty; no other section has entries. -/
theorem parse_accepts (h : Reads config src) :
    ((∃ o, (Object.parse config src).result = .ok o) ↔ Supported config src.data) ∧
      ∀ o, (Object.parse config src).result = .ok o → Describes config src.data o ∧
        ∀ (i : Nat) s, o.sections[i]? = some s →
          s.relocations = pairedTable (rawHeaders src.data) i s.header := by
  refine ⟨⟨fun ⟨o, ho⟩ => (h.parse.of_result ho).1, fun hs => ?_⟩, fun o ho => ?_⟩
  · rcases hr : (Object.parse config src).result with e | o
    · exact absurd hs (h.parse.of_failure hr)
    · exact ⟨o, rfl⟩
  · exact ⟨((parse_sat (.refl src) config).of_result ho).2, (h.parse.of_result ho).2⟩

/-- What can be read of a source that has all of it. -/
lemma Reads.of_le (hfile : FileHeader.width ≤ src.data.size)
    (hheaders : (rawFile src.data).shoff.toNat + (rawFile src.data).shnum.toNat * SectionHeader.width ≤
      src.data.size)
    (hnames : ∀ h ∈ (rawHeaders src.data)[(rawFile src.data).shstrndx.toNat]?,
      0 < min h.size config.maxNames ∧ h.offset + min h.size config.maxNames ≤ src.data.size) :
    Reads config src where
  file := ⟨_, Source.fetch_of_le (by decide) (by rwa [Nat.zero_add])⟩
  headers _ i hi := by
    rw [SectionHeader.width] at hheaders ⊢
    exact ⟨_, Source.fetch_of_le (by decide) (by omega)⟩
  names _ h hh := ⟨_, Source.fetch_of_le (hnames h hh).1 (hnames h hh).2⟩

/-- Two words of code with two tables of relocations, the second of which has `size` bytes. -/
def twoTables (size : UInt32) : Bytes := Small.object
  (Small.ofWords [0, 0, 0, 0x102, 4, 0x102, 0, 0, 0, 0, 1, 0, 0, 0x10012] ++
    (Bytes.ofText "\x00e\x00.text\x00").toList)
  [.replicate 10 0, [3, 1, 6, 0, 52, 8, 0, 0, 4, 0], [0, 9, 0, 0, 60, 8, 4, 1, 4, 8],
    [0, 9, 0, 0, 68, size, 4, 1, 4, 8], [0, 2, 0, 0, 76, 32, 5, 1, 4, 16], [0, 3, 0, 0, 108, 9, 0, 0, 1, 0]]

/-- A second table is fine while it is empty. -/
theorem parse_accepts_twoTables :
    Supported (Small.loader 16).config (twoTables 0) ∧ ¬ Supported (Small.loader 16).config (twoTables 8) ∧
      ∀ o, (Object.parse (Small.loader 16).config (.ofBytes "m" (twoTables 0))).result = .ok o →
        ∀ s, o.sections[1]? = some s → s.relocations = some ⟨60, 1⟩ := by
  have hempty : Reads (Small.loader 16).config (.ofBytes "m" (twoTables 0)) :=
    .of_le (by decide +kernel) (by decide +kernel) (by decide +kernel)
  have hfull : Reads (Small.loader 16).config (.ofBytes "m" (twoTables 8)) :=
    .of_le (by decide +kernel) (by decide +kernel) (by decide +kernel)
  refine ⟨(parse_accepts hempty).1.1 ?_, fun hs => ?_, fun o ho s hs => ?_⟩
  · obtain ⟨o, t, es, ho⟩ := exists_ok
      (o := Object.parse (Small.loader 16).config (.ofBytes "m" (twoTables 0))) (by decide +kernel)
    exact ⟨o, by rw [ho]⟩
  · obtain ⟨o, ho⟩ := (parse_accepts hfull).1.2 hs
    have hfails : (Object.parse (Small.loader 16).config (.ofBytes "m" (twoTables 8))).result =
        .error (.parse (.severalTables 1)) := by decide +kernel
    cases hfails.symm.trans ho
  · obtain ⟨hdescribes, hpairs⟩ := (parse_accepts hempty).2 o ho
    have htable : ∀ h ∈ (rawHeaders (twoTables 0))[1]?,
        pairedTable (rawHeaders (twoTables 0)) 1 h = some ⟨60, 1⟩ := by decide +kernel
    rw [hpairs 1 s hs]
    exact htable s.header (hdescribes.header_eq 1 s hs)

end Object

end FlashLink
