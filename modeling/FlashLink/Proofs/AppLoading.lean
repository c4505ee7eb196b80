import FlashLink.Proofs.Accepting
import FlashLink.Proofs.AppLayout

/-!
Loading the sample with a full descriptor.
-/

namespace FlashLink

namespace Samples.App

open Bytes Object

variable (name entry : String) (category : UInt32) (w : Spots)

def codeSection : SectionInfo :=
  ⟨1, ".text", codeHeader w, some .text, some ⟨w.codeRelocations, 1⟩⟩

def labelSection : SectionInfo := ⟨3, ".rodata", labelHeader name w, some .readOnly, none⟩

def recordSection : SectionInfo :=
  ⟨4, ".data", recordHeader w, some .data, some ⟨w.recordRelocations, 2⟩⟩

/-- The sections, with or without their tables. -/
def sectionsWith (code record : Option RelocationTable) : List SectionInfo :=
  [⟨0, "", noHeader, none, none⟩, { codeSection w with relocations := code },
    ⟨2, ".rel.text", codeTableHeader w, none, none⟩, labelSection name w,
    { recordSection w with relocations := record }, ⟨5, ".rel.data", recordTableHeader w, none, none⟩,
    ⟨6, ".symtab", symtabHeader w, none, none⟩, ⟨7, ".strtab", strtabHeader entry w, none, none⟩,
    ⟨8, ".shstrtab", titlesHeader w, none, none⟩]

/-- The sections, as they are parsed. -/
def sections : List SectionInfo :=
  sectionsWith name entry w (codeSection w).relocations (recordSection w).relocations

/-! ### Names of sections -/

lemma size_sectionNames : sectionNames.bytes.size ≤ 67 :=
  Nat.le_trans (NameTable.size_ofNames_le _) (by decide)

lemma zero_notMem_title : ∀ n ∈ titles, 0 ∉ Bytes.ofText n := by decide +kernel

lemma nameAt?_titleAt {s : String} (hs : s ∈ titles) :
    nameAt? sectionNames.bytes (titleAt s).toNat = some s := by
  have hnamed := NameTable.ofNames_named (List.mem_map_of_mem (f := Bytes.ofText) hs)
  have hsize := size_sectionNames
  have hlt := hnamed.lt
  have hlimit : UInt32.size = 4294967296 := rfl
  have hoffset : (titleAt s).toNat = sectionNames.offset (Bytes.ofText s) :=
    UInt32.toNat_ofNat_of_lt' (by rw [sectionNames] at *; omega)
  unfold nameAt?
  rw [hoffset, sectionNames, hnamed.untilZero?_eq (zero_notMem_title s hs)]
  exact Bytes.text?_ofText s

lemma sectionName_eq {i : Nat} {h : SectionHeader} {s : String} (hs : titles[i]? = some s)
    (hname : h.name = titleAt s) : sectionName sectionNames.bytes (i + 1) h = .ok s := by
  unfold sectionName
  rw [if_neg (Nat.succ_ne_zero i), hname, nameAt?_titleAt (List.mem_of_getElem? hs)]

/-! ### Parsing -/

lemma class?_codeHeader : (codeHeader w).class? = some .text :=
  (SectionHeader.class?_congr (h := ⟨0, 1, 6, 0, 0, 12, 0, 0, 0, 0⟩) rfl rfl .rfl).trans (by decide)

lemma class?_recordHeader : (recordHeader w).class? = some .data :=
  (SectionHeader.class?_congr (h := ⟨0, 1, 3, 0, 0, 20, 0, 0, 0, 0⟩) rfl rfl .rfl).trans (by decide)

variable {name} in
lemma class?_labelHeader (hsize : (labelHeader name w).size ≠ 0) :
    (labelHeader name w).class? = some .readOnly := by
  rw [SectionHeader.class?_congr (g := labelHeader name w) (h := ⟨0, 1, 2, 0, 0, 1, 0, 0, 0, 0⟩) rfl rfl
    (iff_of_false hsize (by decide))]
  decide

lemma size_symtabHeader : (symtabHeader w).size = 5 * Symbol.width := rfl

lemma describe_eq (hsize : (labelHeader name w).size ≠ 0) :
    describe sectionNames.bytes 0 none (headers name entry w) =
      .ok (sectionsWith name entry w none none, some (symtabHeader w)) := by
  have hclass : ∀ {h : SectionHeader} (f : UInt32), h.rawFlags = f → f &&& 7 &&& 2 = 0 → h.class? = none :=
    fun _ => SectionHeader.class?_none
  refine describe_plain rfl (hclass 0 rfl (by decide)) rfl ?_
  refine describe_plain (sectionName_eq rfl rfl) (class?_codeHeader w) rfl ?_
  refine describe_plain (sectionName_eq rfl rfl) (hclass 0x40 rfl (by decide)) rfl ?_
  refine describe_plain (sectionName_eq rfl rfl) (class?_labelHeader w hsize) rfl ?_
  refine describe_plain (sectionName_eq rfl rfl) (class?_recordHeader w) rfl ?_
  refine describe_plain (sectionName_eq rfl rfl) (hclass 0x40 rfl (by decide)) rfl ?_
  refine describe_symtab (sectionName_eq rfl rfl) (hclass 0 rfl (by decide)) rfl rfl (size_symtabHeader w) ?_
  refine describe_plain (sectionName_eq rfl rfl) (hclass 0 rfl (by decide)) rfl ?_
  exact describe_plain (sectionName_eq rfl rfl) (hclass 0 rfl (by decide)) rfl rfl

lemma attachTables_eq (hc : w.codeRelocations < UInt32.size) (hr : w.recordRelocations < UInt32.size) :
    ∃ l, attachTables (sectionsWith name entry w none none) (sectionsWith name entry w none none).toArray =
        .ok l ∧ l.toList = sections name entry w := by
  have hcode : (codeTableHeader w).offset = w.codeRelocations := UInt32.toNat_ofNat_of_lt' hc
  have hrecord : (recordTableHeader w).offset = w.recordRelocations := UInt32.toNat_ofNat_of_lt' hr
  have htables : (sectionsWith name entry w none none).filter (fun s =>
      s.header.type = SectionHeader.rel ∨ s.header.type = SectionHeader.rela) =
      [⟨2, ".rel.text", codeTableHeader w, none, none⟩,
        ⟨5, ".rel.data", recordTableHeader w, none, none⟩] := rfl
  have hone : (codeTableHeader w).size = 1 * Relocation.width := rfl
  have htwo : (recordTableHeader w).size = 2 * Relocation.width := rfl
  rw [attachTables_filter, htables,
    attachTables_table (t := { codeSection w with relocations := none }) rfl rfl (class?_codeHeader w) rfl hone
      (Nat.succ_ne_zero _) rfl nofun rfl,
    attachTables_table (t := { recordSection w with relocations := none }) rfl ?_ (class?_recordHeader w) rfl
      htwo (Nat.succ_ne_zero _) rfl nofun rfl]
  · refine ⟨_, rfl, ?_⟩
    rw [Array.toList_modify, Array.toList_modify, hcode, hrecord]
    rfl
  · rw [Array.getElem?_modify]
    rfl

/-- The limits hold the object, up to the name of its entry point. -/
structure Fits (config : LoaderConfig) (entry : String) : Prop where
  sections : 9 ≤ config.maxSections
  titles : sectionNames.bytes.size ≤ config.maxNames
  entry : (symbolNames entry).offset (Bytes.ofText entry) + (Bytes.ofText entry).size < config.maxStrings

/-- The symbols, with as much of their names as the limit leaves. -/
def symbolTable (config : LoaderConfig) : SymbolTable :=
  ⟨w.symbols, 5, (symbolNames entry).bytes.slice 0 (min (symbolNames entry).bytes.size config.maxStrings)⟩

/-- The code with the address of the descriptor. -/
def linkedCode (record : Addr) : Bytes := instructions ++ Bytes.ofU32 record

/-- The descriptor with the addresses of the name and of `start`. -/
def linkedRecord (label start : Addr) (category : UInt32) : Bytes :=
  Bytes.ofU32 label ++ (Bytes.zeros 4 ++ (Bytes.ofU32 start ++ (Bytes.zeros 4 ++ Bytes.ofU32 category)))

variable {name entry category w} {config : LoaderConfig} {src : Source}

namespace Laid

variable (h : Laid name entry category w src.data)

include h

lemma code_le : w.code + 12 ≤ src.data.size := h.code.le (by decide)

lemma record_le : w.record + 20 ≤ src.data.size := h.record.le (Nat.zero_lt_succ _)

lemma label_le : w.label + (App.label name).size ≤ src.data.size :=
  h.label.le (by rw [App.label, Array.size_push]; exact Nat.succ_pos _)

lemma symbolNames_le : w.symbolNames + (App.symbolNames entry).bytes.size ≤ src.data.size :=
  h.symbolNames.le (NameTable.size_ofNames_pos _)

lemma sectionNames_le : w.sectionNames + App.sectionNames.bytes.size ≤ src.data.size :=
  h.sectionNames.le (NameTable.size_ofNames_pos _)

lemma size_labelHeader : (labelHeader name w).size = (App.label name).size := by
  have hle := h.label_le
  have hsize := h.size_lt
  exact UInt32.toNat_ofNat_of_lt' (by omega)

lemma toNat_titles : (titlesHeader w).offset = w.sectionNames ∧
    (titlesHeader w).size = App.sectionNames.bytes.size := by
  have hle := h.sectionNames_le
  have hsize := h.size_lt
  exact ⟨UInt32.toNat_ofNat_of_lt' (by omega), UInt32.toNat_ofNat_of_lt' (by omega)⟩

lemma toNat_strtab : (strtabHeader entry w).offset = w.symbolNames ∧
    (strtabHeader entry w).size = (App.symbolNames entry).bytes.size := by
  have hle := h.symbolNames_le
  have hsize := h.size_lt
  exact ⟨UInt32.toNat_ofNat_of_lt' (by omega), UInt32.toNat_ofNat_of_lt' (by omega)⟩

/-- The object that the file holds. -/
lemma ofHeaders_eq : ∃ l : Array SectionInfo, ofHeaders App.sectionNames.bytes (headers name entry w) =
    .ok ⟨l, symtabHeader w, strtabHeader entry w⟩ ∧ l.toList = sections name entry w := by
  have hsize := h.size_lt
  have hcodes := h.codeEntries_le
  have hrecords := h.recordEntries_le
  have hlabel : (labelHeader name w).size ≠ 0 := by
    rw [h.size_labelHeader, App.label, Array.size_push]
    exact Nat.succ_ne_zero _
  obtain ⟨l, hattach, hl⟩ := attachTables_eq name entry w (by omega) (by omega)
  exact ⟨l, Object.ofHeaders_eq (describe_eq name entry w hlabel) (Nat.succ_ne_zero 6) rfl hattach, hl⟩

/-- The file is accepted as that object. -/
lemma accepted (hlimits : Fits config entry) {o : Object}
    (ho : ofHeaders App.sectionNames.bytes (headers name entry w) = .ok o) :
    Object.Accepted config src.data o := by
  obtain ⟨header, hparse, hshnum, hshstrndx, hheaders⟩ := h.parsed
  have hcount : header.shnum.toNat = 9 := by rw [hshnum]; rfl
  have hindex : header.shstrndx.toNat = 8 := by rw [hshstrndx]; rfl
  have hwidth : SectionHeader.width = 40 := rfl
  have hfile : FileHeader.width = 52 := rfl
  have htitles : (rawHeaders src.data)[header.shstrndx.toNat]? = some (titlesHeader w) := by
    rw [h.headers_eq, hindex]
    rfl
  obtain ⟨hoffset, hsize⟩ := h.toNat_titles
  have hlen : min (titlesHeader w).size config.maxNames = App.sectionNames.bytes.size := by
    rw [hsize, Nat.min_eq_left hlimits.titles]
  refine ⟨⟨header, hparse, by omega, by have := hlimits.sections; omega, by rw [hcount]; exact hheaders,
    titlesHeader w, htitles, ?_, ?_⟩, by omega, ?_⟩
  · rw [hlen]
    exact NameTable.size_ofNames_pos _
  · rw [hlen, hoffset]
    exact h.sectionNames_le
  · rw [rawNames, ← fileHeader_parse_ok hparse, htitles]
    dsimp only
    rw [hlen, hoffset, h.headers_eq, h.sectionNames]
    exact ho

lemma symbolTable_eq (hlimits : Fits config entry) {l : Array SectionInfo} :
    (Object.symbolTable ⟨l, symtabHeader w, strtabHeader entry w⟩ config src).result =
      .ok (symbolTable entry w config) := by
  have hle := h.symbolNames_le
  have hsymbols := h.symbols_le
  have hsize := h.size_lt
  have hentry := hlimits.entry
  have hpos : 0 < (App.symbolNames entry).bytes.size := NameTable.size_ofNames_pos _
  obtain ⟨hoffset, hlen⟩ := h.toNat_strtab
  have hsymtab : (symtabHeader w).offset = w.symbols := UInt32.toNat_ofNat_of_lt' (by omega)
  have hcount : (symtabHeader w).size / Symbol.width = 5 := by
    rw [size_symtabHeader, Nat.mul_div_cancel _ (by decide)]
  have hstrings := h.symbolNames.slice_eq (i := 0)
    (n := min (App.symbolNames entry).bytes.size config.maxStrings) (by omega)
  rw [Object.symbolTable_held (by dsimp only; omega) (by dsimp only; omega)]
  dsimp only
  rw [hoffset, hlen, hsymtab, hcount, App.symbolTable, ← hstrings]
  rfl

/-- Every field of the tables lies in its section. -/
lemma tablesFit : ∀ s ∈ App.sections name entry w, s.TableFits src := by
  have hbare : ∀ {s : SectionInfo}, s.relocations = none → s.TableFits src := by
    intro s hs t ht
    rw [hs] at ht
    cases ht
  have hcode : (codeSection w).TableFits src := by
    rintro _ ⟨⟩
    refine ⟨fun _ => h.codeEntries_le, fun r hr => ?_⟩
    rw [h.codeEntries, List.mem_singleton] at hr
    subst hr
    exact Nat.le_refl 12
  have hrecord : (recordSection w).TableFits src := by
    rintro _ ⟨⟩
    refine ⟨fun _ => h.recordEntries_le, fun r hr => ?_⟩
    rw [h.recordEntries, List.mem_cons, List.mem_singleton] at hr
    rcases hr with rfl | rfl
    · exact Nat.le_of_ble_eq_true rfl
    · exact Nat.le_of_ble_eq_true rfl
  simp only [App.sections, sectionsWith, List.forall_mem_cons]
  exact ⟨hbare rfl, hcode, hbare rfl, hbare rfl, hrecord, hbare rfl, hbare rfl, hbare rfl, hbare rfl, nofun⟩

/-- **The file is read** as the object, whatever the exports and the free space. -/
lemma inspected (hlimits : Fits config entry) : ∃ l : Array SectionInfo,
    l.toList = App.sections name entry w ∧
      Job.Inspected config src ⟨l, symtabHeader w, strtabHeader entry w⟩ (App.symbolTable entry w config) := by
  obtain ⟨l, ho, hl⟩ := h.ofHeaders_eq
  exact ⟨l, hl, (h.accepted hlimits ho).parsed, h.symbolTable_eq hlimits, fun s hs => h.tablesFit s (hl ▸ hs)⟩

/-! ### Symbols -/

lemma entry_eq {i : Nat} {s : Symbol} (hi : (symbols name entry)[i]? = some s) :
    (App.symbolTable entry w config).entry src i = .ok s := by
  have hlt : i < 5 := (List.getElem?_eq_some_iff.1 hi).1
  have hheld := SymbolTable.entry_held (t := App.symbolTable entry w config) hlt h.symbols_le
  rw [hheld]
  exact congrArg Except.ok (h.symbol_eq i s hi)

/-- The name of the entry point is read whole. -/
lemma name_eq (hlimits : Fits config entry) (hzero : 0 ∉ Bytes.ofText entry) {i : Nat} {s : Symbol}
    (hname : s.name = UInt32.ofNat ((App.symbolNames entry).offset (Bytes.ofText entry))) :
    (App.symbolTable entry w config).name i s = .ok entry := by
  have hnamed := NameTable.ofNames_named (List.mem_map_of_mem (f := Bytes.ofText) (List.mem_of_getElem?
    (l := ["app_name", "app_desc", entry, "app_start"]) (i := 2) rfl))
  change (App.symbolNames entry).bytes.NamedAt ((App.symbolNames entry).offset (Bytes.ofText entry))
    (Bytes.ofText entry) at hnamed
  have hlt := hnamed.lt
  have hle := h.symbolNames_le
  have hsize := h.size_lt
  have hentry := hlimits.entry
  have hoffset : s.name.toNat = (App.symbolNames entry).offset (Bytes.ofText entry) := by
    rw [hname]
    exact UInt32.toNat_ofNat_of_lt' (by omega)
  have hcut : (App.symbolTable entry w config).strings.NamedAt
      ((App.symbolNames entry).offset (Bytes.ofText entry)) (Bytes.ofText entry) :=
    hnamed.cut (by rw [Array.size_push]; omega)
  have hin := hcut.lt
  unfold SymbolTable.name
  rw [hoffset, if_neg (by omega), hcut.untilZero?_eq hzero]
  dsimp only
  rw [Bytes.text?_ofText]

/-- The entry point is the first global symbol of its name. -/
lemma isFirst (hlimits : Fits config entry) (hzero : 0 ∉ Bytes.ofText entry) :
    ∃ s : Symbol, (App.symbolTable entry w config).IsFirst src entry 4 s ∧ s.value = 1 ∧ s.info = 0x12 ∧
      s.shndx = 1 := by
  have hglobal : ∀ {s : Symbol} {i : UInt8}, s.info = i → s.isGlobal = ((i >>> 4).toNat == 1) := by
    rintro s _ rfl
    rfl
  have hlocal : ∀ {s : Symbol} {i : UInt8} (j : Nat), s.info = i → ((i >>> 4).toNat == 1) = false →
      ¬ (App.symbolTable entry w config).defines entry j s := by
    intro s i j hinfo hi
    unfold SymbolTable.defines
    rw [hglobal hinfo, hi]
    exact nofun
  refine ⟨_, ⟨by omega, h.entry_eq (i := 4) rfl, ?_, ?_⟩, rfl, rfl, rfl⟩
  · unfold SymbolTable.defines
    rw [h.name_eq hlimits hzero rfl, hglobal (i := 0x12) rfl]
    exact beq_self_eq_true entry
  · intro j hpos hlt
    have hj : j = 1 ∨ j = 2 ∨ j = 3 := by omega
    rcases hj with rfl | rfl | rfl
    · exact ⟨_, h.entry_eq rfl, hlocal (i := 1) 1 rfl (by decide)⟩
    · exact ⟨_, h.entry_eq rfl, hlocal (i := 1) 2 rfl (by decide)⟩
    · exact ⟨_, h.entry_eq rfl, hlocal (i := 2) 3 rfl (by decide)⟩

/-! ### Linking -/

variable {scope : Scope} (hscope : scope.symbols = App.symbolTable entry w config)

include hscope

/-- A symbol is at its value in its section. -/
lemma rule_eq {i : Nat} {s : Symbol} {base a : Addr} (hi : (symbols name entry)[i + 1]? = some s)
    (hundefined : s.isUndefined = false) (habsolute : s.isAbsolute = false)
    (hbase : scope.placement.get? s.home = some base) (ha : base + s.value = a) :
    scope.rule src (i + 1) = .ok a := by
  unfold Scope.rule Scope.meaning
  rw [if_neg (Nat.succ_ne_zero i), hscope, h.entry_eq hi]
  dsimp only
  rw [hundefined, habsolute, hbase, ← ha]
  rfl

variable {base code label record : Addr} {strict : Bool}

/-- The address of the descriptor is filled in after the instructions. -/
lemma links_code (hrecord : scope.placement.get? 4 = some record) :
    (codeSection w).Links src base strict (scope.rule src) 0 12 (linkedCode record) := by
  have hle := h.code_le
  have hsize := h.size_lt
  have hoffset : (codeSection w).header.offset = w.code := UInt32.toNat_ofNat_of_lt' (by omega)
  have hfile : src.data.slice w.code 12 = App.code := h.code
  have hentries : (codeSection w).entries src.data = [⟨8, 0x202⟩] := h.codeEntries
  have hroom : App.code = instructions ++ (Bytes.zeros 4 ++ #[]) := by decide
  have hlink := Relocation.link_word base strict instructions #[] (r := ⟨8, 0x202⟩) (by decide) rfl
    (h.rule_eq hscope (i := 1) rfl rfl rfl hrecord (UInt32.add_zero _))
  unfold SectionInfo.Links
  rw [hoffset, Nat.add_zero]
  refine ⟨fun _ => hle, ?_⟩
  rw [hfile, hentries, hroom, Relocation.linkAll_cons_ok hlink, Array.append_empty]
  rfl

omit hscope in
/-- The name stays as it is. -/
lemma links_label : (labelSection name w).Links src base strict (scope.rule src) 0
    (App.label name).size (App.label name) := by
  have hle := h.label_le
  have hsize := h.size_lt
  have hoffset : (labelSection name w).header.offset = w.label := UInt32.toNat_ofNat_of_lt' (by omega)
  unfold SectionInfo.Links
  rw [hoffset, Nat.add_zero, h.label]
  exact ⟨fun _ => hle, rfl⟩

/-- The addresses of the name and of `start` are filled in in the descriptor. -/
lemma links_record (hcode : scope.placement.get? 1 = some code)
    (hlabel : scope.placement.get? 3 = some label) :
    (recordSection w).Links src base strict (scope.rule src) 0 20
      (linkedRecord label (code + 5) category) := by
  have hle := h.record_le
  have hsize := h.size_lt
  have hoffset : (recordSection w).header.offset = w.record := UInt32.toNat_ofNat_of_lt' (by omega)
  have hfile : src.data.slice w.record 20 = App.record category := h.record
  have hentries : (recordSection w).entries src.data = [⟨0, 0x102⟩, ⟨8, 0x302⟩] := h.recordEntries
  have hzeros : Bytes.zeros 16 = Bytes.zeros 4 ++ Bytes.zeros 4 ++ Bytes.zeros 4 ++ Bytes.zeros 4 := by decide
  have hstart : Relocation.start ⟨8, 0x302⟩ = (Bytes.ofU32 label ++ Bytes.zeros 4).size := by
    rw [Array.size_append, Bytes.size_ofU32, Bytes.size_zeros]
    rfl
  have hfirst := Relocation.link_word base strict #[]
    (Bytes.zeros 4 ++ (Bytes.zeros 4 ++ (Bytes.zeros 4 ++ Bytes.ofU32 category))) (r := ⟨0, 0x102⟩)
    (by decide) rfl (h.rule_eq hscope (i := 0) rfl rfl rfl hlabel (UInt32.add_zero _))
  have hsecond := Relocation.link_word base strict (Bytes.ofU32 label ++ Bytes.zeros 4)
    (Bytes.zeros 4 ++ Bytes.ofU32 category) (by decide) hstart
    (h.rule_eq hscope (i := 2) (a := code + 5) rfl rfl rfl hcode rfl)
  rw [Array.empty_append, Array.empty_append] at hfirst
  rw [Array.append_assoc, Array.append_assoc] at hsecond
  unfold SectionInfo.Links
  rw [hoffset, Nat.add_zero]
  refine ⟨fun _ => hle, ?_⟩
  rw [hfile, hentries, App.record, hzeros]
  simp only [Array.append_assoc]
  rw [Relocation.linkAll_cons_ok hfirst, Relocation.linkAll_cons_ok hsecond, Relocation.linkAll_nil,
    linkedRecord]

end Laid

/-! ### Loading -/

/-- There is room for the instructions, the name and the descriptor. -/
structure Room (name : String) (c : Context) : Prop where
  flash : alignUp 12 c.xip.sector + alignUp (label name).size c.xip.sector ≤ c.xip.remaining
  pool : alignUp c.pool.used 4 + 20 ≤ c.pool.capacity

lemma Room.roomy {name : String} {c : Context} (h : Room name c) (w : Spots) :
    c.pool.Roomy [recordSection w] := by
  have halign : (recordSection w).header.align = 4 := rfl
  have hlayout : BlockLayout.ofSections [recordSection w] = ⟨[(recordSection w, 0)], 20, 4⟩ := by
    unfold BlockLayout.ofSections BlockLayout.layFrom BlockLayout.layFrom
    rw [halign]
    rfl
  unfold Pool.Roomy
  rw [hlayout]
  exact h.pool

/-- The instructions, the name and the descriptor are in what was free, linked. -/
structure Stored (name : String) (category : UInt32) (c c' : Context) (code label record : Addr) :
    Prop where
  code_at : ∃ k, k % c'.xip.sector = 0 ∧ k + 12 ≤ c'.xip.partition.size ∧ code = c'.xip.address k ∧
    c'.xip.bytes k 12 = linkedCode record
  label_at : ∃ k, 0 < k ∧ k + (App.label name).size ≤ c'.xip.partition.size ∧ label = c'.xip.address k ∧
    c'.xip.bytes k (App.label name).size = App.label name
  record_at : ∃ k, c.pool.used ≤ k ∧ k + 20 ≤ c'.pool.capacity ∧ record = c'.pool.base + UInt32.ofNat k ∧
    c'.pool.mem.slice k 20 = linkedRecord label (code + 5) category

/-- The plan is one for the app, which puts its sections there. -/
structure Planned (name entry : String) (w : Spots) (config : LoaderConfig) (p : Job.Plan)
    (code label : FlashSpan) (block : Block) (offset : Nat) : Prop where
  sections_eq : p.object.sections.toList = sections name entry w
  symbols_eq : p.symbols = symbolTable entry w config
  flash_eq : p.space.flash = [(codeSection w, code), (labelSection name w, label)]
  data_eq : p.space.data = some block
  offsets_eq : block.offsets = [(recordSection w, offset)]
  at_code : (p.space.placement p.object).get? 1 = some code.addr
  at_label : (p.space.placement p.object).get? 3 = some label.addr
  at_record : (p.space.placement p.object).get? 4 = some (Block.address block.ram offset)

/-- Instructions and name go to flash. -/
lemma inFlash_eq {o : Object} (ho : o.sections.toList = sections name entry w) :
    o.inFlash = [codeSection w, labelSection name w] := by
  rw [Object.inFlash, ho]
  rfl

/-- The descriptor is the one variable, and there is nothing to clear. -/
lemma ofClass_eq {o : Object} (ho : o.sections.toList = sections name entry w) :
    o.ofClass .data = [recordSection w] ∧ o.ofClass .bss = [] := by
  unfold Object.ofClass
  rw [ho]
  exact ⟨rfl, rfl⟩

namespace Laid

variable (h : Laid name entry category w src.data) {c : Context}

include h

/-- Where there is room for the app, it is granted its space. -/
lemma granted (hroom : Room name c) (hxip : c.xip.partition.size < sizeLimit)
    (hcapacity : c.pool.capacity < sizeLimit) {o : Object} (ho : o.sections.toList = App.sections name entry w) :
    ∃ space e, Job.Granted o space c e := by
  obtain ⟨hdata, hbss⟩ := ofClass_eq ho
  refine Job.granted_of_roomy ?_ ?_ hbss hxip hcapacity
  · have hlabel : (labelSection name w).size = (App.label name).size := h.size_labelHeader
    have hcode : (codeSection w).size = 12 := rfl
    rw [inFlash_eq ho]
    simp only [List.map_cons, List.map_nil, List.sum_cons, List.sum_nil, hlabel, hcode, Nat.add_zero]
    exact hroom.flash
  · rw [hdata]
    exact hroom.roomy w

variable {p : Job.Plan} {e : Context}

omit h in
/-- A settled plan has a span for the instructions, one for the name, and a block for the descriptor alone. -/
lemma planned (hsettled : p.Settled config src c e) (ho : p.object.sections.toList = App.sections name entry w)
    (hsymbols : p.symbols = App.symbolTable entry w config) :
    ∃ code label block offset, Planned name entry w config p code label block offset := by
  have hreserved := hsettled.reserved
  obtain ⟨hdata, -⟩ := ofClass_eq ho
  have hflash := hreserved.sections_eq
  rw [inFlash_eq ho] at hflash
  obtain ⟨⟨-, code⟩, rest, hflash', rfl, hrest⟩ := List.map_eq_cons_iff.1 hflash
  obtain ⟨⟨-, label⟩, rest, rfl, rfl, hnil⟩ := List.map_eq_cons_iff.1 hrest
  obtain rfl := List.map_eq_nil_iff.1 hnil
  obtain ⟨q, hgiven, -⟩ := hreserved.data
  obtain ⟨block, hblock, offset, hoffset⟩ := Job.given_mem hgiven (s := recordSection w)
    (by rw [hdata]; exact .head _)
  have hoffsets : block.offsets = [(recordSection w, offset)] := by
    have hall := (hreserved.housed.1 block hblock).sections_eq
    rw [hdata] at hall
    obtain ⟨q, rest, hq, -, hrest⟩ := List.map_eq_cons_iff.1 hall
    obtain rfl := List.map_eq_nil_iff.1 hrest
    rw [hq, List.mem_singleton] at hoffset
    rw [hq, hoffset]
  have hspot := fun {s : SectionInfo} {a : Addr} (hs : s ∈ App.sections name entry w) =>
    hreserved.get?_spot (a := a) hsettled.inspected.describes (ho ▸ hs)
  refine ⟨code, label, block, offset, ho, hsymbols, hflash', hblock, hoffsets, ?_, ?_, ?_⟩
  · refine hspot (s := codeSection w) (List.mem_of_getElem? (i := 1) rfl) (List.mem_append_left _ ?_)
    rw [hflash']
    exact .head _
  · refine hspot (s := labelSection name w) (List.mem_of_getElem? (i := 3) rfl) (List.mem_append_left _ ?_)
    rw [hflash']
    exact .tail _ (.head _)
  · refine hspot (s := recordSection w) (List.mem_of_getElem? (i := 4) rfl)
      (List.mem_append_right _ (List.mem_append_left _ ?_))
    rw [hblock, Option.map_some, Option.getD_some, Block.spots, hoffsets]
    exact .head _

/-- **The plan** of loading the app: the object, and space for its sections. -/
lemma settled (hlimits : Fits config entry) (hroom : Room name c)
    (hxip : c.xip.partition.size < sizeLimit) (hcapacity : c.pool.capacity < sizeLimit) :
    ∃ p e code label block offset, p.Settled config src c e ∧
      Planned name entry w config p code label block offset := by
  obtain ⟨l, hl, hinspected⟩ := h.inspected hlimits
  obtain ⟨space, e, hgranted⟩ :=
    h.granted (o := ⟨l, symtabHeader w, strtabHeader entry w⟩) hroom hxip hcapacity hl
  have hsettled : Job.Plan.Settled config src c e
      ⟨⟨l, symtabHeader w, strtabHeader entry w⟩, App.symbolTable entry w config, space⟩ :=
    ⟨hinspected, hgranted⟩
  obtain ⟨code, label, block, offset, hg⟩ := planned hsettled hl rfl
  exact ⟨_, e, code, label, block, offset, hsettled, hg⟩

variable {code label : FlashSpan} {block : Block} {offset : Nat}

/-- The module is entered at its first instruction. -/
lemma entered (hlimits : Fits config entry) (hzero : 0 ∉ Bytes.ofText entry)
    (hg : Planned name entry w config p code label block offset) (exports : Lookup) :
    ((p.scope exports).entryAddress entry src).result = .ok ((code.addr + 1) ||| 1) := by
  have hscope : (p.scope exports).symbols = App.symbolTable entry w config := hg.symbols_eq
  obtain ⟨s, hfirst, hvalue, hinfo, hhome⟩ := h.isFirst hlimits hzero
  have habsolute : s.isAbsolute = false := by
    unfold Symbol.isAbsolute
    rw [hhome]
    rfl
  have hfunction : s.isFunction = true := by
    unfold Symbol.isFunction Symbol.type
    rw [hinfo]
    decide
  have hplace : s.home = 1 := by
    unfold Symbol.home
    rw [hhome]
    rfl
  have hbase : (if s.isAbsolute then some 0 else (p.scope exports).placement.get? s.home) = some code.addr := by
    rw [habsolute, hplace]
    exact hg.at_code
  rw [← hscope] at hfirst
  rw [Scope.entryAddress_first hfirst (hscope ▸ Nat.lt_succ_self 4) hbase, hfunction, hvalue]
  rfl

/-- The two spans follow one another from the bump offset on, and hold instructions and name. -/
lemma spans (hsound : c.xip.Sound) (hsettled : p.Settled config src c e)
    (hg : Planned name entry w config p code label block offset) :
    (code.offset = c.xip.nextFree ∧ code.addr = c.xip.address code.offset ∧ 12 ≤ code.len) ∧
      (label.offset = code.offset + code.len ∧ label.addr = c.xip.address label.offset ∧
        (App.label name).size ≤ label.len) ∧
      label.offset + label.len ≤ c.xip.partition.size := by
  have hsize : (labelSection name w).size = (App.label name).size := h.size_labelHeader
  have hspans := hsettled.reserved.spans
  have hend := hsettled.reserved.room hsound.free_le
  rw [hg.flash_eq] at hspans
  obtain ⟨hcode, hlabel, hnext⟩ := hspans
  change c.xip.nextFree + code.len + label.len = e.xip.nextFree at hnext
  have hlabelAt : label.offset = c.xip.nextFree + code.len := by rw [hlabel]
  refine ⟨⟨by rw [hcode], by rw [hcode], ?_⟩, ⟨by rw [hlabelAt, hcode], by rw [hlabel], ?_⟩, by omega⟩
  · rw [hcode]
    exact le_alignUp _ hsound.sector_pos
  · rw [hlabel, hsize]
    exact le_alignUp _ hsound.sector_pos

variable {c' : Context} {exports : Lookup} {image : Image} {id : String}

/-- The descriptor is in its block, with the addresses of the others. -/
lemma stored_record (hsettled : p.Settled config src c e)
    (hg : Planned name entry w config p code label block offset)
    (hloaded : p.Loaded config src id exports entry c e c' image) :
    ∃ k, c.pool.used ≤ k ∧ k + 20 ≤ c'.pool.capacity ∧
      Block.address block.ram offset = c'.pool.base + UInt32.ofNat k ∧
      c'.pool.mem.slice k 20 = linkedRecord label.addr (code.addr + 5) category := by
  have hscope : (p.scope exports).symbols = App.symbolTable entry w config := hg.symbols_eq
  have hhoused := hsettled.reserved.housed.1 block hg.data_eq
  have hmem : (recordSection w, offset) ∈ block.offsets := by rw [hg.offsets_eq]; exact .head _
  have hlaid : offset + 20 ≤ block.ram.len := (hhoused.laid.mem hmem).2
  have hused := hhoused.used_le
  have hfits := hhoused.fits fun s hs => by
    rw [← hhoused.sections_eq, hg.offsets_eq, List.map_singleton, List.mem_singleton] at hs
    rw [hs]
    exact Nat.succ_pos 19
  have hwrote := hloaded.committed.toWrote
  have hbase : c'.pool.base = c.pool.base := hwrote.pool.base_eq.trans hsettled.reserved.base_eq
  have hcapacity : c'.pool.capacity = c.pool.capacity :=
    hwrote.pool.same.size_eq.symm.trans hsettled.reserved.capacity_eq
  refine ⟨block.ram.offset + offset, by omega, by omega, ?_, ?_⟩
  · rw [Block.address, hhoused.addr_eq, hbase, add_ofNat_ofNat]
  · exact (hloaded.committed.toLinked.data block hg.data_eq (recordSection w, offset) hmem).unique
      (h.links_record hscope hg.at_code hg.at_label)

/-- What has been carried out is in its place. -/
lemma stored (hsound : c.xip.Sound) (hsettled : p.Settled config src c e)
    (hg : Planned name entry w config p code label block offset)
    (hloaded : p.Loaded config src id exports entry c e c' image) :
    Stored name category c c' code.addr label.addr (Block.address block.ram offset) := by
  have hscope : (p.scope exports).symbols = App.symbolTable entry w config := hg.symbols_eq
  have hlinked := hloaded.committed.toLinked
  have hwrote := hloaded.committed.toWrote
  have hpartition : c'.xip.partition = c.xip.partition :=
    hwrote.xip.partition_eq.trans hsettled.reserved.partition_eq
  have hsector : c'.xip.sector = c.xip.sector := hwrote.xip.sector_eq.trans hsettled.reserved.sector_eq
  have haddress : ∀ k, c.xip.address k = c'.xip.address k := fun k => by
    rw [Region.address, Region.address, hpartition]
  obtain ⟨⟨hcodeAt, hcodeAddr, hcodeLen⟩, ⟨hlabelAt, hlabelAddr, hlabelLen⟩, hend⟩ :=
    h.spans hsound hsettled hg
  refine ⟨⟨code.offset, ?_, ?_, ?_, ?_⟩, ⟨label.offset, ?_, ?_, ?_, ?_⟩,
    h.stored_record hsettled hg hloaded⟩
  · rw [hcodeAt, hsector]
    exact hsound.free_aligned
  · rw [hpartition]
    omega
  · rw [← haddress, hcodeAddr]
  · exact (hlinked.flash (codeSection w, code) (by rw [hg.flash_eq]; exact .head _)).unique
      (h.links_code hscope hg.at_record)
  · omega
  · rw [hpartition]
    omega
  · rw [← haddress, hlabelAddr]
  · have hlinks := hlinked.flash (labelSection name w, label) (by rw [hg.flash_eq]; exact .tail _ (.head _))
    have hsize : (labelSection name w).size = (App.label name).size := h.size_labelHeader
    dsimp only at hlinks
    rw [hsize] at hlinks
    exact hlinks.unique h.links_label

end Laid

end Samples.App

end FlashLink
