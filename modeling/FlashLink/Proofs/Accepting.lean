import FlashLink.Proofs.OneShot
import Mathlib.Algebra.GroupWithZero.Nat

/-!
What loading asks of a module, as conditions under which no stage refuses it. What a stage then answers
is known from what it answers whenever it answers, so only refusals have to be ruled out.
-/

namespace FlashLink

open Act

lemma Act.Sat.of_false {σ α : Type} {x : Act σ α} {s : σ} {P Q : α → σ → Prop}
    {E : Error → σ → Prop} (h : Sat x s P fun _ _ => False) (h' : Sat x s Q E) : Sat x s Q fun _ _ => False :=
  (h.and h').mono (fun _ _ h => h.2) fun _ _ h => h.1

/-- The class of a section depends on its type, its flags, and whether it has contents. -/
lemma SectionHeader.class?_congr {g h : SectionHeader} (htype : g.type = h.type)
    (hflags : g.rawFlags = h.rawFlags) (hsize : g.size = 0 ↔ h.size = 0) : g.class? = h.class? := by
  have hempty : (g.size == 0) = (h.size == 0) := Bool.eq_iff_iff.2 (by simpa using hsize)
  unfold class? isAllocated isExecutable isWritable flags
  rw [hempty, htype, hflags]

lemma SectionHeader.class?_none {h : SectionHeader} {flags : UInt32} (hflags : h.rawFlags = flags)
    (hfree : flags &&& 7 &&& 2 = 0) : h.class? = none := by
  unfold class? isAllocated SectionHeader.flags
  rw [hflags, hfree]
  rfl

/-! ### Linking -/

namespace Relocation

open Bytes

/-- An address is filled in where there was room for it. -/
lemma link_word (base : Addr) (strict : Bool) {rule : Rule} (l rest : Bytes) {r : Relocation} {a : Addr}
    (hkind : r.kind = .absolute) (hstart : r.start = l.size) (hrule : rule r.symbol = .ok a) :
    link 0 base strict rule (l ++ (zeros 4 ++ rest)) r = .ok (l ++ (ofU32 a ++ rest)) := by
  have hsize : (zeros 4).size = 4 := rfl
  have hfield : field base strict rule r (zeros 4) = .ok (ofU32 a) := by
    have hzero : (zeros 4).u32 0 = 0 := by decide
    unfold field
    rw [hkind]
    dsimp only
    rw [hrule, hzero, Except.map, absoluteField, UInt32.zero_add]
  have hold : (l ++ (zeros 4 ++ rest)).slice l.size 4 = zeros 4 := by
    rw [← Nat.add_zero l.size, slice_append_right, slice_append_left (by omega)]
    exact slice_whole (zeros 4)
  have hnew : (zeros 4).overwrite 0 (ofU32 a) = ofU32 a := by
    rw [← slice_whole ((zeros 4).overwrite 0 (ofU32 a)), size_overwrite]
    exact slice_overwrite rfl (Nat.le_refl _)
  unfold link
  rw [if_pos (inside_iff.2 ⟨Nat.zero_le _, ?_⟩), Nat.sub_zero, hstart, hold, hfield, Except.map]
  · rw [← Nat.add_zero l.size, overwrite_append_right, overwrite_append_left (Nat.le_refl 4), hnew]
  · rw [stop, hstart, Array.size_append, Array.size_append, hsize]
    omega

/-- An entry that is applied leaves the rest of the table to apply. -/
lemma linkAll_cons_ok {first : Nat} {base : Addr} {strict : Bool} {rule : Rule} {r : Relocation}
    {rs : List Relocation} {buf b : Bytes} (h : link first base strict rule buf r = .ok b) :
    linkAll first base strict rule (r :: rs) buf = linkAll first base strict rule rs b := by
  rw [linkAll_cons, h]
  rfl

end Relocation

variable {src u : Source} {config : LoaderConfig}

/-! ### Parsing -/

namespace Object

/-- Bytes that the source delivers are read. -/
lemma read_delivered (hu : Source.Same src u) {offset len : Nat} (h : ∃ b, src.fetch offset len = .ok b) :
    Sat (Source.read offset len) u (fun b v => Source.Same src v ∧ b = src.data.slice offset len)
      fun _ _ => False := by
  refine (Source.read_same hu offset len).mono (fun _ _ h => ⟨h.1, h.2.2⟩) ?_
  rintro e v ⟨-, he⟩
  obtain ⟨b, hb⟩ := h
  cases hb.symm.trans he

lemma readStrings_delivered (hu : Source.Same src u) {h : SectionHeader} {limit : Nat}
    (hd : ∃ b, src.fetch h.offset (min h.size limit) = .ok b) :
    Sat (readStrings h limit) u
      (fun b v => Source.Same src v ∧ b = src.data.slice h.offset (min h.size limit))
      fun _ _ => False := by
  refine (readStrings_same hu h limit).mono (fun _ _ h => h) ?_
  rintro e v ⟨-, he⟩
  obtain ⟨b, hb⟩ := hd
  cases hb.symm.trans he

lemma readHeaders_held (hu : Source.Same src u) {offset left index : Nat}
    (h : offset + (index + left) * SectionHeader.width ≤ src.data.size) :
    Sat (readHeaders offset left index) u (fun _ v => Source.Same src v) fun _ _ => False := by
  induction left generalizing index u with
  | zero => exact hu
  | succ left ih =>
    have hwidth : SectionHeader.width = 40 := rfl
    rw [hwidth] at h
    unfold readHeaders
    refine Sat.bind (read_delivered hu ⟨_, Source.fetch_of_le (by decide) (by rw [hwidth]; omega)⟩) ?_
      fun _ _ h => h
    rintro b v ⟨hv, -⟩
    refine Sat.bind (ih hv (by rw [hwidth]; omega)) ?_ fun _ _ h => h
    exact fun _ _ hw => hw

/-- The limits allow for the object, its headers and the names of its sections lie in the file, and
they describe it. -/
structure Accepted (config : LoaderConfig) (data : Bytes) (o : Object) : Prop where
  file : ∃ h, FileHeader.parse (data.slice 0 FileHeader.width) = .ok h ∧ h.shnum.toNat ≠ 0 ∧
    h.shnum.toNat ≤ config.maxSections ∧
    h.shoff.toNat + h.shnum.toNat * SectionHeader.width ≤ data.size ∧
    ∃ names, (rawHeaders data)[h.shstrndx.toNat]? = some names ∧
      0 < min names.size config.maxNames ∧
      names.offset + min names.size config.maxNames ≤ data.size
  size_le : FileHeader.width ≤ data.size
  described : ofHeaders (rawNames config data) (rawHeaders data) = .ok o

variable {o : Object}

lemma Accepted.readLayout (h : Accepted config src.data o) :
    Sat (readLayout config.maxSections) src (fun _ v => Source.Same src v) fun _ _ => False := by
  obtain ⟨file, hparse, hsome, hmax, hheaders, -⟩ := h.file
  unfold Object.readLayout
  refine Sat.bind (read_delivered (.refl src) ⟨_, Source.fetch_of_le (by decide) ?_⟩) ?_
    fun _ _ h => h
  · rw [Nat.zero_add]
    exact h.size_le
  rintro b v ⟨hv, rfl⟩
  rw [hparse]
  refine Sat.bind (P := fun f w => f = file ∧ Source.Same src w) (G := fun _ _ => False) ⟨rfl, hv⟩ ?_
    fun _ _ h => h
  rintro f w ⟨rfl, hw⟩
  dsimp only
  rw [if_neg hsome, if_neg (by omega)]
  have hheld : f.shoff.toNat + (0 + f.shnum.toNat) * SectionHeader.width ≤ src.data.size := by
    rwa [Nat.zero_add]
  exact (readHeaders_held hw hheld).bind (fun _ _ hw => sat_pure.2 hw) fun _ _ h => h

/-- **An object that is accepted** is what parsing answers. -/
lemma Accepted.parsed (h : Accepted config src.data o) : (parse config src).result = .ok o := by
  suffices hsat : Sat (parse config) src (fun o' _ => o' = o) fun _ _ => False by
    obtain ⟨_, _, _, hrun, rfl⟩ := hsat.exists_ok
    rw [hrun]
  obtain ⟨file, hparse, -, -, -, names, hnames, hpos, hheld⟩ := h.file
  unfold parse
  refine Sat.bind (h.readLayout.of_false (readLayout_sat (.refl src) config.maxSections)) ?_
    fun _ _ h => h
  rintro ⟨_, _⟩ v ⟨hv, rfl, rfl⟩
  rw [← fileHeader_parse_ok hparse]
  dsimp only
  rw [hnames]
  refine Sat.bind (readStrings_delivered hv ⟨_, Source.fetch_of_le hpos hheld⟩) ?_ fun _ _ h => h
  rintro _ w ⟨-, rfl⟩
  have hdescribed := h.described
  rw [rawNames, ← fileHeader_parse_ok hparse, hnames] at hdescribed
  dsimp only at hdescribed
  rw [hdescribed]
  exact rfl

/-- The symbol names that the limit leaves can be read. -/
lemma symbolTable_held (hpos : 0 < min o.strtab.size config.maxStrings)
    (hheld : o.strtab.offset + min o.strtab.size config.maxStrings ≤ src.data.size) :
    (o.symbolTable config src).result = .ok ⟨o.symtab.offset, o.symtab.size / Symbol.width,
      src.data.slice o.strtab.offset (min o.strtab.size config.maxStrings)⟩ := by
  suffices hsat : Sat (o.symbolTable config) src (fun _ _ => True) fun _ _ => False by
    obtain ⟨_, _, _, hrun, -, rfl⟩ := (hsat.of_false (symbolTable_sat (.refl src) o config)).exists_ok
    rw [hrun]
  unfold symbolTable
  refine Sat.bind (readStrings_delivered (.refl src) ⟨_, Source.fetch_of_le hpos hheld⟩) ?_ fun _ _ h => h
  exact fun _ _ _ => trivial

section

variable {names : Bytes} {index : Nat} {seen last : Option SectionHeader} {h : SectionHeader}
  {hs : List SectionHeader} {name : String} {cls : Option SectionClass} {rest : List SectionInfo}

/-- A section that is no symbol table is named and classified. -/
lemma describe_plain (hname : sectionName names index h = .ok name) (hclass : h.class? = cls)
    (htype : (h.type == SectionHeader.symtab) = false)
    (hrest : describe names (index + 1) seen hs = .ok (rest, last)) :
    describe names index seen (h :: hs) = .ok (⟨index, name, h, cls, none⟩ :: rest, last) := by
  have hother : h.type ≠ SectionHeader.symtab := beq_eq_false_iff_ne.1 htype
  unfold describe
  rw [hname]
  change (if h.type = SectionHeader.symtab then _ else _) = _
  rw [if_neg hother, if_neg hother, hrest, ← hclass]
  rfl

/-- The first symbol table is remembered. -/
lemma describe_symtab (hname : sectionName names index h = .ok name) (hclass : h.class? = cls)
    (htype : h.type = SectionHeader.symtab) (hentries : h.entrySize.toNat = Symbol.width)
    {count : Nat} (hsize : h.size = count * Symbol.width)
    (hrest : describe names (index + 1) (some h) hs = .ok (rest, last)) :
    describe names index none (h :: hs) = .ok (⟨index, name, h, cls, none⟩ :: rest, last) := by
  have hcheck : checkSymtab none h = .ok () := by
    unfold checkSymtab
    rw [if_neg nofun, if_neg (by rw [hentries, hsize, Nat.mul_mod_left]; simp)]
  unfold describe
  rw [hname]
  change (if h.type = SectionHeader.symtab then _ else _) = _
  rw [if_pos htype, if_pos htype, hcheck, ← hclass]
  change (describe names (index + 1) (some h) hs >>= _) = _
  rw [hrest]
  rfl

end

/-- Only the headers of tables matter. -/
lemma attachTables_filter (l : List SectionInfo) (sections : Array SectionInfo) :
    attachTables l sections = attachTables (l.filter fun s =>
      s.header.type = SectionHeader.rel ∨ s.header.type = SectionHeader.rela) sections := by
  induction l generalizing sections with
  | nil => rfl
  | cons s rest ih =>
    rw [List.filter_cons]
    split_ifs with htable
    · unfold attachTables
      refine congrArg (tableFor sections s.index s.header >>= ·) (funext fun found => ?_)
      rcases found with _ | ⟨target, table⟩
      · exact ih sections
      · exact ih _
    · have hnone : tableFor sections s.index s.header = .ok none := by
        unfold tableFor
        rw [decide_eq_true_eq, not_or] at htable
        rw [if_pos htable]
      conv_lhs => unfold attachTables
      rw [hnone]
      exact ih sections

/-- A well-formed table is given to the section that it is for. -/
lemma attachTables_table {s t : SectionInfo} {rest : List SectionInfo} {sections : Array SectionInfo}
    {cls : SectionClass} {count : Nat} (htype : s.header.type = SectionHeader.rel)
    (ht : sections[s.header.info.toNat]? = some t) (hclass : t.header.class? = some cls)
    (hentries : s.header.entrySize.toNat = Relocation.width)
    (hsize : s.header.size = count * Relocation.width) (hsome : count ≠ 0) (hcls : t.cls = some cls)
    (hbss : cls ≠ .bss) (hbare : t.relocations = none) :
    attachTables (s :: rest) sections = attachTables rest (sections.modify s.header.info.toNat fun t =>
      { t with relocations := some ⟨s.header.offset, count⟩ }) := by
  have hwhole : count * Relocation.width % Relocation.width = 0 := Nat.mul_mod_left ..
  have hcount : count * Relocation.width / Relocation.width = count :=
    Nat.mul_div_cancel _ (by decide)
  have halloc := ((SectionHeader.isSome_class? t.header).1 (by rw [hclass]; rfl)).1
  have htable : tableFor sections s.index s.header = .ok (some (s.header.info.toNat,
      ⟨s.header.offset, count⟩)) := by
    have hrel : SectionHeader.rel ≠ SectionHeader.rela := by decide
    unfold tableFor
    dsimp only
    rw [htype, ht, if_neg (fun h => h.1 rfl)]
    dsimp only
    rw [halloc, hentries, hsize, hwhole, hcount, hcls, hbare, if_neg nofun, if_neg hrel, if_neg (by simp),
      if_neg hsome]
    cases cls
    case bss => exact absurd rfl hbss
    case text | readOnly | data => rfl
  conv_lhs => unfold attachTables
  rw [htable]
  rfl

/-- A section table with one symbol table, whose names it links to, is that of an object. -/
lemma ofHeaders_eq {names : Bytes} {hs : List SectionHeader} {bare : List SectionInfo}
    {sections : Array SectionInfo} {symtab strtab : SectionHeader}
    (hdescribe : describe names 0 none hs = .ok (bare, some symtab)) (hlink : symtab.link.toNat ≠ 0)
    (hstrtab : hs[symtab.link.toNat]? = some strtab)
    (hattach : attachTables bare bare.toArray = .ok sections) :
    ofHeaders names hs = .ok ⟨sections, symtab, strtab⟩ := by
  unfold ofHeaders
  have hbind : ∀ (r : List SectionInfo × Option SectionHeader)
      (f : List SectionInfo × Option SectionHeader → Except Error Object), Except.ok r >>= f = f r :=
    fun _ _ => rfl
  rw [hdescribe, hbind]
  dsimp only
  rw [if_neg hlink, hstrtab]
  dsimp only
  rw [hattach]
  rfl

end Object

/-! ### Reserving -/

/-- There is room in the pool for a block of these sections. -/
def Pool.Roomy (p : Pool) (sections : List SectionInfo) : Prop :=
  let l := BlockLayout.ofSections sections
  alignUp p.used (max l.align Pool.minAlign) + l.size ≤ p.capacity

lemma Pool.Roomy.reserve {p : Pool} {sections : List SectionInfo} (h : p.Roomy sections)
    (hlimit : p.capacity < sizeLimit) :
    Sat (Block.reserve sections) p (fun _ _ => True) fun _ _ => False := by
  have hroom := h
  unfold Pool.Roomy at hroom
  unfold Block.reserve
  split_ifs
  · trivial
  dsimp only at hroom ⊢
  refine Sat.bind (P := fun _ _ => True) (G := fun _ _ => False) ?_
    (fun _ _ _ => Sat.note_bind (sat_pure.2 trivial)) fun _ _ h => h
  unfold Sat Pool.reserve
  dsimp only
  rw [if_neg (by omega), if_neg (by omega)]
  trivial

namespace Job

lemma reserveFlash_roomy {sections : List SectionInfo} {j : Job}
    (hroom : (sections.map fun s => alignUp s.size j.context.xip.sector).sum ≤ j.context.xip.remaining)
    (hlimit : j.context.xip.partition.size < sizeLimit) :
    Sat (reserveFlash sections) j (fun _ _ => True) fun _ _ => False := by
  induction sections generalizing j with
  | nil => trivial
  | cons s rest ih =>
    rw [List.map_cons, List.sum_cons] at hroom
    have hfits : Sat (Region.reserve s.size) j.context.xip (fun _ _ => True) fun _ _ => False := by
      unfold Region.remaining at hroom
      unfold Sat Region.reserve Region.remaining
      dsimp only
      rw [if_neg (by omega), if_neg (by omega)]
      trivial
    unfold reserveFlash
    refine Sat.bind (P := fun _ j' =>
      (rest.map fun s => alignUp s.size j'.context.xip.sector).sum ≤ j'.context.xip.remaining ∧
        j'.context.xip.partition.size < sizeLimit) (G := fun _ _ => False) (sat_zoom.2 ?_)
      (fun _ j' h => ?_) fun _ _ h => h
    · refine (hfits.of_false (Region.reserve_sat s.size _)).mono ?_ fun _ _ h => h
      rintro _ _ ⟨rfl, hle, rfl⟩
      have hlen : (j.context.xip.nextSpan s.size).len = alignUp s.size j.context.xip.sector := rfl
      refine ⟨?_, hlimit⟩
      change (rest.map fun s => alignUp s.size j.context.xip.sector).sum ≤
        j.context.xip.partition.size - (j.context.xip.nextFree + (j.context.xip.nextSpan s.size).len)
      unfold Region.remaining at hroom
      omega
    · exact Sat.bind (ih h.1 h.2) (fun _ _ _ => sat_pure.2 trivial) fun _ _ h => h

/-- **Space is granted** to an object without cleared variables that there is room for. -/
lemma granted_of_roomy {o : Object} {c : Context}
    (hflash : (o.inFlash.map fun s => alignUp s.size c.xip.sector).sum ≤ c.xip.remaining)
    (hpool : c.pool.Roomy (o.ofClass .data)) (hbss : o.ofClass .bss = [])
    (hxip : c.xip.partition.size < sizeLimit) (hcapacity : c.pool.capacity < sizeLimit) :
    ∃ space e, Granted o space c e := by
  let desk : Desk := ⟨⟨#[], #[], []⟩, ⟨.ofBytes "" #[], .create 0⟩⟩
  have hsat : Sat (reserve o) ⟨desk, c⟩ (fun _ _ => True) fun _ _ => False := by
    unfold reserve
    refine Sat.bind ((reserveFlash_roomy (j := ⟨desk, c⟩) hflash hxip).of_false (reserveFlash_sat _ _)) ?_
      fun _ _ h => h
    rintro _ j' ⟨-, -, -, hj'⟩
    have hp : j'.context.pool = c.pool := by
      rw [hj']
      rfl
    refine Sat.bind (P := fun _ _ => True) (G := fun _ _ => False) (sat_zoom.2 ?_) (fun _ _ _ => ?_)
      fun _ _ h => h
    · change Sat _ j'.context.pool _ _
      rw [hp]
      exact hpool.reserve hcapacity
    · rw [hbss]
      trivial
  obtain ⟨space, j, _, -, hgranted, -⟩ := (hsat.of_false (reserve_granted o ⟨desk, c⟩)).exists_ok
  exact ⟨space, j.context, hgranted⟩

end Job

/-! ### Finding symbols -/

namespace SymbolTable

variable {t : SymbolTable}

/-- A symbol that is in the table can be read. -/
lemma entry_held {i : Nat} (hi : i < t.count)
    (hheld : t.offset + t.count * Symbol.width ≤ src.data.size) :
    t.entry src i = .ok (Symbol.ofBytes (src.data.slice (t.offset + i * Symbol.width) Symbol.width)) := by
  have hwidth : Symbol.width = 16 := rfl
  unfold entry
  rw [if_neg (by omega), Source.fetch_of_le (by decide) (by rw [hwidth] at hheld ⊢; omega)]
  rfl

lemma read_entry (hu : Source.Same src u) {i : Nat} {s : Symbol} (h : t.entry src i = .ok s) :
    Sat (t.read i) u (fun a v => a = s ∧ Source.Same src v) fun _ _ => False := by
  have hread := read_yields t u i
  rw [entry_same hu, h] at hread
  refine hread.mono ?_ ?_
  · rintro a v ⟨ha, hv⟩
    exact ⟨(Except.ok.inj ha).symm, hu.trans hv⟩
  · rintro _ _ ⟨he, -⟩
    cases he

/-- The first symbol of a name is found. -/
lemma findFrom_first {name : String} {i left index : Nat} {s : Symbol} (h : t.IsFirst src name i s)
    (hu : Source.Same src u) (hindex : 0 < index) (hle : index ≤ i) (hlt : i < index + left) :
    Sat (t.findFrom name left index) u (fun found _ => found = some s) fun _ _ => False := by
  induction left generalizing index u with
  | zero => omega
  | succ left ih =>
    unfold findFrom
    rcases Nat.lt_or_ge index i with hbefore | hfound
    · obtain ⟨q, hq, hother⟩ := h.first index hindex hbefore
      refine (read_entry hu hq).bind ?_ fun _ _ h => h
      rintro _ v ⟨rfl, hv⟩
      rw [if_neg hother]
      exact ih hv (by omega) (by omega) (by omega)
    · obtain rfl : index = i := by omega
      refine (read_entry hu h.entry_eq).bind ?_ fun _ _ h => h
      rintro _ v ⟨rfl, -⟩
      rw [if_pos h.defines]
      exact rfl

end SymbolTable

namespace Scope

variable {c : Scope}

/-- A module can be entered at the first symbol of a name if that has a place. -/
lemma entryAddress_first {name : String} {i : Nat} {s : Symbol} {base : Addr}
    (h : c.symbols.IsFirst src name i s) (hi : i < c.symbols.count)
    (hbase : (if s.isAbsolute then some 0 else c.placement.get? s.home) = some base) :
    (c.entryAddress name src).result =
      .ok (if s.isFunction then (base + s.value) ||| 1 else base + s.value) := by
  suffices hsat : Sat (c.entryAddress name) src
      (fun a _ => a = if s.isFunction then (base + s.value) ||| 1 else base + s.value)
      fun _ _ => False by
    obtain ⟨_, _, _, hrun, rfl⟩ := hsat.exists_ok
    rw [hrun]
  have hpos := h.pos
  unfold entryAddress SymbolTable.findGlobal
  refine Sat.bind (SymbolTable.findFrom_first h (.refl src) Nat.one_pos hpos (by omega)) ?_
    fun _ _ h => h
  rintro _ v rfl
  dsimp only
  rw [hbase]
  exact rfl

end Scope

end FlashLink
