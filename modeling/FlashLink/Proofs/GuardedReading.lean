import FlashLink.Load.Loader
import FlashLink.Proofs.Failures
import FlashLink.Proofs.Parsing
import FlashLink.Proofs.Trials
import Mathlib.Algebra.GroupWithZero.Nat

/-!
Parsing and symbol look-up with every demand spelled out: each offset is summed up in words, each slice
of a table and each index is in bounds, and each record that is decoded has all its bytes. None of it is
ever stuck, whatever the bytes are.
-/

namespace FlashLink

open Trial

/-- The table lies where headers of 32-bit fields can say. -/
structure SymbolTable.Short (t : SymbolTable) : Prop where
  offset_lt : t.offset < 2 ^ 32
  bytes_lt : t.count * Symbol.width < 2 ^ 32

/-- The table lies where headers of 32-bit fields can say. -/
structure RelocationTable.Short (t : RelocationTable) : Prop where
  offset_lt : t.offset < 2 ^ 32
  bytes_lt : t.count * Relocation.width < 2 ^ 32

/-- There are no more sections than a 16-bit field can count, and all tables are short. -/
structure Object.Short (o : Object) : Prop where
  sections_lt : o.sections.size < 2 ^ 16
  tables : ∀ s ∈ o.sections.toList, ∀ t ∈ s.relocations, t.Short

/-- Symbols looked up so far. -/
def Linker.lookups (l : Linker) : Nat := l.cache.hits + l.cache.misses

/-- The same object and as many slots, and at most `n` more look-ups. -/
structure Linker.Counted (n : Nat) (l m : Linker) : Prop where
  same : Source.Same l.source m.source
  slots_eq : m.cache.slots.size = l.cache.slots.size
  lookups_le : m.lookups ≤ l.lookups + n

lemma Linker.Counted.refl (n : Nat) (l : Linker) : Counted n l l :=
  ⟨.refl _, rfl, Nat.le_add_right ..⟩

lemma Linker.Counted.trans {m n : Nat} {l l' l'' : Linker} (h : l.Counted m l')
    (h' : l'.Counted n l'') : l.Counted (m + n) l'' := by
  refine ⟨h.same.trans h'.same, h'.slots_eq.trans h.slots_eq, ?_⟩
  have h1 := h.lookups_le
  have h2 := h'.lookups_le
  omega

namespace Guarded

/-! ### Reads -/

/-- Bytes in memory are sliced, and copied to a buffer of as many bytes, once the bound is checked. -/
def checkRead (offset len : Nat) : Trial Source Unit := do
  if let .memory data := (← get).kind then
    if let some stop := Word.add? offset len then
      if stop ≤ data.size then
        let part ← data.span? offset stop
        Trial.check (part.size = len)

def read (offset len : Nat) : Trial Source Bytes := do
  checkRead offset len
  Source.read offset len

/-- A read into the bytes of a buffer from `start` on. -/
def readInto (start offset len : Nat) : Trial (Bytes × Source) Unit := do
  let stop ← Word.add? start len
  let _ ← (← get).1.span? start stop
  Trial.zoom Part.second (checkRead offset len)
  Source.readInto start offset len

/-- A read of a record, whose fields are then decoded from fixed places. -/
def readRecord (offset width : Nat) : Trial Source Bytes := do
  let b ← read offset width
  Trial.check (b.size = width)
  return b

/-- The text at an offset of a table, cut out by two slices; nothing if the offset is outside or the
text does not end. -/
def untilZero (table : Bytes) (start : Nat) : Option (Option Bytes) := do
  if table.size < start then return none
  let tail ← table.span? start table.size
  match tail.findIdx? (· == 0) with
  | none => return none
  | some n => return some (← tail.span? 0 n)

/-! ### Parsing -/

def readHeaders (offset : Nat) : Nat → Nat → Trial Source (List SectionHeader)
  | 0, _ => return []
  | left + 1, index => do
    let place ← Word.add? offset (← Word.mul? index SectionHeader.width)
    let b ← readRecord place SectionHeader.width
    return SectionHeader.ofBytes b :: (← readHeaders offset left (index + 1))

def readStrings (h : SectionHeader) (limit : Nat) : Trial Source Bytes := do
  if limit < h.size then Trial.note (.tableTruncated h.size limit)
  read h.offset (min h.size limit)

def sectionName (names : Bytes) (index : Nat) (h : SectionHeader) : Trial Source String := do
  if index = 0 then return ""
  match (← untilZero names h.name.toNat).bind Bytes.text? with
  | some name => return name
  | none => fail (.parse (.unreadableName index))

def describe (names : Bytes) : Nat → Option SectionHeader → List SectionHeader →
    Trial Source (List SectionInfo × Option SectionHeader)
  | _, seen, [] => return ([], seen)
  | index, seen, h :: hs => do
    let name ← sectionName names index h
    let isSymtab := h.type = SectionHeader.symtab
    if isSymtab then Trial.ofExcept (Object.checkSymtab seen h)
    let (rest, last) ← describe names (index + 1) (if isSymtab then some h else seen) hs
    return (⟨index, name, h, h.class?, none⟩ :: rest, last)

/-- Visits `left` sections from `index` on; both the section and the target of its table are looked up
by index. -/
def attachTables : Nat → Nat → Array SectionInfo → Trial Source (Array SectionInfo)
  | 0, _, sections => return sections
  | left + 1, index, sections => do
    let s ← sections[index]?
    match ← Trial.ofExcept (Object.tableFor sections index s.header) with
    | none => attachTables left (index + 1) sections
    | some (target, table) =>
      let _ ← sections[target]?
      attachTables left (index + 1)
        (sections.modify target fun t => { t with relocations := some table })

/-- The position of the symbol table among the sections. -/
def symtabPosition (sections : List SectionInfo) : Option Nat :=
  sections.findIdx? fun s => s.header.type == SectionHeader.symtab

def ofHeaders (names : Bytes) (headers : List SectionHeader) : Trial Source Object := do
  let (sections, symtab?) ← describe names 0 none headers
  match symtab? with
  | none => fail (.parse .noSymbolTable)
  | some _ =>
    let symtab ← sections[← symtabPosition sections]?
    let link := symtab.header.link.toNat
    match (if link = 0 then none else headers[link]?) with
    | none => fail (.parse .noStringTable)
    | some strtab =>
      return ⟨← attachTables sections.length 0 sections.toArray, symtab.header, strtab⟩

def readLayout (maxSections : Nat) : Trial Source (FileHeader × List SectionHeader) := do
  let file ← Trial.ofExcept (FileHeader.parse (← readRecord 0 FileHeader.width))
  let count := file.shnum.toNat
  if count = 0 then fail (.parse .noSections)
  if maxSections < count then fail (.parse (.tooManySections count maxSections))
  return (file, ← readHeaders file.shoff.toNat count 0)

def parse (config : LoaderConfig) : Trial Source Object := do
  let (file, headers) ← readLayout config.maxSections
  match headers[file.shstrndx.toNat]? with
  | none => fail (.parse .nameTable)
  | some h =>
    let names ← readStrings h config.maxNames
    ofHeaders names headers

/-- Both tables are looked up by index again. -/
def symbolTable (o : Object) (config : LoaderConfig) : Trial Source SymbolTable := do
  let symtab ← o.sections[← symtabPosition o.sections.toList]?
  let strtab ← o.sections[symtab.header.link.toNat]?
  let strings ← readStrings strtab.header config.maxStrings
  return ⟨symtab.header.offset, symtab.header.size / Symbol.width, strings⟩

/-! ### Symbols -/

def symbol (t : SymbolTable) (index : Nat) : Trial Source Symbol := do
  if t.count ≤ index then fail (.invalidSymbol index .noEntry)
  let place ← Word.add? t.offset (← Word.mul? index Symbol.width)
  return Symbol.ofBytes (← readRecord place Symbol.width)

/-- Searches `left` symbols from `index` on. The names of global, defined ones are looked up. -/
def findFrom (t : SymbolTable) (name : String) : Nat → Nat → Trial Source (Option Symbol)
  | 0, _ => return none
  | left + 1, index => do
    let s ← symbol t index
    if s.isGlobal && !s.isUndefined then
      let _ ← untilZero t.strings s.name.toNat
    if t.defines name index s then return some s
    findFrom t name left (index + 1)

def entryAddress (c : Scope) (name : String) : Trial Source Addr := do
  match ← findFrom c.symbols name (c.symbols.count - 1) 1 with
  | none => fail (.entryNotFound name)
  | some s =>
    let base? := if s.isAbsolute then some 0 else c.placement.get? s.home
    match base? with
    | none => fail (.entryNotFound name)
    | some base =>
      let addr := base + s.value
      return if s.isFunction then addr ||| 1 else addr

def address (c : Scope) (index : Nat) (s : Symbol) : Trial Linker Addr := do
  if s.isUndefined then
    let _ ← untilZero c.symbols.strings s.name.toNat
  c.address index s

/-- The slot of a symbol exists, and the look-up can be counted. -/
def lookUp (index : Nat) : Trial Linker (Option Addr) := do
  let cache := (← get).cache
  let _ ← cache.slots[cache.slot index]?
  let _ ← Word.add? (if (cache.find? index).isSome then cache.hits else cache.misses) 1
  modifyGet fun l => match l.cache.get index with
    | (found, cache) => (found, { l with cache })

def resolve (c : Scope) (index : Nat) : Trial Linker Addr := do
  if index = 0 then return 0
  match ← lookUp index with
  | some addr => return addr
  | none =>
    let s ← Trial.zoom Linker.sourcePart (symbol c.symbols index)
    let addr ← address c index s
    let cache := (← get).cache
    let _ ← cache.slots[cache.slot index]?
    modify fun l => { l with cache := l.cache.insert index addr }
    return addr

/-! ### Reads are never stuck -/

lemma unbroken_of_raised {α : Type} {K : Error → Prop} {r : Except Error α} (h : Raised K r)
    (hK : ∀ b, ¬ K (.breach b)) : Unbroken r := fun b hb => hK b (h _ hb)

/-- A fault of the object breaks no promise. -/
lemma unbroken_ofObject {α : Type} {r : Except Error α} (h : Raised Error.OfObject r) : Unbroken r :=
  unbroken_of_raised h fun _ h => h

section

variable {src s : Source} {offset len : Nat}

lemma checkRead_runs : Runs (checkRead offset len) (Pure.pure ()) s := by
  unfold checkRead
  refine Runs.peek_bind ?_
  rcases s.kind with data | _ | _
  · rcases hstop : Word.add? offset len with _ | stop
    · exact runs_pure _
    have hsum : stop = offset + len := by
      unfold Word.add? Word.ofNat? at hstop
      split_ifs at hstop
      exact (Option.some.inj hstop).symm
    dsimp only
    split_ifs with hle
    · refine Runs.need_bind (Bytes.span?_eq (by omega) hle) ?_
      exact ⟨if_pos (by simp; omega), nofun⟩
    · exact runs_pure _
  · exact runs_pure _
  · exact runs_pure _

lemma read_runs : Runs (read offset len) (Source.read offset len) s :=
  checkRead_runs.met_bind (runs_lift
    (unbroken_ofObject (Source.read_raises (fun _ => trivial) offset len s)))

lemma readInto_runs {start : Nat} {buf : Bytes} (hfit : start + len ≤ buf.size)
    (hbuf : buf.size < sizeLimit) :
    Runs (readInto start offset len) (Source.readInto start offset len) (buf, s) := by
  unfold readInto
  refine Runs.need_bind (Word.add?_eq (by omega)) (Runs.peek_bind ?_)
  refine Runs.need_bind (Bytes.span?_eq (by omega) hfit) ?_
  exact Runs.met_bind checkRead_runs.peek_second (runs_lift
    (unbroken_ofObject (Source.readInto_raises (fun _ => trivial) start offset len (buf, s))))

/-- A read that succeeds delivers all it was asked for. -/
lemma read_size : Act.Sat (Source.read offset len) s (fun b _ => b.size = len) fun _ _ => True :=
  (Source.read_yields s offset len).mono (fun _ _ h => (Source.fetch_eq_ok h.1).2.1)
    fun _ _ _ => trivial

lemma readRecord_runs {width : Nat} :
    Runs (readRecord offset width) (Source.read offset width) s := by
  rw [← bind_pure (Source.read offset width)]
  exact read_runs.bind read_size fun b t hb => Runs.check_bind hb (runs_pure _)

end

/-! ### Parsing is never stuck -/

lemma untilZero_eq (table : Bytes) (start : Nat) :
    untilZero table start = some (table.untilZero? start) := by
  unfold untilZero Bytes.untilZero?
  split_ifs with h
  · have hempty : table.extract start table.size = #[] := by simp; omega
    simp [hempty]
  · simp only [Bytes.span?_eq (show start ≤ table.size by omega) (Nat.le_refl _), Option.bind_eq_bind,
      Option.bind_some]
    rcases hn : (table.extract start table.size).findIdx? (· == 0) with _ | n
    · rfl
    · have hlt := (Array.findIdx?_eq_some_iff_getElem.1 hn).1
      simp only [Bytes.span?_eq (Nat.zero_le n) (Nat.le_of_lt hlt)]
      rfl

section

variable {src u : Source}

lemma readHeaders_runs {offset left index : Nat} (hoffset : offset < 2 ^ 32)
    (hcount : index + left ≤ 2 ^ 16) :
    Runs (readHeaders offset left index) (Object.readHeaders offset left index) u := by
  induction left generalizing index u with
  | zero => exact runs_pure _
  | succ left ih =>
    have hplace : offset + index * SectionHeader.width < sizeLimit := by
      rw [SectionHeader.width, sizeLimit, UInt64.size]
      omega
    unfold readHeaders Object.readHeaders
    refine Runs.need_bind (Word.mul?_eq (by omega)) (Runs.need_bind (Word.add?_eq hplace) ?_)
    refine readRecord_runs.bind_any fun b v => ?_
    exact (ih (by omega)).bind_any fun hs w => runs_pure _

lemma readStrings_runs (h : SectionHeader) (limit : Nat) :
    Runs (readStrings h limit) (Object.readStrings h limit) u := by
  unfold readStrings Object.readStrings
  split_ifs
  · exact Runs.note_bind read_runs
  · exact read_runs

lemma sectionName_runs (names : Bytes) (index : Nat) (h : SectionHeader) :
    Runs (sectionName names index h) (Act.ofExcept (Object.sectionName names index h)) u := by
  unfold sectionName Object.sectionName
  split_ifs
  · exact runs_pure _
  · refine Runs.need_bind (untilZero_eq _ _) ?_
    unfold Object.nameAt?
    rcases (names.untilZero? h.name.toNat).bind Bytes.text? with _ | name
    · exact runs_fail nofun
    · exact runs_pure _

/-- Sequences without effect may be run as actions. -/
lemma ofExcept_bind {σ α β : Type} (r : Except Error α) (f : α → Except Error β) :
    (Act.ofExcept (r >>= f) : Act σ β) = Act.ofExcept r >>= fun a => Act.ofExcept (f a) := by
  rcases r with e | a
  · rfl
  · exact (Act.pure_bind a fun a => Act.ofExcept (f a)).symm

lemma describe_runs (names : Bytes) (hs : List SectionHeader) (index : Nat)
    (seen : Option SectionHeader) :
    Runs (describe names index seen hs) (Act.ofExcept (Object.describe names index seen hs)) u := by
  induction hs generalizing index seen u with
  | nil => exact runs_pure _
  | cons h hs ih =>
    unfold describe Object.describe
    rw [ofExcept_bind]
    refine (sectionName_runs names index h).bind_any fun name v => ?_
    dsimp only
    split_ifs
    · rw [ofExcept_bind]
      refine (runs_act (unbroken_ofObject (Object.checkSymtab_raised _ _))).bind_any fun _ w => ?_
      rw [ofExcept_bind]
      exact (ih _ _).bind_any fun _ _ => runs_pure _
    · rw [ofExcept_bind]
      exact (ih _ _).bind_any fun _ _ => runs_pure _

/-- The sections still to be visited are those of the list, whatever tables they have been given. -/
lemma attachTables_runs {left : List SectionInfo} {index : Nat} {sections : Array SectionInfo}
    (hleft : ∀ k s, left[k]? = some s →
      s.index = index + k ∧ ∃ q, sections[index + k]? = some q ∧ q.header = s.header) :
    Runs (attachTables left.length index sections)
      (Act.ofExcept (Object.attachTables left sections)) u := by
  induction left generalizing index sections u with
  | nil => exact runs_pure _
  | cons s rest ih =>
    obtain ⟨hindex, q, hq, hheader⟩ := hleft 0 s rfl
    have hrest : ∀ (out : Array SectionInfo) (hout : ∀ i : Nat, (out[i]?).map (·.header) =
        (sections[i]?).map (·.header)) (v : Source),
        Runs (attachTables rest.length (index + 1) out)
          (Act.ofExcept (Object.attachTables rest out)) v := by
      intro out hout v
      refine ih fun k t hk => ?_
      obtain ⟨h1, q', h2, h3⟩ := hleft (k + 1) t hk
      rw [show index + (k + 1) = index + 1 + k by omega] at h1 h2
      have hsome := hout (index + 1 + k)
      rw [h2] at hsome
      obtain ⟨p, hp, hph⟩ := Option.map_eq_some_iff.1 hsome
      exact ⟨h1, p, hp, hph.trans h3⟩
    rw [List.length_cons]
    unfold attachTables Object.attachTables
    rw [ofExcept_bind, hindex]
    refine Runs.need_bind hq ?_
    rw [hheader]
    refine (runs_act (unbroken_ofObject (Object.tableFor_raised _ _ _))).bind (P := fun found _ =>
        Object.tableFor sections (index + 0) s.header = .ok found) (E := fun _ _ => True)
      (Act.sat_ofExcept (fun _ h => h) fun _ _ => trivial) ?_
    rintro found v hfound
    rcases found with _ | ⟨target, table⟩
    · exact hrest _ (fun _ => rfl) v
    · obtain ⟨-, -, p, hp, -⟩ := Object.tableFor_found hfound
      refine Runs.need_bind hp (hrest _ (fun i => ?_) v)
      rw [Array.getElem?_modify]
      split_ifs
      · rcases sections[i]? with _ | t <;> rfl
      · rfl

lemma symtabPosition_eq {sections : List SectionInfo} {h : SectionHeader}
    (hfind : (sections.map (·.header)).find? (·.type == SectionHeader.symtab) = some h) :
    ∃ k s, symtabPosition sections = some k ∧ sections[k]? = some s ∧ s.header = h := by
  unfold symtabPosition
  induction sections with
  | nil => cases hfind
  | cons q rest ih =>
    rw [List.map_cons, List.find?_cons] at hfind
    rw [List.findIdx?_cons]
    rcases htype : q.header.type == SectionHeader.symtab <;> rw [htype] at hfind
    · obtain ⟨k, s, h1, h2, h3⟩ := ih hfind
      exact ⟨k + 1, s, by rw [h1]; rfl, h2, h3⟩
    · cases hfind
      exact ⟨0, q, rfl, rfl, rfl⟩

lemma ofHeaders_runs (names : Bytes) (headers : List SectionHeader) :
    Runs (ofHeaders names headers) (Act.ofExcept (Object.ofHeaders names headers)) u := by
  unfold ofHeaders Object.ofHeaders
  rw [ofExcept_bind]
  refine (describe_runs names headers 0 none).bind
    (P := fun a _ => Object.describe names 0 none headers = .ok a) (E := fun _ _ => True)
    (Act.sat_ofExcept (fun _ h => h) fun _ _ => trivial) ?_
  rintro ⟨sections, last⟩ v hdescribe
  obtain ⟨-, hplain, hlast⟩ := Object.describe_ok hdescribe
  rcases last with _ | symtab <;> dsimp only
  · exact runs_fail nofun
  rw [← Object.describe_headers hdescribe, Option.none_or] at hlast
  obtain ⟨k, s, hk, hs, rfl⟩ := symtabPosition_eq hlast.symm
  refine Runs.need_bind hk (Runs.need_bind hs ?_)
  rcases (if s.header.link.toNat = 0 then none else headers[s.header.link.toNat]?) with _ | strtab <;>
    dsimp only
  · exact runs_fail nofun
  rw [ofExcept_bind]
  refine (attachTables_runs fun k t hk => ⟨(hplain k t hk).index_eq, t, ?_, rfl⟩).bind_any
    fun _ _ => runs_pure _
  rwa [Nat.zero_add, List.getElem?_toArray]

lemma readLayout_runs (maxSections : Nat) :
    Runs (readLayout maxSections) (Object.readLayout maxSections) u := by
  unfold readLayout Object.readLayout
  refine readRecord_runs.bind_any fun b v => ?_
  refine (runs_act (unbroken_ofObject (Object.fileHeader_raised b))).bind_any fun file w => ?_
  have hcount := file.shnum.toNat_lt
  dsimp only
  split_ifs
  · exact runs_fail_bind nofun
  · exact runs_fail_bind nofun
  · exact runs_fail_bind nofun
  · exact (readHeaders_runs (UInt32.toNat_lt _) (by omega)).bind_any fun _ _ => runs_pure _

/-- **Parsing** is never stuck. -/
lemma parse_runs (config : LoaderConfig) : Runs (parse config) (Object.parse config) u := by
  unfold parse Object.parse
  refine (readLayout_runs config.maxSections).bind_any fun l v => ?_
  obtain ⟨file, headers⟩ := l
  dsimp only
  rcases headers[file.shstrndx.toNat]? with _ | h <;> dsimp only
  · exact runs_fail nofun
  · exact (readStrings_runs h _).bind_any fun names w => ofHeaders_runs names headers

/-! ### Sizes of what is parsed -/

lemma attachTables_short {rest : List SectionInfo} {sections out : Array SectionInfo}
    (hok : Object.attachTables rest sections = .ok out)
    (h : ∀ (i : Nat) s, sections[i]? = some s → ∀ t ∈ s.relocations, t.Short) :
    ∀ (i : Nat) s, out[i]? = some s → ∀ t ∈ s.relocations, t.Short := by
  induction rest generalizing sections with
  | nil =>
    cases hok
    exact h
  | cons q rest ih =>
    unfold Object.attachTables at hok
    obtain ⟨found, hfound, hok⟩ := Act.ok_of_bind hok
    rcases found with _ | ⟨target, table⟩
    · exact ih hok h
    refine ih hok fun i s hs t ht => ?_
    rw [Array.getElem?_modify] at hs
    split_ifs at hs with hi
    · -- the table that is attached
      obtain ⟨p, -, rfl⟩ := Option.map_eq_some_iff.1 hs
      cases ht
      obtain ⟨-, rfl, -⟩ := Object.tableFor_found hfound
      refine ⟨UInt32.toNat_lt _, Nat.lt_of_le_of_lt (Nat.div_mul_le_self ..) (UInt32.toNat_lt _)⟩
    · exact h i s hs t ht

lemma ofHeaders_short {names : Bytes} {headers : List SectionHeader} {o : Object}
    (hok : Object.ofHeaders names headers = .ok o) :
    ∀ s ∈ o.sections.toList, ∀ t ∈ s.relocations, t.Short := by
  obtain ⟨plain, hdescribe, -, -, hsections⟩ := Object.ofHeaders_inv hok
  obtain ⟨-, hplain, -⟩ := Object.describe_ok hdescribe
  intro s hs
  obtain ⟨i, hi⟩ := List.mem_iff_getElem?.1 hs
  refine attachTables_short hsections (fun k q hq t ht => ?_) i s (by rwa [Array.getElem?_toList] at hi)
  rw [List.getElem?_toArray] at hq
  rw [(hplain k q hq).bare] at ht
  cases ht

lemma parse_short (hu : Source.Same src u) (config : LoaderConfig) :
    Act.Sat (Object.parse config) u (fun o _ => o.Short) fun _ _ => True := by
  have htables : Act.Sat (Object.parse config) u
      (fun o _ => ∀ s ∈ o.sections.toList, ∀ t ∈ s.relocations, t.Short) fun _ _ => True := by
    unfold Object.parse
    refine Act.Sat.bind (Object.readLayout_sat hu config.maxSections) ?_ fun _ _ _ => trivial
    rintro ⟨file, headers⟩ v ⟨hv, -⟩
    dsimp only
    rcases headers[file.shstrndx.toNat]? with _ | h <;> dsimp only
    · exact Act.sat_throw.2 trivial
    · refine Act.Sat.bind (Object.readStrings_sat hv h config.maxNames) ?_ fun _ _ _ => trivial
      exact fun _ _ _ => Act.sat_ofExcept (fun _ ho => ofHeaders_short ho) fun _ _ => trivial
  refine (htables.and (Object.parse_sat hu config)).mono ?_ fun _ _ _ => trivial
  rintro o _ ⟨h, -, hdescribes⟩
  refine ⟨?_, h⟩
  rw [hdescribes.size_eq, Object.rawHeaders, List.length_map, List.length_range]
  exact UInt16.toNat_lt _

lemma symbolTable_runs {config : LoaderConfig} {o : Object}
    (ho : Object.Describes config src.data o) :
    Runs (symbolTable o config) (o.symbolTable config) u := by
  have hheaders : o.sections.toList.map (·.header) = Object.rawHeaders src.data := by
    refine List.ext_getElem? fun i => ?_
    rw [List.getElem?_map, Array.getElem?_toList]
    rcases hi : o.sections[i]? with _ | s
    · have hsize := ho.size_eq
      rw [List.getElem?_eq_none (by have := Array.getElem?_eq_none_iff.1 hi; omega)]
      rfl
    · exact (ho.header_eq i s hi).symm
  obtain ⟨k, s, hk, hs, hsymtab⟩ := symtabPosition_eq (hheaders ▸ ho.symtab_eq)
  have hstrtab := ho.strtab_eq
  rw [← hheaders, List.getElem?_map, Option.map_eq_some_iff] at hstrtab
  obtain ⟨q, hq, hqh⟩ := hstrtab
  rw [Array.getElem?_toList] at hs hq
  unfold symbolTable Object.symbolTable
  refine Runs.need_bind hk (Runs.need_bind hs (Runs.need_bind (hsymtab ▸ hq) ?_))
  rw [hqh, hsymtab]
  exact (readStrings_runs _ _).bind_any fun _ _ => runs_pure _

end

/-! ### Symbols are never stuck -/

section

variable {t : SymbolTable} {u : Source}

lemma symbol_runs (ht : t.Short) (index : Nat) : Runs (symbol t index) (t.read index) u := by
  unfold symbol SymbolTable.read
  split_ifs with hcount
  · exact runs_fail_bind nofun
  · have h1 := ht.offset_lt
    have h2 := ht.bytes_lt
    have h3 := Nat.mul_le_mul_right Symbol.width (Nat.le_of_not_le hcount)
    refine Runs.need_bind (Word.mul?_eq ?_) (Runs.need_bind (Word.add?_eq ?_)
      (readRecord_runs.bind_any fun b v => runs_pure _)) <;>
    · rw [sizeLimit, UInt64.size]
      omega

lemma findFrom_runs (ht : t.Short) (name : String) (left index : Nat) :
    Runs (findFrom t name left index) (t.findFrom name left index) u := by
  induction left generalizing index u with
  | zero => exact runs_pure _
  | succ left ih =>
    unfold findFrom SymbolTable.findFrom
    refine (symbol_runs ht index).bind_any fun s v => ?_
    dsimp only
    split_ifs
    · exact Runs.need_bind (untilZero_eq _ _) (runs_pure _)
    · exact Runs.need_bind (untilZero_eq _ _) (ih _)
    · exact runs_pure _
    · exact ih _

lemma entryAddress_runs {c : Scope} (hc : c.symbols.Short) (name : String) :
    Runs (entryAddress c name) (c.entryAddress name) u := by
  unfold entryAddress Scope.entryAddress SymbolTable.findGlobal
  refine (findFrom_runs hc name _ 1).bind_any fun found v => ?_
  rcases found with _ | s <;> dsimp only
  · exact runs_fail nofun
  · rcases (if s.isAbsolute then some 0 else c.placement.get? s.home) with _ | base
    · exact runs_fail nofun
    · exact runs_pure _

end

section

variable {c : Scope} {l : Linker}

/-- What a symbol means breaks no promise, and nothing else decides on its address. -/
lemma address_unbroken (c : Scope) (index : Nat) (s : Symbol) (l : Linker) :
    Unbroken (c.address index s l).result := by
  have hname : Unbroken (c.symbols.name index s) := by
    unfold SymbolTable.name
    repeat' split
    all_goals nofun
  have hmeaning : Unbroken (c.meaning index s) := by
    unfold Scope.meaning
    repeat' split
    · rename_i e he
      rintro b ⟨⟩
      exact hname b he
    all_goals nofun
  have hyields := Scope.address_yields c index s l
  unfold Act.Yields Act.Sat at hyields
  generalize c.address index s l = o at hyields ⊢
  rcases o with ⟨e | addr, m, es⟩ <;> exact hyields.1 ▸ hmeaning

lemma address_runs (c : Scope) (index : Nat) (s : Symbol) :
    Runs (address c index s) (c.address index s) l := by
  unfold address
  split_ifs
  · exact Runs.need_bind (untilZero_eq _ _) (runs_lift (address_unbroken c index s l))
  · exact runs_lift (address_unbroken c index s l)

lemma slot_lt {cache : SymbolCache} (h : 0 < cache.slots.size) (index : Nat) :
    ∃ a, cache.slots[cache.slot index]? = some a :=
  ⟨_, Array.getElem?_eq_getElem (Nat.mod_lt index h)⟩

lemma lookUp_runs (hslots : 0 < l.cache.slots.size) (hroom : l.lookups + 1 < sizeLimit)
    (index : Nat) : Runs (lookUp index) (modifyGet fun l => match l.cache.get index with
      | (found, cache) => (found, { l with cache })) l := by
  obtain ⟨a, ha⟩ := slot_lt hslots index
  unfold Linker.lookups at hroom
  unfold lookUp
  refine Runs.peek_bind (Runs.need_bind ha (Runs.need_bind (Word.add?_eq ?_) ⟨rfl, nofun⟩))
  split_ifs <;> omega

/-- One look-up is counted, and the cache keeps its slots. -/
lemma get_lookups (cache : SymbolCache) (index : Nat) :
    (cache.get index).2.hits + (cache.get index).2.misses = cache.hits + cache.misses + 1 ∧
      (cache.get index).2.slots = cache.slots := by
  unfold SymbolCache.get
  rcases cache.find? index with _ | addr <;> dsimp only <;> exact ⟨by omega, rfl⟩

/-- **Resolving** is never stuck while look-ups can be counted. -/
lemma resolve_runs (hc : c.symbols.Short) (hslots : 0 < l.cache.slots.size)
    (hroom : l.lookups + 1 < sizeLimit) (index : Nat) :
    Runs (resolve c index) (c.resolve index) l := by
  have hget := (get_lookups l.cache index).2
  unfold resolve Scope.resolve
  split_ifs
  · exact runs_pure _
  refine (lookUp_runs hslots hroom index).bind (P := fun _ m => m.cache.slots = l.cache.slots)
    (E := fun _ _ => True) ?_ ?_
  · exact hget
  rintro found m hm
  rcases found with _ | addr <;> dsimp only
  · refine (symbol_runs hc index).zoom.bind (Act.zoom_keeps _ m Linker.cache fun _ => rfl) ?_
    intro s n hn
    have hslots' : 0 < n.cache.slots.size := by rwa [hn, hm]
    obtain ⟨a, ha⟩ := slot_lt hslots' index
    refine (address_runs c index s).bind (Scope.address_yields c index s n) ?_
    rintro addr _ ⟨-, rfl⟩
    exact Runs.peek_bind (Runs.need_bind ha (Runs.modify_bind (runs_pure _)))
  · exact runs_pure _

lemma resolve_counts (c : Scope) (index : Nat) (l : Linker) :
    Act.Sat (c.resolve index) l (fun _ m => l.Counted 1 m) fun _ _ => True := by
  obtain ⟨hcount, hslots⟩ := get_lookups l.cache index
  unfold Scope.resolve
  split_ifs
  · exact .refl 1 l
  refine Act.Sat.bind (P := fun _ m => m.source = l.source ∧ m.cache.slots = l.cache.slots ∧
    m.lookups = l.lookups + 1) (G := fun _ _ => False) ⟨rfl, hslots, hcount⟩ ?_ fun _ _ h => h.elim
  rintro found m ⟨hsource, hslots', hlookups⟩
  rcases found with _ | addr <;> dsimp only
  · refine Act.Sat.bind (P := fun _ n => Source.Same l.source n.source ∧ n.cache = m.cache)
      (G := fun _ _ => True) ?_ ?_ fun _ _ _ => trivial
    · rw [Act.sat_zoom]
      refine (SymbolTable.read_yields c.symbols m.source index).mono ?_ fun _ _ _ => trivial
      exact fun _ _ h => ⟨hsource ▸ h.2, rfl⟩
    rintro s n ⟨hsame, hcache⟩
    refine Act.Sat.bind (Scope.address_yields c index s n) ?_ fun _ _ _ => trivial
    rintro addr _ ⟨-, rfl⟩
    refine Act.Sat.modify_bind (Act.sat_pure.2 ⟨hsame, ?_, ?_⟩)
    · simp [SymbolCache.insert, hcache, hslots']
    · exact Nat.le_of_eq ((show Linker.lookups _ = m.lookups by
        simp only [Linker.lookups, SymbolCache.insert, hcache]).trans hlookups)
  · exact Act.sat_pure.2 ⟨hsource ▸ .refl _, congrArg Array.size hslots', Nat.le_of_eq hlookups⟩

end

end Guarded

end FlashLink
