import FlashLink.Config
import FlashLink.Elf.Header
import FlashLink.Elf.Section
import FlashLink.Link.Resolver

/-!
The section table of a relocatable object, and what the loader makes of each section: its class,
and the table of relocations that apply to it.
-/

namespace FlashLink

/-- Where the relocations of a section are in the source. -/
structure RelocationTable where
  offset : Nat
  count : Nat
deriving DecidableEq

structure SectionInfo where
  index : Nat
  name : String
  header : SectionHeader
  /-- Nothing for a section that gets no place. -/
  cls : Option SectionClass
  relocations : Option RelocationTable
deriving DecidableEq

namespace SectionInfo

def size (s : SectionInfo) : Nat := s.header.size

end SectionInfo

/-- A parsed object. It lives for one load only. -/
structure Object where
  sections : Array SectionInfo
  /-- Header of the symbol table. -/
  symtab : SectionHeader
  /-- Header of the table of symbol names. -/
  strtab : SectionHeader
deriving DecidableEq

namespace Object

/-! ### Tables -/

/-- Reads `left` section headers from entry `index` of the table at `offset` on. -/
def readHeaders (offset : Nat) : Nat → Nat → Act Source (List SectionHeader)
  | 0, _ => return []
  | left + 1, index => do
    let b ← Source.read (offset + index * SectionHeader.width) SectionHeader.width
    return SectionHeader.ofBytes b :: (← readHeaders offset left (index + 1))

/-- Reads the first `limit` bytes of a table of names. -/
def readStrings (h : SectionHeader) (limit : Nat) : Act Source Bytes := do
  if limit < h.size then Act.note (.tableTruncated h.size limit)
  Source.read h.offset (min h.size limit)

/-- The name at an offset of a table. -/
def nameAt? (names : Bytes) (offset : Nat) : Option String :=
  (names.untilZero? offset).bind Bytes.text?

/-! ### Sections -/

/-- Section 0 has no name, and every other name has to be readable. -/
def sectionName (names : Bytes) (index : Nat) (h : SectionHeader) : Except Error String :=
  if index = 0 then .ok ""
  else match nameAt? names h.name.toNat with
    | some name => .ok name
    | none => .error (.parse (.unreadableName index))

/-- Checks the header of a symbol table, given the one seen before. -/
def checkSymtab (seen : Option SectionHeader) (h : SectionHeader) : Except Error Unit :=
  if seen.isSome then .error (.parse .severalSymbolTables)
  else if h.entrySize.toNat ≠ Symbol.width ∨ h.size % Symbol.width ≠ 0 then
    .error (.parse .symbolSize)
  else .ok ()

/-- Names and classifies the headers from `index` on, and finds the one symbol table. -/
def describe (names : Bytes) :
    Nat → Option SectionHeader → List SectionHeader →
      Except Error (List SectionInfo × Option SectionHeader)
  | _, seen, [] => .ok ([], seen)
  | index, seen, h :: hs => do
    let name ← sectionName names index h
    let isSymtab := h.type = SectionHeader.symtab
    if isSymtab then checkSymtab seen h
    let (rest, last) ← describe names (index + 1) (if isSymtab then some h else seen) hs
    return (⟨index, name, h, h.class?, none⟩ :: rest, last)

/-! ### Relocations -/

/-- Whether relocations in header `h`, that of section `index`, apply to a section that gets a
place, and where they are. Tables for other sections are passed over, malformed or not. -/
def tableFor (sections : Array SectionInfo) (index : Nat) (h : SectionHeader) :
    Except Error (Option (Nat × RelocationTable)) :=
  if h.type ≠ SectionHeader.rel ∧ h.type ≠ SectionHeader.rela then .ok none
  else
    let target := h.info.toNat
    match sections[target]? with
    | none => .error (.parse (.missingTarget index target))
    | some s =>
      let count := h.size / Relocation.width
      if !s.header.isAllocated then .ok none
      else if h.type = SectionHeader.rela then .error (.parse (.explicitAddends target))
      else if h.entrySize.toNat ≠ Relocation.width ∨ h.size % Relocation.width ≠ 0 then
        .error (.parse .entrySize)
      else if count = 0 then .ok none
      else match s.cls with
        | none => .ok none
        | some .bss => .error (.parse (.relocatedZeros target))
        | some _ =>
          if s.relocations.isSome then .error (.parse (.severalTables target))
          else .ok (some (target, ⟨h.offset, count⟩))

/-- Gives every section the one table of relocations that applies to it. -/
def attachTables : List SectionInfo → Array SectionInfo → Except Error (Array SectionInfo)
  | [], sections => .ok sections
  | s :: rest, sections => do
    match ← tableFor sections s.index s.header with
    | none => attachTables rest sections
    | some (target, table) =>
      attachTables rest (sections.modify target fun t => { t with relocations := some table })

/-! ### The whole object -/

/-- Reads the file header and every section header. -/
def readLayout (maxSections : Nat) : Act Source (FileHeader × List SectionHeader) := do
  let file ← Act.ofExcept (FileHeader.parse (← Source.read 0 FileHeader.width))
  let count := file.shnum.toNat
  if count = 0 then throw (.parse .noSections)
  if maxSections < count then throw (.parse (.tooManySections count maxSections))
  return (file, ← readHeaders file.shoff.toNat count 0)

/-- The object that a section table and the section names describe. -/
def ofHeaders (names : Bytes) (headers : List SectionHeader) : Except Error Object := do
  let (sections, symtab?) ← describe names 0 none headers
  match symtab? with
  | none => .error (.parse .noSymbolTable)
  | some symtab =>
    let link := symtab.link.toNat
    match (if link = 0 then none else headers[link]?) with
    | none => .error (.parse .noStringTable)
    | some strtab => return ⟨← attachTables sections sections.toArray, symtab, strtab⟩

def parse (config : LoaderConfig) : Act Source Object := do
  let (file, headers) ← readLayout config.maxSections
  match headers[file.shstrndx.toNat]? with
  | none => throw (.parse .nameTable)
  | some h =>
    let names ← readStrings h config.maxNames
    Act.ofExcept (ofHeaders names headers)

/-- Reads the symbol names, after which symbols can be resolved. -/
def symbolTable (o : Object) (config : LoaderConfig) : Act Source SymbolTable := do
  let strings ← readStrings o.strtab config.maxStrings
  return ⟨o.symtab.offset, o.symtab.size / Symbol.width, strings⟩

/-- The sections of one class, in order. -/
def ofClass (o : Object) (cls : SectionClass) : List SectionInfo :=
  o.sections.toList.filter (·.cls == some cls)

/-- The sections that go to flash, in order. -/
def inFlash (o : Object) : List SectionInfo :=
  o.sections.toList.filter fun s => s.cls.any SectionClass.isFlash

/-- What there is to tell about the object. -/
def summary (o : Object) (name : String) : List Event :=
  .objectParsed name o.sections.size :: o.sections.toList.filterMap fun s =>
    s.cls.map fun cls =>
      .sectionParsed s.index s.name cls s.size s.header.align
        ((s.relocations.map (·.count)).getD 0)

end Object

end FlashLink
