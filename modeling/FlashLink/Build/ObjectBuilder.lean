import FlashLink.Build.NameTable

/-!
Writing relocatable objects: ELF32, little-endian, for ARM, with relocations whose addends live in
the section bytes. Callers put the addend into the data before they add its relocation.

A file holds, in this order: its header, the data of each section, the symbols and their names, the
relocations of each section, the section names and the section headers.
-/

namespace FlashLink

/-- What a section under construction holds. -/
inductive SectionKind where
  | text
  | readOnly
  | data
  | bss
deriving DecidableEq

namespace SectionKind

/-- Type and flags of the section header. -/
def header : SectionKind → UInt32 × UInt32
  | text => (1, 6)
  | readOnly => (1, 2)
  | data => (1, 3)
  | bss => (8, 3)

end SectionKind

/-- A relocation under construction, against a symbol by its number. -/
structure DraftRelocation where
  offset : Nat
  symbol : Nat
  type : UInt32
deriving DecidableEq

structure DraftSection where
  name : String
  kind : SectionKind
  data : Bytes
  size : Nat
  align : Nat
  relocations : List DraftRelocation
deriving DecidableEq

inductive SymbolKind where
  | function
  | object
  | unknown
deriving DecidableEq

namespace SymbolKind

def code : SymbolKind → UInt8
  | unknown => 0
  | object => 1
  | function => 2

end SymbolKind

structure DraftSymbol where
  name : String
  value : Nat
  size : Nat
  kind : SymbolKind
  global : Bool
  /-- Nothing for symbols that the host has to define. -/
  home : Option Nat
deriving DecidableEq

namespace DraftSymbol

/-- Local symbols come first in the symbol table. -/
def isLocal (s : DraftSymbol) : Bool := !s.global && s.home.isSome

end DraftSymbol

/-- An object under construction. Sections and symbols are known by their numbers. -/
structure ObjectBuilder where
  sections : Array DraftSection
  symbols : Array DraftSymbol
deriving DecidableEq

namespace ObjectBuilder

def empty : ObjectBuilder := ⟨#[], #[]⟩

/-! ### Adding -/

variable (o : ObjectBuilder)

def addSection (name : String) (kind : SectionKind) : Nat × ObjectBuilder :=
  (o.sections.size, { o with sections := o.sections.push ⟨name, kind, #[], 0, 1, []⟩ })

/-- Appends data at a multiple of `align`, and answers where. -/
def append (sec : Nat) (data : Bytes) (align : Nat) : Nat × ObjectBuilder :=
  let start := alignUp ((o.sections[sec]?.map (·.data.size)).getD 0) align
  (start, { o with
    sections := o.sections.modify sec fun s =>
      let d := s.data ++ Bytes.zeros (start - s.data.size) ++ data
      { s with data := d, size := d.size, align := max s.align align } })

/-- Appends bytes that take no room in the file. -/
def appendBss (sec size align : Nat) : Nat × ObjectBuilder :=
  let start := alignUp ((o.sections[sec]?.map (·.size)).getD 0) align
  (start, { o with
    sections := o.sections.modify sec fun s =>
      { s with size := start + size, align := max s.align align } })

def addSymbol (s : DraftSymbol) : Nat × ObjectBuilder :=
  (o.symbols.size, { o with symbols := o.symbols.push s })

/-- Defines a Thumb function, whose value carries the Thumb bit. -/
def function (name : String) (sec offset size : Nat) (global : Bool) : Nat × ObjectBuilder :=
  o.addSymbol ⟨name, offset ||| 1, size, .function, global, some sec⟩

/-- Defines a variable. -/
def object (name : String) (sec offset size : Nat) (global : Bool) : Nat × ObjectBuilder :=
  o.addSymbol ⟨name, offset, size, .object, global, some sec⟩

/-- The undefined symbol of that name, made on first use. -/
def undefined (name : String) : Nat × ObjectBuilder :=
  match o.symbols.findIdx? fun s => s.home.isNone && s.name == name with
  | some i => (i, o)
  | none => o.addSymbol ⟨name, 0, 0, .unknown, true, none⟩

def relocate (sec offset symbol : Nat) (type : UInt32) : ObjectBuilder :=
  { o with
    sections := o.sections.modify sec fun s =>
      { s with relocations := s.relocations ++ [⟨offset, symbol, type⟩] } }

/-- Adds a symbol's address to a word. -/
def absolute (sec offset symbol : Nat) : ObjectBuilder := o.relocate sec offset symbol 2

/-- Makes a call reach a symbol. -/
def call (sec offset symbol : Nat) : ObjectBuilder := o.relocate sec offset symbol 10

/-! ### Writing -/

/-- Zeros up to a multiple of `align`. -/
def pad (b : Bytes) (align : Nat) : Bytes := b ++ Bytes.zeros (alignUp b.size align - b.size)

def words (ws : List UInt32) : Bytes := ws.foldl (fun b w => b ++ Bytes.ofU32 w) #[]

/-- The file with the data of sections at their alignments, and where each starts. -/
def writeData (b : Bytes) (ss : List DraftSection) : Bytes × List Nat :=
  ss.foldl (fun (b, starts) s =>
    let b := pad b s.align
    (b ++ s.data, starts ++ [b.size])) (b, [])

/-- Numbers of symbols in the order of the symbol table. -/
def symbolOrder : List Nat :=
  let isLocal (i : Nat) : Bool := (o.symbols[i]?.map (·.isLocal)).getD false
  let all := List.range o.symbols.size
  all.filter isLocal ++ all.filter fun i => !isLocal i

/-- Number of a section's header. The header of its relocations follows it. -/
def headerIndex (sec : Nat) : Nat :=
  1 + sec + ((o.sections.toList.take sec).filter fun s => !s.relocations.isEmpty).length

def symbolEntry (names : NameTable) (s : DraftSymbol) : Bytes :=
  let binding : UInt8 := if s.isLocal then 0 else 1
  let nameAt := if s.name = "" then 0 else names.offset (Bytes.ofText s.name)
  let home := (s.home.map o.headerIndex).getD 0
  words [UInt32.ofNat nameAt, UInt32.ofNat s.value, UInt32.ofNat s.size] ++
    #[binding <<< 4 ||| s.kind.code, if s.isLocal then 0 else 2] ++
    Bytes.ofU16 (UInt16.ofNat home)

/-- Entries of one relocation section; `order` lists the symbols as the table has them. -/
def relocationEntries (order : List Nat) (rs : List DraftRelocation) : Bytes :=
  rs.foldl (fun b r =>
    let index := (order.findIdx? (· == r.symbol)).map (· + 1) |>.getD 0
    b ++ words [UInt32.ofNat r.offset, UInt32.ofNat index <<< 8 ||| (r.type &&& 0xff)]) #[]

/-- The file with the relocations of every section that has any, and where each table starts. -/
def writeRelocations (order : List Nat) (b : Bytes) (ss : List DraftSection) : Bytes × List Nat :=
  ss.foldl (fun (b, starts) s =>
    if s.relocations.isEmpty then (b, starts ++ [0])
    else
      let b := pad b 4
      (b ++ relocationEntries order s.relocations, starts ++ [b.size])) (b, [])

/-- Names of all section headers, in order. -/
def headerNames : List String :=
  (o.sections.toList.flatMap fun s =>
    if s.relocations.isEmpty then [s.name] else [s.name, ".rel" ++ s.name]) ++
  [".symtab", ".strtab", ".shstrtab"]

/-- A section header: name, type, flags, offset, size, link, info, alignment and entry size. -/
def header (names : NameTable) (name : String) (type flags : UInt32)
    (offset size link info align entrySize : Nat) : Bytes :=
  words [UInt32.ofNat (names.offset (Bytes.ofText name)), type, flags, 0, UInt32.ofNat offset,
    UInt32.ofNat size, UInt32.ofNat link, UInt32.ofNat info, UInt32.ofNat align,
    UInt32.ofNat entrySize]

/-- The headers of a section and of its relocations, if it has any. -/
def sectionHeaders (names : NameTable) (symtab sec : Nat) (s : DraftSection) (data rels : Nat) :
    Bytes :=
  let (type, flags) := s.kind.header
  let own := header names s.name type flags data s.size 0 0 s.align 0
  if s.relocations.isEmpty then own
  else
    own ++ header names (".rel" ++ s.name) 9 0x40 rels (8 * s.relocations.length) symtab
      (o.headerIndex sec) 4 8

def fileHeader (shoff shnum : Nat) : Bytes :=
  #[0x7f, 0x45, 0x4c, 0x46, 1, 1, 1] ++ Bytes.zeros 9 ++ Bytes.ofU16 1 ++ Bytes.ofU16 40 ++
    words [1, 0, 0, UInt32.ofNat shoff, 0] ++ Bytes.ofU16 52 ++ Bytes.ofU16 0 ++ Bytes.ofU16 0 ++
    Bytes.ofU16 40 ++ Bytes.ofU16 (UInt16.ofNat shnum) ++ Bytes.ofU16 (UInt16.ofNat (shnum - 1))

/-- The finished file. -/
def write : Bytes :=
  let ss := o.sections.toList
  let order := o.symbolOrder
  let locals := (o.symbols.toList.filter (·.isLocal)).length
  let names := NameTable.ofNames
    ((o.symbols.toList.filter (·.name ≠ "")).map fun s => Bytes.ofText s.name)
  let headerNames := NameTable.ofNames (o.headerNames.map Bytes.ofText)
  let symtab := o.headerIndex ss.length
  let shnum := symtab + 3
  -- The header comes last, when the section headers have their place.
  let (b, dataAt) := writeData (Bytes.zeros 52) ss
  let b := pad b 4
  let symbolsAt := b.size
  let entries := order.foldl (fun b i =>
    match o.symbols[i]? with
    | some s => b ++ o.symbolEntry names s
    | none => b) (Bytes.zeros 16)
  let b := b ++ entries
  let namesAt := b.size
  let b := b ++ names.bytes
  let (b, relocationsAt) := writeRelocations order b ss
  let headerNamesAt := b.size
  let b := pad (b ++ headerNames.bytes) 4
  let headersAt := b.size
  let own := (ss.zip (dataAt.zip relocationsAt)).zipIdx.foldl (fun b ((s, d, r), i) =>
    b ++ o.sectionHeaders headerNames symtab i s d r) (Bytes.zeros 40)
  let last :=
    header headerNames ".symtab" 2 0 symbolsAt entries.size (symtab + 1) (locals + 1) 4 16 ++
    header headerNames ".strtab" 3 0 namesAt names.bytes.size 0 0 1 0 ++
    header headerNames ".shstrtab" 3 0 headerNamesAt headerNames.bytes.size 0 0 1 0
  (b ++ own ++ last).overwrite 0 (fileHeader headersAt shnum)

end ObjectBuilder

end FlashLink
