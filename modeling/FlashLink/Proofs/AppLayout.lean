import FlashLink.Build.Samples
import FlashLink.Proofs.Writing

/-!
The file of the sample with a full descriptor.
-/

namespace FlashLink

/-! ### Drafts -/

namespace Draft

variable {α : Type} (o : ObjectBuilder)

end Draft

namespace Samples.App

open Bytes ObjectBuilder

/-- The name of the app, as its constants have it. -/
def label (name : String) : Bytes := (Bytes.ofText name).push 0

/-- The instructions of the entry point, and those of `start`. -/
def instructions : Bytes := #[0x01, 0x48, 0x70, 0x47, 0x64, 0x30, 0x70, 0x47]

/-- The instructions, and room for the address of the descriptor. -/
def code : Bytes := instructions ++ Bytes.zeros 4

/-- The descriptor, whose addresses are filled in later. -/
def record (category : UInt32) : Bytes := Bytes.zeros 16 ++ Bytes.ofU32 category

def builder (name entry : String) (category : UInt32) : ObjectBuilder where
  sections := #[⟨".text", .text, code, 12, 4, [⟨8, 1, 2⟩]⟩,
    ⟨".rodata", .readOnly, label name, (label name).size, 4, []⟩,
    ⟨".data", .data, record category, 20, 4, [⟨0, 0, 2⟩, ⟨8, 3, 2⟩]⟩]
  symbols := #[⟨"app_name", 0, (label name).size, .object, false, some 1⟩,
    ⟨"app_desc", 0, 20, .object, false, some 2⟩, ⟨entry, 1, 4, .function, true, some 0⟩,
    ⟨"app_start", 5, 4, .function, false, some 0⟩]

variable (name entry : String) (category : UInt32)

def titles : List String :=
  [".text", ".rel.text", ".rodata", ".data", ".rel.data", ".symtab", ".strtab", ".shstrtab"]

/-- The names of the sections. -/
def sectionNames : NameTable := .ofNames (titles.map Bytes.ofText)

/-- The names of the symbols. -/
def symbolNames : NameTable := .ofNames (["app_name", "app_desc", entry, "app_start"].map Bytes.ofText)

/-- Where the parts of the file are. -/
structure Spots where
  code : Nat
  label : Nat
  record : Nat
  codeRelocations : Nat
  recordRelocations : Nat
  symbols : Nat
  symbolNames : Nat
  sectionNames : Nat

/-- Where the name of a section is. -/
def titleAt (s : String) : UInt32 := UInt32.ofNat (sectionNames.offset (Bytes.ofText s))

def noHeader : SectionHeader := ⟨0, 0, 0, 0, 0, 0, 0, 0, 0, 0⟩

def codeHeader (w : Spots) : SectionHeader :=
  ⟨titleAt ".text", 1, 6, 0, UInt32.ofNat w.code, 12, 0, 0, 4, 0⟩

def codeTableHeader (w : Spots) : SectionHeader :=
  ⟨titleAt ".rel.text", 9, 0x40, 0, UInt32.ofNat w.codeRelocations, 8, 6, 1, 4, 8⟩

def labelHeader (w : Spots) : SectionHeader :=
  ⟨titleAt ".rodata", 1, 2, 0, UInt32.ofNat w.label, UInt32.ofNat (label name).size, 0, 0, 4, 0⟩

def recordHeader (w : Spots) : SectionHeader :=
  ⟨titleAt ".data", 1, 3, 0, UInt32.ofNat w.record, 20, 0, 0, 4, 0⟩

def recordTableHeader (w : Spots) : SectionHeader :=
  ⟨titleAt ".rel.data", 9, 0x40, 0, UInt32.ofNat w.recordRelocations, 16, 6, 4, 4, 8⟩

def symtabHeader (w : Spots) : SectionHeader :=
  ⟨titleAt ".symtab", 2, 0, 0, UInt32.ofNat w.symbols, 80, 7, 4, 4, 16⟩

def strtabHeader (w : Spots) : SectionHeader :=
  ⟨titleAt ".strtab", 3, 0, 0, UInt32.ofNat w.symbolNames, UInt32.ofNat (symbolNames entry).bytes.size,
    0, 0, 1, 0⟩

def titlesHeader (w : Spots) : SectionHeader :=
  ⟨titleAt ".shstrtab", 3, 0, 0, UInt32.ofNat w.sectionNames, UInt32.ofNat sectionNames.bytes.size,
    0, 0, 1, 0⟩

/-- The section headers. -/
def headers (w : Spots) : List SectionHeader :=
  [noHeader, codeHeader w, codeTableHeader w, labelHeader name w, recordHeader w, recordTableHeader w,
    symtabHeader w, strtabHeader entry w, titlesHeader w]

/-- The symbols, in the order of the symbol table. -/
def symbols : List Symbol :=
  let nameAt (s : String) : UInt32 := UInt32.ofNat ((symbolNames entry).offset (Bytes.ofText s))
  [⟨0, 0, 0, 0, 0, 0⟩, ⟨nameAt "app_name", 0, UInt32.ofNat (label name).size, 1, 0, 3⟩,
    ⟨nameAt "app_desc", 0, 20, 1, 0, 4⟩, ⟨nameAt "app_start", 5, 4, 2, 0, 1⟩,
    ⟨nameAt entry, 1, 4, 0x12, 2, 1⟩]

/-- The file has the parts of the app at these places. -/
structure Laid (w : Spots) (file : Bytes) : Prop where
  size_lt : file.size < UInt32.size
  parsed : ∃ h, FileHeader.parse (file.slice 0 FileHeader.width) = .ok h ∧ h.shnum = 9 ∧
    h.shstrndx = 8 ∧ h.shoff.toNat + 9 * SectionHeader.width ≤ file.size
  headers_eq : Object.rawHeaders file = headers name entry w
  code : file.HasAt w.code code
  label : file.HasAt w.label (label name)
  record : file.HasAt w.record (record category)
  codeEntries : RelocationTable.entries ⟨w.codeRelocations, 1⟩ file = [⟨8, 0x202⟩]
  recordEntries : RelocationTable.entries ⟨w.recordRelocations, 2⟩ file = [⟨0, 0x102⟩, ⟨8, 0x302⟩]
  codeEntries_le : w.codeRelocations + 8 ≤ file.size
  recordEntries_le : w.recordRelocations + 16 ≤ file.size
  symbols_le : w.symbols + 5 * Symbol.width ≤ file.size
  symbol_eq : ∀ i s, (symbols name entry)[i]? = some s →
    Symbol.ofBytes (file.slice (w.symbols + i * Symbol.width) Symbol.width) = s
  symbolNames : file.HasAt w.symbolNames (symbolNames entry).bytes
  sectionNames : file.HasAt w.sectionNames sectionNames.bytes

/-! ### The object -/

lemma sections_eq : (builder name entry category).sections.toList =
    [⟨".text", .text, code, 12, 4, [⟨8, 1, 2⟩]⟩,
      ⟨".rodata", .readOnly, label name, (label name).size, 4, []⟩,
      ⟨".data", .data, record category, 20, 4, [⟨0, 0, 2⟩, ⟨8, 3, 2⟩]⟩] := rfl

lemma symbols_eq : (builder name entry category).symbols =
    #[⟨"app_name", 0, (label name).size, .object, false, some 1⟩,
      ⟨"app_desc", 0, 20, .object, false, some 2⟩, ⟨entry, 1, 4, .function, true, some 0⟩,
      ⟨"app_start", 5, 4, .function, false, some 0⟩] := rfl

variable {entry} (hentry : entry ≠ "")

include hentry

end Samples.App

end FlashLink
