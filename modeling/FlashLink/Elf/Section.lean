import FlashLink.Bytes

/-!
Section headers, and which sections of a module get a place at run time.
-/

namespace FlashLink

/-- Where a section of a module ends up. -/
inductive SectionClass where
  /-- Code, streamed to flash. -/
  | text
  /-- Constant data, streamed to flash. -/
  | readOnly
  /-- Initialised variables, copied to the pool. -/
  | data
  /-- Zero-initialised variables, cleared in the pool. -/
  | bss
deriving DecidableEq

namespace SectionClass

def isFlash : SectionClass → Bool
  | text | readOnly => true
  | data | bss => false

def name : SectionClass → String
  | text => "Text"
  | readOnly => "ReadOnly"
  | data => "Data"
  | bss => "Bss"

end SectionClass

structure SectionHeader where
  name : UInt32
  type : UInt32
  rawFlags : UInt32
  addr : UInt32
  rawOffset : UInt32
  rawSize : UInt32
  link : UInt32
  info : UInt32
  rawAlign : UInt32
  entrySize : UInt32
deriving DecidableEq

namespace SectionHeader

/-- Bytes of one header. -/
def width : Nat := 40

def ofBytes (b : Bytes) : SectionHeader :=
  { name := b.u32 0, type := b.u32 4, rawFlags := b.u32 8, addr := b.u32 12, rawOffset := b.u32 16,
    rawSize := b.u32 20, link := b.u32 24, info := b.u32 28, rawAlign := b.u32 32,
    entrySize := b.u32 36 }

/-! ### Types -/

def progbits : UInt32 := 1
def symtab : UInt32 := 2
def rela : UInt32 := 4
def nobits : UInt32 := 8
def rel : UInt32 := 9
def initArray : UInt32 := 14
def finiArray : UInt32 := 15
def preinitArray : UInt32 := 16

/-! ### Fields -/

/-- The flags that matter for placement: writable 1, allocated 2, executable 4. -/
def flags (h : SectionHeader) : UInt32 := h.rawFlags &&& 7

def isWritable (h : SectionHeader) : Bool := h.flags &&& 1 != 0
def isAllocated (h : SectionHeader) : Bool := h.flags &&& 2 != 0
def isExecutable (h : SectionHeader) : Bool := h.flags &&& 4 != 0

def size (h : SectionHeader) : Nat := h.rawSize.toNat
def offset (h : SectionHeader) : Nat := h.rawOffset.toNat

/-- The alignment asked for, at least one. -/
def align (h : SectionHeader) : Nat := max h.rawAlign.toNat 1

/-- Sections that are empty, not allocated or of another type get no place. -/
def class? (h : SectionHeader) : Option SectionClass :=
  if !h.isAllocated || h.size == 0 then none
  else if h.type = progbits && h.isExecutable then some .text
  else if h.type = progbits || h.type = initArray || h.type = finiArray || h.type = preinitArray then
    if h.isWritable then some .data else some .readOnly
  else if h.type = nobits then some .bss
  else none

end SectionHeader

end FlashLink
