import FlashLink.Bytes

/-!
Symbol table entries: sixteen bytes with a name offset, a value, a size, a binding and type, and the
section the value counts from.
-/

namespace FlashLink

structure Symbol where
  name : UInt32
  value : UInt32
  size : UInt32
  info : UInt8
  other : UInt8
  shndx : UInt16
deriving DecidableEq

namespace Symbol

/-- Bytes of one entry. -/
def width : Nat := 16

def ofBytes (b : Bytes) : Symbol :=
  { name := b.u32 0, value := b.u32 4, size := b.u32 8, info := b.byte 12, other := b.byte 13,
    shndx := b.u16 14 }

def binding (s : Symbol) : Nat := (s.info >>> 4).toNat

def type (s : Symbol) : Nat := (s.info &&& 0xf).toNat

/-- Index of the section the value counts from. -/
def home (s : Symbol) : Nat := s.shndx.toNat

/-- The symbol is only named here, and defined by the host. -/
def isUndefined (s : Symbol) : Bool := s.shndx == 0

/-- The value is an address as it stands. -/
def isAbsolute (s : Symbol) : Bool := s.shndx == 0xfff1

def isFunction (s : Symbol) : Bool := s.type == 2

def isGlobal (s : Symbol) : Bool := s.binding == 1

end Symbol

end FlashLink
