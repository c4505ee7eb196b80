import FlashLink.Fault

/-!
File headers. Only little-endian ELF32 relocatable objects for ARM are accepted.
-/

namespace FlashLink

structure FileHeader where
  ident : Bytes
  type : UInt16
  machine : UInt16
  version : UInt32
  entry : UInt32
  phoff : UInt32
  shoff : UInt32
  flags : UInt32
  ehsize : UInt16
  phentsize : UInt16
  phnum : UInt16
  shentsize : UInt16
  shnum : UInt16
  shstrndx : UInt16
deriving DecidableEq

namespace FileHeader

/-- Bytes of the header. -/
def width : Nat := 52

/-- The fields as they stand, accepted or not. -/
def ofBytes (b : Bytes) : FileHeader :=
  { ident := b.slice 0 16, type := b.u16 16, machine := b.u16 18, version := b.u32 20,
    entry := b.u32 24, phoff := b.u32 28, shoff := b.u32 32, flags := b.u32 36, ehsize := b.u16 40,
    phentsize := b.u16 42, phnum := b.u16 44, shentsize := b.u16 46, shnum := b.u16 48,
    shstrndx := b.u16 50 }

/-- The first thing that is wrong with the header, if any. -/
def fault? (h : FileHeader) : Option ObjectFault :=
  if h.ident.slice 0 4 ≠ #[0x7f, 0x45, 0x4c, 0x46] then some .magic
  else if h.ident.byte 4 ≠ 1 then some .notElf32
  else if h.ident.byte 5 ≠ 1 then some .notLittleEndian
  else if h.ident.byte 6 ≠ 1 then some .version
  else if h.type ≠ 1 then some (.notRelocatable h.type.toNat)
  else if h.machine ≠ 40 then some (.machine h.machine.toNat)
  else if h.shnum ≠ 0 ∧ h.shentsize ≠ 40 then some .headerSize
  else none

def parse (b : Bytes) : Except Error FileHeader :=
  let h := ofBytes b
  match h.fault? with
  | some why => .error (.parse why)
  | none => .ok h

end FileHeader

end FlashLink
