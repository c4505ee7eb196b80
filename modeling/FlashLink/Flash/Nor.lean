import FlashLink.Act

/-!
A NOR flash device. Erasing works on whole sectors and sets every bit; writing is word aligned and
can only clear bits, so a location has to be erased before it is written again. One failure at a
time can be armed, to see how callers cope.
-/

namespace FlashLink

/-- Writes start and end on this boundary. -/
def wordSize : Nat := 4

/-- Value of an erased byte. -/
def erasedByte : UInt8 := 0xff

inductive FlashOperation where
  | erase
  | write
deriving DecidableEq

/-- A failure of the operation that follows `after` successful ones of its kind. -/
structure ArmedFault where
  operation : FlashOperation
  after : Nat
deriving DecidableEq

structure FlashStats where
  reads : Nat
  bytesRead : Nat
  erases : Nat
  sectorsErased : Nat
  writes : Nat
  bytesWritten : Nat
deriving DecidableEq

namespace FlashStats

def zero : FlashStats := ⟨0, 0, 0, 0, 0, 0⟩

end FlashStats

structure Nor where
  contents : Bytes
  sector : Nat
  /-- What the device says an erased byte is; erasing always leaves `erasedByte`. -/
  reported : UInt8
  stats : FlashStats
  armed : Option ArmedFault
deriving DecidableEq

namespace Nor

/-- An erased device. -/
def create (size sector : Nat) (reported : UInt8) : Nor :=
  ⟨Array.replicate size erasedByte, sector, reported, .zero, none⟩

def size (d : Nor) : Nat := d.contents.size

def arm (d : Nor) (f : ArmedFault) : Nor := { d with armed := some f }

def resetStats (d : Nor) : Nor := { d with stats := .zero }

/-- The armed failure strikes now. -/
def strikes (d : Nor) (op : FlashOperation) : Bool :=
  d.armed == some ⟨op, match op with | .erase => d.stats.erases | .write => d.stats.writes⟩

def read (offset len : Nat) : Op Nor Bytes := fun d =>
  if d.size < offset + len then .error (.flash (.outsideDevice offset len d.size)) d
  else
    let data := d.contents.slice offset len
    .ok data { d with stats.reads := d.stats.reads + 1, stats.bytesRead := d.stats.bytesRead + len }

def erase (offset len : Nat) : Op Nor Unit := fun d =>
  if offset % d.sector ≠ 0 ∨ len % d.sector ≠ 0 then .error (.flash (.unalignedErase offset len)) d
  else if d.size < offset + len then .error (.flash (.outsideDevice offset len d.size)) d
  else if d.strikes .erase then .error (.flash (.injectedErase offset)) { d with armed := none }
  else
    .ok () { d with
      contents := d.contents.fill offset len erasedByte
      stats.erases := d.stats.erases + 1
      stats.sectorsErased := d.stats.sectorsErased + len / d.sector }

/-- The first byte of `data` that asks for a bit the device cannot set without an erase. -/
def firstRise? (contents : Bytes) (offset : Nat) (data : Bytes) : Option Nat :=
  (List.range data.size).find? fun i => contents.byte (offset + i) &&& data.byte i != data.byte i

def write (offset : Nat) (data : Bytes) : Op Nor Unit := fun d =>
  if offset % wordSize ≠ 0 ∨ data.size % wordSize ≠ 0 then
    .error (.flash (.unalignedProgram offset data.size)) d
  else if d.size < offset + data.size then
    .error (.flash (.outsideDevice offset data.size d.size)) d
  else if d.strikes .write then .error (.flash (.injectedWrite offset)) { d with armed := none }
  else match firstRise? d.contents offset data with
    | some i => .error (.flash (.notErased (offset + i))) d
    | none =>
      .ok () { d with
        contents := d.contents.updateSpan offset data.size fun i old => old &&& data.byte i
        stats.writes := d.stats.writes + 1
        stats.bytesWritten := d.stats.bytesWritten + data.size }

end Nor

end FlashLink
