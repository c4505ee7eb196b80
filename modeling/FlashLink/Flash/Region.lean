import FlashLink.Flash.Nor

/-!
A partition of a flash device and a bump allocator over it. The next free offset only grows, in
whole sectors; there is no way to give a single allocation back, only to rewind or empty the region.
-/

namespace FlashLink

/-- A part of a device and where the CPU sees it. -/
structure Partition where
  offset : Nat
  size : Nat
  base : Addr
deriving DecidableEq

/-- What an allocation hands out: whole sectors. -/
structure FlashSpan where
  offset : Nat
  len : Nat
  addr : Addr
deriving DecidableEq

/-- The address lies among the `len` bytes that start at `start`. -/
def covers (start : Addr) (len : Nat) (addr : Addr) : Bool :=
  start ≤ addr && (addr - start).toNat < len

namespace FlashSpan

def contains (s : FlashSpan) (addr : Addr) : Bool := covers s.addr s.len addr

end FlashSpan

structure Region where
  name : String
  device : Nor
  partition : Partition
  nextFree : Nat
deriving DecidableEq

namespace Region

def sector (r : Region) : Nat := r.device.sector

def remaining (r : Region) : Nat := r.partition.size - r.nextFree

/-- CPU address of a region offset. -/
def address (r : Region) (offset : Nat) : Addr := r.partition.base + UInt32.ofNat offset

/-- Region offset of a CPU address inside the partition. -/
def offsetOf? (r : Region) (addr : Addr) : Option Nat :=
  if covers r.partition.base r.partition.size addr then some (addr - r.partition.base).toNat
  else none

def contains (r : Region) (addr : Addr) : Bool := (r.offsetOf? addr).isSome

def devicePart : Part Region Nor := fun r =>
  match r with
  | ⟨name, device, partition, nextFree⟩ =>
    (device, fun device => ⟨name, device, partition, nextFree⟩)

/-- What is wrong with carving `p` out of `d`, if anything. -/
def fault? (name : String) (d : Nor) (p : Partition) : Option FlashFault :=
  if d.sector = 0 ∨ d.sector % wordSize ≠ 0 then some (.sectorSize name d.sector)
  else if d.size < p.offset + p.size then some (.partitionTooLarge name p.offset p.size d.size)
  else if p.offset % d.sector ≠ 0 ∨ p.size % d.sector ≠ 0 then some (.partitionUnaligned name)
  else none

/-- An empty region over a partition of a device. -/
def create {σ : Type} (name : String) (d : Nor) (p : Partition) : Act σ Region := do
  match fault? name d p with
  | some why => throw (.flash why)
  | none =>
    Act.note (.regionCreated name p.base p.size d.sector)
    return ⟨name, d, p, 0⟩

/-- Reserves `size` bytes rounded up to whole sectors. A failure leaves the region as it was. -/
def reserve (size : Nat) : Act Region FlashSpan := fun r =>
  let len := alignUp size r.sector
  if sizeLimit ≤ len then ⟨.error (.breach .sizeOverflow), r, []⟩
  else if r.remaining < len then ⟨.error (.outOfFlash r.name len r.remaining), r, []⟩
  else
    let span : FlashSpan := ⟨r.nextFree, len, r.address r.nextFree⟩
    let event := Event.regionReserved r.name len r.nextFree
    ⟨.ok span, { r with nextFree := r.nextFree + len }, [event]⟩

/-- The access stays inside the partition. -/
def checkSpan (offset len : Nat) : Op Region Unit := fun r =>
  if offset + len ≤ r.partition.size then .ok () r
  else .error (.flash (.outsidePartition r.name offset len)) r

/-- Erases every sector of a span. -/
def erase (s : FlashSpan) : Op Region Unit := do
  if s.len = 0 then return
  checkSpan s.offset s.len
  let start := (← get).partition.offset
  Op.zoom devicePart (Nor.erase (start + s.offset) s.len)

def reserveErased (size : Nat) : Act Region FlashSpan := do
  let s ← reserve size
  erase s
  return s

def write (offset : Nat) (data : Bytes) : Op Region Unit := do
  let name := (← get).name
  if offset % wordSize ≠ 0 ∨ data.size % wordSize ≠ 0 then
    throw (.flash (.unalignedWrite name data.size offset))
  checkSpan offset data.size
  let start := (← get).partition.offset
  Op.zoom devicePart (Nor.write (start + offset) data)

def read (offset len : Nat) : Op Region Bytes := do
  checkSpan offset len
  let start := (← get).partition.offset
  Op.zoom devicePart (Nor.read (start + offset) len)

/-- Empties the region; everything allocated from it becomes invalid. -/
def reset : Act Region Unit := do
  Act.note (.regionReset (← get).name)
  modify fun r => { r with nextFree := 0 }

/-- Moves the next free offset back to a value taken earlier. -/
def rewind (nextFree : Nat) : Op Region Unit := fun r =>
  if nextFree ≤ r.nextFree ∧ nextFree % r.sector = 0 then .ok () { r with nextFree := nextFree }
  else .error (.breach .staleCheckpoint) r

end Region

end FlashLink
