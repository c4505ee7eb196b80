import FlashLink.Flash.Region

/-!
The RAM block that holds the variables of loaded modules, with a bump allocator over it.
-/

namespace FlashLink

/-- A block of the pool. -/
structure RamBlock where
  offset : Nat
  addr : Addr
  len : Nat
deriving DecidableEq

namespace RamBlock

def contains (b : RamBlock) (addr : Addr) : Bool := covers b.addr b.len addr

end RamBlock

structure Pool where
  base : Addr
  mem : Bytes
  used : Nat
deriving DecidableEq

namespace Pool

/-- Every allocation is aligned to at least this, the size of a pointer. -/
def minAlign : Nat := 4

def create (base : Addr) (size : Nat) : Pool := ⟨base, .zeros size, 0⟩

def capacity (p : Pool) : Nat := p.mem.size

/-- Reserves `size` bytes at a multiple of `align`. A failure leaves the pool as it was. -/
def reserve (size align : Nat) : Act Pool RamBlock := fun p =>
  let offset := alignUp p.used (max align minAlign)
  let available := p.capacity - offset
  if sizeLimit ≤ offset then ⟨.error (.breach .sizeOverflow), p, []⟩
  else if available < size then ⟨.error (.outOfMemory size available), p, []⟩
  else
    ⟨.ok ⟨offset, p.base + UInt32.ofNat offset, size⟩, { p with used := offset + size },
      [.poolReserved size offset]⟩

def bytes (p : Pool) (b : RamBlock) : Bytes := p.mem.slice b.offset b.len

/-- The pool with `data` at offset `start` of a block. -/
def overwrite (p : Pool) (b : RamBlock) (start : Nat) (data : Bytes) : Pool :=
  { p with mem := p.mem.overwrite (b.offset + start) data }

def clear (p : Pool) (b : RamBlock) : Pool := { p with mem := p.mem.fill b.offset b.len 0 }

/-- Pool offset of an address. -/
def offsetOf? (p : Pool) (addr : Addr) : Option Nat :=
  if covers p.base p.capacity addr then some (addr - p.base).toNat else none

/-- Pool offset of `len` bytes at an address, if they all lie in the pool. -/
def span? (p : Pool) (addr : Addr) (len : Nat) : Option Nat :=
  match p.offsetOf? addr with
  | some start => if start + len ≤ p.capacity then some start else none
  | none => none

def reset (p : Pool) : Pool := { p with mem := p.mem.fill 0 p.mem.size 0, used := 0 }

end Pool

end FlashLink
