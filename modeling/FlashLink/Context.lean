import FlashLink.Machine.Memory
import FlashLink.Pool
import FlashLink.Residency.Trampolines

/-!
Everything that loading allocates from: the execute-in-place region, the internal flash region, the
RAM pool and the trampolines. Checkpoints remember all four allocators at once; rolling back to one
gives back whatever was allocated since.
-/

namespace FlashLink

structure Context where
  xip : Region
  iflash : Region
  pool : Pool
  trampolines : Trampolines
deriving DecidableEq

structure Checkpoint where
  xip : Nat
  iflash : Nat
  pool : Nat
  trampolines : Trampolines
deriving DecidableEq

namespace Context

def create (xip iflash : Region) (pool : Pool) : Context := ⟨xip, iflash, pool, .empty⟩

/-! ### Parts -/

def xipPart : Part Context Region := fun c =>
  match c with
  | ⟨xip, iflash, pool, trampolines⟩ => (xip, fun xip => ⟨xip, iflash, pool, trampolines⟩)

def iflashPart : Part Context Region := fun c =>
  match c with
  | ⟨xip, iflash, pool, trampolines⟩ => (iflash, fun iflash => ⟨xip, iflash, pool, trampolines⟩)

def poolPart : Part Context Pool := fun c =>
  match c with
  | ⟨xip, iflash, pool, trampolines⟩ => (pool, fun pool => ⟨xip, iflash, pool, trampolines⟩)

/-- The trampolines and the region that they allocate from. -/
def trampolinePart : Part Context (Trampolines × Region) := fun c =>
  match c with
  | ⟨xip, iflash, pool, trampolines⟩ =>
    ((trampolines, iflash), fun (trampolines, iflash) => ⟨xip, iflash, pool, trampolines⟩)

/-! ### Checkpoints -/

def checkpoint (c : Context) : Checkpoint :=
  ⟨c.xip.nextFree, c.iflash.nextFree, c.pool.used, c.trampolines⟩

/-- Gives back everything allocated since the checkpoint. The trampoline sector of that time may
hold records that are given back now, so no more records go into it. -/
def rollback (p : Checkpoint) : Act Context Unit := do
  Act.note (.rolledBack p.xip p.iflash p.pool)
  Act.zoom xipPart (Act.ofOp (Region.rewind p.xip))
  Act.zoom iflashPart (Act.ofOp (Region.rewind p.iflash))
  modify fun c =>
    { c with
      pool.used := p.pool
      trampolines := if c.trampolines = p.trampolines then c.trampolines else p.trampolines.retire }

/-- Empties both regions and the pool. -/
def reset : Act Context Unit := do
  Act.note .contextReset
  Act.zoom xipPart Region.reset
  Act.zoom iflashPart Region.reset
  modify fun c => { c with pool := c.pool.reset, trampolines := .empty }

/-! ### The address space -/

/-- Reads from the region the first address lies in, else from the pool. -/
def read (addr : Addr) (len : Nat) : Op Context Bytes := fun c =>
  match c.xip.offsetOf? addr with
  | some offset => Op.zoom xipPart (Region.read offset len) c
  | none =>
    match c.iflash.offsetOf? addr with
    | some offset => Op.zoom iflashPart (Region.read offset len) c
    | none =>
      match c.pool.span? addr len with
      | some start => .ok (c.pool.mem.slice start len) c
      | none => .error (.execution (.unmappedRead len addr)) c

/-- Writes to the pool. Flash cannot be written through the address space. -/
def write (addr : Addr) (data : Bytes) : Op Context Unit := fun c =>
  if c.xip.contains addr || c.iflash.contains addr then
    .error (.execution (.flashWrite addr)) c
  else
    match c.pool.span? addr data.size with
    | some start => .ok () { c with pool.mem := c.pool.mem.overwrite start data }
    | none => .error (.execution (.unmappedWrite data.size addr)) c

instance : Memory Context := ⟨read, write⟩

end Context

end FlashLink
