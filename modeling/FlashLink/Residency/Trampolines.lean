import FlashLink.Flash.Region
import FlashLink.Thumb.Record

/-!
Trampoline records packed into sectors of internal flash. Records are never freed one by one: a
fresh sector is reserved and erased whenever there is none or the current one is full.
-/

namespace FlashLink

structure Trampolines where
  sector : Option FlashSpan
  /-- Bytes of the sector that hold records. -/
  used : Nat
  created : Nat
deriving DecidableEq

namespace Trampolines

def empty : Trampolines := ⟨none, 0, 0⟩

/-- The current sector if another record fits. -/
def room? (t : Trampolines) : Option FlashSpan :=
  t.sector.filter fun s => t.used + Record.width ≤ s.len

/-- A sector with room for a record, a fresh one if need be. -/
def sectorWithRoom : Act (Trampolines × Region) FlashSpan := do
  match (← get).1.room? with
  | some s => return s
  | none =>
    let s ← Act.zoom Part.second do Region.reserveErased (← get).sector
    Act.note (.trampolineSector s.addr)
    modify fun (t, r) => ({ t with sector := some s, used := 0 }, r)
    return s

/-- Writes a new record that enters `target` with `base` in `r9`, and answers the address to call:
that of the record, with the Thumb bit. -/
def emit (target base : Addr) : Act (Trampolines × Region) Addr := do
  let s ← sectorWithRoom
  let used := (← get).1.used
  Act.zoom Part.second (Act.ofOp (Region.write (s.offset + used) (Record.bytes target base)))
  let addr := s.addr + UInt32.ofNat used
  modify fun (t, r) => ({ t with used := used + Record.width, created := t.created + 1 }, r)
  Act.note (.trampolineMade addr base target)
  return addr ||| 1

/-- Packs no more records into the current sector. -/
def retire (t : Trampolines) : Trampolines := { t with sector := none, used := 0 }

/-- Free bytes of the current sector; nothing if a record has run past its end. -/
def free? (t : Trampolines) : Option Nat :=
  match t.sector with
  | none => some 0
  | some s => if t.used ≤ s.len then some (s.len - t.used) else none

end Trampolines

end FlashLink
