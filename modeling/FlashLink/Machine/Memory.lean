import FlashLink.Act

/-!
Byte-addressed memory as running code sees it, and what is read from it: words and zero-terminated
text.
-/

namespace FlashLink

/-- Memory that can be read and written, where reading may be counted too. -/
class Memory (μ : Type) where
  read : Addr → Nat → Op μ Bytes
  write : Addr → Bytes → Op μ Unit

namespace Memory

variable {μ : Type} [Memory μ]

def readWord (addr : Addr) : Op μ UInt32 := do
  return (← read addr 4).u32 0

def writeWord (addr : Addr) (value : UInt32) : Op μ Unit := write addr (Bytes.ofU32 value)

/-- The text at `start`, of which `seen` came before `addr`, with at most `fuel` bytes to go. -/
def readTextFrom (start : Addr) (limit : Nat) : Nat → Addr → Bytes → Op μ String
  | 0, _, _ => throw (.execution (.textUnterminated start limit))
  | fuel + 1, addr, seen => do
    let b := (← read addr 1).byte 0
    if b = 0 then
      match seen.text? with
      | some s => return s
      | none => throw (.execution (.textNotUtf8 start))
    else
      readTextFrom start limit fuel (addr + 1) (seen.push b)

/-- Zero-terminated text of fewer than `limit` bytes. -/
def readText (addr : Addr) (limit : Nat) : Op μ String := readTextFrom addr limit limit addr #[]

end Memory

end FlashLink
