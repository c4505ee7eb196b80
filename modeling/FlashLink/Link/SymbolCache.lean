import FlashLink.Bytes

/-!
A direct-mapped cache of resolved symbols. A symbol has one slot, its index modulo their number, and
a symbol that needs a taken slot takes it over.
-/

namespace FlashLink

structure SymbolCache where
  slots : Array (Option (Nat × Addr))
  hits : Nat
  misses : Nat
deriving DecidableEq

namespace SymbolCache

/-- A cache has at least one slot. -/
def create (slots : Nat) : SymbolCache := ⟨Array.replicate (max slots 1) none, 0, 0⟩

def slot (c : SymbolCache) (index : Nat) : Nat := index % c.slots.size

/-- The address that is held for a symbol. -/
def find? (c : SymbolCache) (index : Nat) : Option Addr :=
  match c.slots.getD (c.slot index) none with
  | some (i, addr) => if i = index then some addr else none
  | none => none

/-- Looks a symbol up and counts the look-up. -/
def get (c : SymbolCache) (index : Nat) : Option Addr × SymbolCache :=
  match c.find? index with
  | some addr => (some addr, { c with hits := c.hits + 1 })
  | none => (none, { c with misses := c.misses + 1 })

def insert (c : SymbolCache) (index : Nat) (addr : Addr) : SymbolCache :=
  { c with slots := c.slots.setIfInBounds (c.slot index) (some (index, addr)) }

def clear (c : SymbolCache) : SymbolCache := ⟨Array.replicate c.slots.size none, 0, 0⟩

end SymbolCache

end FlashLink
