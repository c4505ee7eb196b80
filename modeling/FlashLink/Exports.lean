import FlashLink.Bytes

/-!
Host symbols that modules link against. Undefined symbols of a module are looked up here and nowhere
else, never in other modules.
-/

namespace FlashLink

/-- How undefined symbols are found. -/
abbrev Lookup : Type := String → Option Addr

/-- A table of host symbols, each name once, in order of first insertion. -/
structure Exports where
  entries : List (String × Addr)
deriving DecidableEq

namespace Exports

def empty : Exports := ⟨[]⟩

def lookup (t : Exports) (name : String) : Option Addr := t.entries.lookup name

/-- Adds a name, or gives it a new address. -/
def insert (t : Exports) (name : String) (addr : Addr) : Exports :=
  if (t.lookup name).isSome then
    ⟨t.entries.map fun e => if e.1 = name then (name, addr) else e⟩
  else ⟨t.entries ++ [(name, addr)]⟩

/-- A later pair of the same name replaces an earlier one. -/
def ofList (pairs : List (String × Addr)) : Exports :=
  pairs.foldl (fun t (name, addr) => t.insert name addr) empty

def size (t : Exports) : Nat := t.entries.length

/-- All entries, sorted by name. -/
def toSorted (t : Exports) : List (String × Addr) :=
  t.entries.mergeSort fun a b => decide (a.1 ≤ b.1)

end Exports

end FlashLink
