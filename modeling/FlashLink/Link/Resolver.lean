import FlashLink.Elf.Symbol
import FlashLink.Exports
import FlashLink.Link.Placement
import FlashLink.Link.SymbolCache
import FlashLink.Source

/-!
From symbol indices to addresses. Symbols are read from the source one at a time; only their names
are held, up to a limit. Resolved symbols go through a cache.
-/

namespace FlashLink

structure SymbolTable where
  /-- Where the table starts in the source. -/
  offset : Nat
  count : Nat
  /-- The names, cut off at a limit. -/
  strings : Bytes
deriving DecidableEq

namespace SymbolTable

def read (t : SymbolTable) (index : Nat) : Act Source Symbol := do
  if t.count ≤ index then throw (.invalidSymbol index .noEntry)
  return Symbol.ofBytes (← Source.read (t.offset + index * Symbol.width) Symbol.width)

/-- The name of a symbol, which has to end before the limit. -/
def name (t : SymbolTable) (index : Nat) (s : Symbol) : Except Error String :=
  if t.strings.size < s.name.toNat then .error (.invalidSymbol index .nameOutside)
  else match t.strings.untilZero? s.name.toNat with
    | none => .error (.invalidSymbol index .nameTruncated)
    | some bytes =>
      match bytes.text? with
      | none => .error (.invalidSymbol index .nameNotText)
      | some text => .ok text

/-- The symbol is global, defined and of that name. -/
def defines (t : SymbolTable) (name : String) (index : Nat) (s : Symbol) : Bool :=
  s.isGlobal && !s.isUndefined && match t.name index s with
    | .ok n => n == name
    | .error _ => false

/-- Searches `left` symbols from `index` on. -/
def findFrom (t : SymbolTable) (name : String) : Nat → Nat → Act Source (Option Symbol)
  | 0, _ => return none
  | left + 1, index => do
    let s ← t.read index
    if t.defines name index s then return some s
    findFrom t name left (index + 1)

/-- The first global, defined symbol of that name. -/
def findGlobal (t : SymbolTable) (name : String) : Act Source (Option Symbol) :=
  t.findFrom name (t.count - 1) 1

end SymbolTable

/-- What a symbol index means: the table, where sections are, and what the host offers. -/
structure Scope where
  symbols : SymbolTable
  placement : Placement
  exports : Lookup

/-- What resolving works with: the source is read and the cache filled. -/
structure Linker where
  source : Source
  cache : SymbolCache
deriving DecidableEq

namespace Linker

def sourcePart : Part Linker Source := fun l =>
  match l with
  | ⟨source, cache⟩ => (source, fun source => ⟨source, cache⟩)

end Linker

namespace Scope

/-- The address of a symbol. Undefined symbols are the host's, absolute ones are their value, and all
others count from their section. -/
def address (c : Scope) (index : Nat) (s : Symbol) : Act Linker Addr := do
  if s.isUndefined then
    let name ← Act.ofExcept (c.symbols.name index s)
    match c.exports name with
    | none => throw (.unresolvedSymbol name)
    | some addr =>
      Act.note (.symbolResolved name addr)
      return addr
  else if s.isAbsolute then return s.value
  else match c.placement.get? s.home with
    | none => throw (.unplacedSection s.home)
    | some base => return base + s.value

/-- The address of symbol `index`. Index 0 stands for no symbol. -/
def resolve (c : Scope) (index : Nat) : Act Linker Addr := do
  if index = 0 then return 0
  match ← modifyGet fun l => match l.cache.get index with
      | (found, cache) => (found, { l with cache }) with
  | some addr => return addr
  | none =>
    let s ← Act.zoom Linker.sourcePart (c.symbols.read index)
    let addr ← c.address index s
    modify fun l => { l with cache := l.cache.insert index addr }
    return addr

/-- The address of the global symbol `name`, with the Thumb bit if it is a function. -/
def entryAddress (c : Scope) (name : String) : Act Source Addr := do
  match ← c.symbols.findGlobal name with
  | none => throw (.entryNotFound name)
  | some s =>
    let base? := if s.isAbsolute then some 0 else c.placement.get? s.home
    match base? with
    | none => throw (.entryNotFound name)
    | some base =>
      let addr := base + s.value
      return if s.isFunction then addr ||| 1 else addr

end Scope

end FlashLink
