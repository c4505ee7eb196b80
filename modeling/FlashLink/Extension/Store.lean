import FlashLink.Source

/-!
Where installed extensions live: a module and perhaps a manifest for each identifier. Identifiers are
listed in order.
-/

namespace FlashLink

class Store (σ : Type) where
  /-- Makes sure that there is a place for extensions. -/
  ensureBase : Op σ Unit
  /-- The identifiers of all installed extensions, sorted. -/
  list : Op σ (List String)
  /-- The module of an extension, if it has one. -/
  openModule : String → Op σ (Option Source)
  /-- The manifest of an extension, if it has one. -/
  readManifest : String → Op σ (Option Bytes)
  /-- Makes room for an extension; room that is there already is fine. -/
  prepare : String → Op σ Unit
  /-- Removes the module, the manifest and, if nothing else is in it, the room of an extension. -/
  remove : String → Op σ Unit
  /-- There is room for the extension. -/
  has : String → σ → Bool
  /-- Puts the module of an extension in place, with room if need be. -/
  install : String → Bytes → Op σ Unit
  /-- Puts the manifest of an extension in place, with room if need be. -/
  setManifest : String → Bytes → Op σ Unit

/-- Identifiers in order. -/
def sortIds (ids : List String) : List String := ids.mergeSort fun a b => decide (a ≤ b)

/-! ### In memory -/

structure MemEntry where
  module : Option Bytes
  manifest : Option Bytes
deriving DecidableEq

/-- A store in memory. Every identifier occurs once. -/
structure MemStore where
  entries : List (String × MemEntry)
deriving DecidableEq

namespace MemStore

def empty : MemStore := ⟨[]⟩

def find? (s : MemStore) (id : String) : Option MemEntry := s.entries.lookup id

def contains (s : MemStore) (id : String) : Bool := (s.find? id).isSome

/-- Changes the entry of an identifier, which begins without files. -/
def update (s : MemStore) (id : String) (f : MemEntry → MemEntry) : MemStore :=
  match s.find? id with
  | none => ⟨(id, f ⟨none, none⟩) :: s.entries⟩
  | some _ => ⟨s.entries.map fun e => if e.1 = id then (id, f e.2) else e⟩

def install (s : MemStore) (id : String) (module : Bytes) : MemStore :=
  s.update id fun e => { e with module := some module }

def setManifest (s : MemStore) (id : String) (manifest : Bytes) : MemStore :=
  s.update id fun e => { e with manifest := some manifest }

instance : Store MemStore where
  ensureBase := return ()
  list := return sortIds ((← get).entries.map (·.1))
  openModule id := do
    return (((← get).find? id).bind (·.module)).map (Source.ofBytes id)
  readManifest id := do
    return ((← get).find? id).bind (·.manifest)
  prepare id := modify fun s => s.update id fun e => e
  remove id := modify fun s => ⟨s.entries.filter (·.1 ≠ id)⟩
  has id s := s.contains id
  install id module := modify fun s => s.install id module
  setManifest id manifest := modify fun s => s.setManifest id manifest

end MemStore

end FlashLink
