import FlashLink.Act

/-!
Where the bytes of a module come from: memory or a file. Both answer positioned reads and differ in
what happens at the end: memory refuses such a read as a whole, a file delivers what it has. Every
read is recorded, the latest first.
-/

namespace FlashLink

inductive SourceKind where
  | memory (data : Bytes)
  | file (data : Bytes)
  /-- A directory can be opened like a file, but no byte of it can be read. -/
  | directory
deriving DecidableEq

/-- One read: where, and how many bytes. -/
structure ReadRequest where
  offset : Nat
  len : Nat
deriving DecidableEq

structure Source where
  name : String
  kind : SourceKind
  reads : List ReadRequest
deriving DecidableEq

namespace Source

def ofBytes (name : String) (data : Bytes) : Source := ⟨name, .memory data, []⟩

/-- Name of a source that has none of its own. -/
def anonymous : String := "<memory>"

/-- The name without directories. -/
def shortName (s : Source) : String :=
  String.ofList (s.name.toList.reverse.takeWhile (· ≠ '/')).reverse

/-- The bytes that a read of `len` bytes at `offset` puts into the buffer, and why it stopped if it
did. -/
def deliver (s : Source) (offset len : Nat) : Bytes × Option Error :=
  match s.kind with
  | .memory data =>
    if offset + len ≤ data.size then (data.slice offset len, none)
    else (#[], some (.io (.pastEnd len offset)))
  | .file data =>
    if len = 0 ∨ offset + len ≤ data.size then (data.slice offset len, none)
    else (data.slice offset len, some (.io (.unreadable len offset s.name .short)))
  | .directory =>
    if len = 0 then (#[], none)
    else (#[], some (.io (.unreadable len offset s.name .isDirectory)))

/-- Reads into the bytes at `start` of a buffer. What a failed read has delivered stays there. -/
def readInto (start offset len : Nat) : Act (Bytes × Source) Unit := fun (buf, s) =>
  match s.deliver offset len with
  | (got, fault) =>
    let state := (buf.overwrite start got, { s with reads := ⟨offset, len⟩ :: s.reads })
    match fault with
    | none => ⟨.ok (), state, []⟩
    | some e => ⟨.error e, state, []⟩

def read (offset len : Nat) : Act Source Bytes := fun s =>
  match s.deliver offset len with
  | (got, fault) =>
    let state := { s with reads := ⟨offset, len⟩ :: s.reads }
    match fault with
    | none => ⟨.ok got, state, []⟩
    | some e => ⟨.error e, state, []⟩

/-- Length of the longest single read. -/
def longestRead (s : Source) : Nat := s.reads.foldl (fun m r => max m r.len) 0

end Source

end FlashLink
