import FlashLink.Flash.Nor
import FlashLink.Load.Object
import FlashLink.Link.Apply

/-!
The loader's desk: the bounded buffers that stay with a loader, and the source and symbol cache of
the load at hand. Relocation tables are read through here, one batch at a time.
-/

namespace FlashLink

/-- Buffers sized once from the configuration and used again for every module. -/
structure Scratch where
  /-- One chunk of a section. -/
  staging : Bytes
  /-- One batch of relocation entries, as read. -/
  raw : Bytes
  /-- The same batch, decoded. -/
  batch : List Relocation
deriving DecidableEq

namespace Scratch

def create (c : LoaderConfig) : Scratch :=
  ⟨.zeros c.chunkSize, .zeros (c.batchSize * Relocation.width), []⟩

/-- Entries that fit in a batch. -/
def batchSize (s : Scratch) : Nat := s.raw.size / Relocation.width

/-- Bytes that the buffers take: the chunk, the batch as read, and the batch decoded. -/
def bytes (s : Scratch) : Nat :=
  s.staging.size + s.raw.size + s.batchSize * Relocation.width

end Scratch

structure Desk where
  scratch : Scratch
  linker : Linker
deriving DecidableEq

namespace Desk

/-! ### Parts -/

def sourcePart : Part Desk Source := fun d =>
  match d with
  | ⟨scratch, ⟨source, cache⟩⟩ => (source, fun source => ⟨scratch, ⟨source, cache⟩⟩)

/-- The buffer for entries as read, and the source that fills it. -/
def rawPart : Part Desk (Bytes × Source) := fun d =>
  match d with
  | ⟨⟨staging, raw, batch⟩, ⟨source, cache⟩⟩ =>
    ((raw, source), fun (raw, source) => ⟨⟨staging, raw, batch⟩, ⟨source, cache⟩⟩)

/-- The chunk buffer, and the source that fills it. -/
def stagingPart : Part Desk (Bytes × Source) := fun d =>
  match d with
  | ⟨⟨staging, raw, batch⟩, ⟨source, cache⟩⟩ =>
    ((staging, source), fun (staging, source) => ⟨⟨staging, raw, batch⟩, ⟨source, cache⟩⟩)

/-- The first `len` bytes of the chunk buffer, and what relocating them needs. -/
def chunkPart (len : Nat) : Part Desk (Bytes × Linker) := fun d =>
  match d with
  | ⟨⟨staging, raw, batch⟩, linker⟩ =>
    ((staging.slice 0 len, linker), fun (chunk, linker) =>
      ⟨⟨staging.overwrite 0 chunk, raw, batch⟩, linker⟩)

/-! ### Batches of relocations -/

/-- The first `count` entries in a buffer. -/
def decodeBatch (raw : Bytes) (count : Nat) : List Relocation :=
  (List.range count).map fun i =>
    Relocation.ofBytes (raw.slice (i * Relocation.width) Relocation.width)

/-- Reads one batch of a table from entry `first` on. -/
def readBatch (t : RelocationTable) (first : Nat) : Act Desk (List Relocation) := do
  let count := min (← get).scratch.batchSize (t.count - first)
  Act.zoom rawPart
    (Source.readInto 0 (t.offset + first * Relocation.width) (count * Relocation.width))
  modify fun d => { d with scratch.batch := decodeBatch d.scratch.raw count }
  return (← get).scratch.batch

variable {β : Type}

/-- Folds over the batches of a table from entry `first` on. Every batch has an entry, so `fuel` need
not exceed the number of entries left. -/
def foldFrom (t : RelocationTable) (f : β → List Relocation → Act Desk β) :
    Nat → Nat → β → Act Desk β
  | 0, _, b => return b
  | fuel + 1, first, b => do
    if t.count ≤ first then return b
    let batch ← readBatch t first
    foldFrom t f fuel (first + batch.length) (← f b batch)

/-- Folds over the batches of a table. -/
def foldBatches (t : RelocationTable) (init : β) (f : β → List Relocation → Act Desk β) :
    Act Desk β :=
  foldFrom t f t.count 0 init

/-- Every field of the table lies in a section of `size` bytes. -/
def checkFields (t : RelocationTable) (size : Nat) : Act Desk Unit :=
  foldBatches t () fun _ batch =>
    match batch.find? fun r => decide (size < r.stop) with
    | some r => throw (.parse (.fieldOutsideSection r.start size))
    | none => return ()

/-! ### Chunk boundaries -/

/-- The lowest of `low` and the word boundaries before those fields that straddle `stop`. -/
def lowest (stop low : Nat) (batch : List Relocation) : Nat :=
  batch.foldl (fun low r =>
    if r.start < stop ∧ stop < r.stop then min low (r.start / wordSize * wordSize) else low) low

/-- Moves a boundary down, word by word, until no field straddles it. -/
def boundaryFrom (t : RelocationTable) (start : Nat) : Nat → Nat → Act Desk Nat
  | 0, stop => throw (.parse (.straddled stop))
  | fuel + 1, stop => do
    let low ← foldBatches t stop fun low batch => return lowest stop low batch
    if low = stop then return stop
    if low ≤ start then throw (.parse (.straddled stop))
    Act.note (.chunkShortened stop low)
    boundaryFrom t start fuel low

/-- The end of the chunk that begins at `start` and should end at `stop`. -/
def boundary (t : RelocationTable) (start stop : Nat) : Act Desk Nat :=
  boundaryFrom t start (stop - start) stop

end Desk

end FlashLink
