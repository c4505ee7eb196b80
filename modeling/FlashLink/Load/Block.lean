import FlashLink.Load.Desk
import FlashLink.Pool

/-!
Variables of a module. All sections of one class share one block of the pool: they are laid back to
back, each at its own alignment. Initialised sections are then copied into the block and relocated
there; the block of zero-initialised ones is cleared.
-/

namespace FlashLink

/-- Offsets of sections in a block, and the size and alignment of the block. -/
structure BlockLayout where
  offsets : List (SectionInfo × Nat)
  size : Nat
  align : Nat
deriving DecidableEq

namespace BlockLayout

/-- Lays out sections after the first `size` bytes of a block. -/
def layFrom : List SectionInfo → Nat → Nat → BlockLayout
  | [], size, align => ⟨[], size, align⟩
  | s :: rest, size, align =>
    let start := alignUp size s.header.align
    let l := layFrom rest (start + s.size) (max align s.header.align)
    { l with offsets := (s, start) :: l.offsets }

def ofSections (sections : List SectionInfo) : BlockLayout := layFrom sections 0 1

end BlockLayout

/-- A block and where its sections are in it. -/
structure Block where
  ram : RamBlock
  offsets : List (SectionInfo × Nat)
deriving DecidableEq

namespace Block

/-- The address of a section at an offset of the block. -/
def address (b : RamBlock) (offset : Nat) : Addr := b.addr + UInt32.ofNat offset

/-- Reserves one block for all sections; none if there are no sections. -/
def reserve (sections : List SectionInfo) : Act Pool (Option Block) := do
  if sections.isEmpty then return none
  let l := BlockLayout.ofSections sections
  let ram ← Pool.reserve l.size l.align
  Act.note (.blockPlaced l.size ram.addr)
  return some ⟨ram, l.offsets⟩

/-- The placement with the sections of the block in it. -/
def place (b : Block) (p : Placement) : Placement :=
  b.offsets.foldl (fun p (s, offset) => p.set s.index (address b.ram offset)) p

end Block

/-- A desk, and the pool that is copied to. -/
abbrev Workshop : Type := Desk × Pool

namespace Workshop

/-- The whole pool memory, and the source that fills it. -/
def fillPart : Part Workshop (Bytes × Source) := fun w =>
  match w with
  | (⟨scratch, ⟨source, cache⟩⟩, ⟨base, mem, used⟩) =>
    ((mem, source), fun (mem, source) => (⟨scratch, ⟨source, cache⟩⟩, ⟨base, mem, used⟩))

/-- The `len` bytes of the pool at `start`, and what relocating them needs. -/
def spanPart (start len : Nat) : Part Workshop (Bytes × Linker) := fun w =>
  match w with
  | (⟨scratch, linker⟩, ⟨base, mem, used⟩) =>
    ((mem.slice start len, linker), fun (bytes, linker) =>
      (⟨scratch, linker⟩, ⟨base, mem.overwrite start bytes, used⟩))

/-- Copies a section to an offset of a block and relocates it in place. -/
def copySection (scope : Scope) (strict : Bool) (ram : RamBlock) (s : SectionInfo) (offset : Nat) :
    Act Workshop Tally := do
  let start := ram.offset + offset
  let base := Block.address ram offset
  Act.zoom fillPart (Source.readInto start s.header.offset s.size)
  let sum ← match s.relocations with
    | none => pure .zero
    | some t =>
      relocate start base t t.count 0 .zero
  Act.note (.dataPlaced s.name base s.size sum.patched)
  return sum
where
  relocate (start : Nat) (base : Addr) (t : RelocationTable) :
      Nat → Nat → Tally → Act Workshop Tally
    | 0, _, sum => return sum
    | fuel + 1, first, sum => do
      if t.count ≤ first then return sum
      let batch ← Act.zoom Part.first (Desk.readBatch t first)
      let done ← Act.zoom (spanPart start s.size)
        (Relocation.applyChunk 0 base strict scope.resolve batch)
      relocate start base t fuel (first + batch.length) (sum.add done)

/-- Copies every section of a block. -/
def copyAll (scope : Scope) (strict : Bool) (ram : RamBlock) :
    List (SectionInfo × Nat) → Tally → Act Workshop Tally
  | [], sum => return sum
  | (s, offset) :: rest, sum => do
    let done ← copySection scope strict ram s offset
    copyAll scope strict ram rest (sum.add done)

end Workshop

/-- Clears a block. -/
def Block.clear (b : Block) : Act Pool Unit := do
  modify fun p => p.clear b.ram
  Act.note (.bssCleared b.ram.len b.ram.addr)

end FlashLink
