import FlashLink.Flash.Region
import FlashLink.Load.Desk

/-!
Streaming a section to flash. The section goes through the chunk buffer: read, relocate, write. A
chunk never ends inside a relocated field, so what is written does not depend on where chunks end.
-/

namespace FlashLink

namespace Desk

/-- Applies the entries whose fields lie in the chunk of `len` bytes that begins at section offset
`start`. -/
def relocateChunk (scope : Scope) (strict : Bool) (t : RelocationTable) (base : Addr)
    (start len : Nat) : Act Desk Tally :=
  foldBatches t .zero fun sum batch => do
    let done ← Act.zoom (chunkPart len)
      (Relocation.applyChunk start base strict scope.resolve batch)
    return sum.add done

/-- Fills the chunk buffer with `len` relocated bytes of the section and, up to the next word, with
`padding`. -/
def stageChunk (scope : Scope) (strict : Bool) (s : SectionInfo) (base : Addr) (padding : UInt8)
    (start len : Nat) : Act Desk Tally := do
  modify fun d =>
    { d with scratch.staging := d.scratch.staging.fill len (alignUp len wordSize - len) padding }
  Act.zoom stagingPart (Source.readInto 0 (s.header.offset + start) len)
  match s.relocations with
  | none => return .zero
  | some t => relocateChunk scope strict t base start len

end Desk

/-- A desk, and the region that is streamed to. -/
abbrev Bench : Type := Desk × Region

namespace Bench

/-- Where the chunk that begins at `start` ends. -/
def chunkEnd (s : SectionInfo) (start : Nat) : Act Desk Nat := do
  let stop := min (start + (← get).scratch.staging.size) s.size
  match s.relocations with
  | none => return stop
  | some t => if stop < s.size then Desk.boundary t start stop else return stop

/-- Streams the chunks from `start` on. `chunks` and `sum` tell of those before. -/
def streamFrom (scope : Scope) (strict : Bool) (s : SectionInfo) (span : FlashSpan) :
    Nat → Nat → Nat → Tally → Act Bench (Nat × Tally)
  | 0, _, chunks, sum => return (chunks, sum)
  | fuel + 1, start, chunks, sum => do
    if s.size ≤ start then return (chunks, sum)
    let stop ← Act.zoom Part.first (chunkEnd s start)
    let len := stop - start
    let padding := (← get).2.device.reported
    let done ← Act.zoom Part.first (Desk.stageChunk scope strict s span.addr padding start len)
    let data := (← get).1.scratch.staging.slice 0 (alignUp len wordSize)
    Act.zoom Part.second (Act.ofOp (Region.write (span.offset + start) data))
    streamFrom scope strict s span fuel stop (chunks + 1) (sum.add done)

/-- Erases the span of a section and streams the section there. -/
def stream (scope : Scope) (strict : Bool) (s : SectionInfo) (span : FlashSpan) :
    Act Bench Tally := do
  Act.zoom Part.second (Act.ofOp (Region.erase span))
  let (chunks, sum) ← streamFrom scope strict s span s.size 0 0 .zero
  Act.note (.sectionStreamed s.name span.addr s.size chunks sum.patched)
  return sum

end Bench

end FlashLink
