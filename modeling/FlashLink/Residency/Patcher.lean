import FlashLink.Context
import FlashLink.Image
import FlashLink.Machine.Cache
import FlashLink.Residency.Report

/-!
The residency pass. Code sections called `.text.iflash` are copied to internal flash, where they stay
callable while the execute-in-place flash is powered down. Every word of the module's variables that
points into such a section is then replaced by the address of a trampoline into the copy, which
restores `r9` first.

The pass is a machine of small steps: find the next tagged section, copy it, patch one pointer.
Patched pointers may be used once the pass is done, which is also when caches are maintained.
-/

namespace FlashLink

/-- Name of the sections that are made resident. -/
def residentSection : String := ".text.iflash"

/-- Bytes moved at a time while a section is copied. -/
def copyBlock : Nat := 256

/-- A copied section whose pointers are being redirected. -/
structure PatchTarget where
  index : Nat
  xip : Addr
  iflash : Addr
  size : Nat
deriving DecidableEq

namespace PatchTarget

def copy (t : PatchTarget) (name : String) : ResidentCopy := ⟨name, t.xip, t.iflash, t.size⟩

/-- Where a pointer into the section has to lead, if it is one. -/
def redirect? (t : PatchTarget) (word : UInt32) : Option Addr := (t.copy "").relocate? word

end PatchTarget

inductive PatchStage where
  /-- Looking for the next tagged section, from section `next` on. -/
  | scanning (next : Nat)
  | copying (index : Nat)
  /-- Redirecting the words of the variables from word `cursor` on. -/
  | patching (target : PatchTarget) (cursor : Nat)
  | done
deriving DecidableEq

structure Patcher where
  image : Image
  stage : PatchStage
  report : ResidencyReport
  /-- The trampolines made so far, by where they lead. -/
  made : List (Addr × Addr)
deriving DecidableEq

namespace Patcher

def start (image : Image) : Patcher := ⟨image, .scanning 0, .empty, []⟩

/-- Index of the first tagged section from `next` on. -/
def nextTagged? (image : Image) (next : Nat) : Option Nat :=
  (image.sections.drop next).findIdx? (fun s => s.name == residentSection && s.cls == .text)
    |>.map (next + ·)

/-! ### Copying -/

/-- Copies `len` bytes of XIP flash at `src` to internal flash at `dest`, block by block, from byte
`done` on. The last word is filled up with what the device calls erased. -/
def copyFrom (src dest len : Nat) : Nat → Nat → Op Context Unit
  | 0, _ => return ()
  | fuel + 1, done => do
    if len ≤ done then return
    let n := min (len - done) copyBlock
    let data ← Op.zoom Context.xipPart (Region.read (src + done) n)
    let padding := Array.replicate (alignUp n wordSize - n) (← get).iflash.device.reported
    Op.zoom Context.iflashPart (Region.write (dest + done) (data ++ padding))
    copyFrom src dest len fuel (done + n)

/-- Copies a section into a fresh span of internal flash. -/
def copySection (s : PlacedSection) : Act Context FlashSpan := do
  match (← get).xip.offsetOf? s.addr with
  | none => throw (.flash (.notInXip s.name s.addr))
  | some src =>
    let dest ← Act.zoom Context.iflashPart (Region.reserveErased s.size)
    Act.ofOp (copyFrom src dest.offset s.size s.size 0)
    Act.note (.sectionCopied s.name s.size s.addr dest.addr)
    return dest

/-! ### Patching -/

/-- The first of `left` words from word `i` on that points into the section, and where it has to
lead. -/
def findWord (t : PatchTarget) (data : Bytes) : Nat → Nat → Option (Nat × UInt32 × Addr)
  | 0, _ => none
  | left + 1, i =>
    let word := data.u32 (4 * i)
    match t.redirect? word with
    | some target => some (i, word, target)
    | none => findWord t data left (i + 1)

variable {κ : Type}

/-- A patcher at work on a context, with the caches of the machine. -/
structure State (κ : Type) where
  patcher : Patcher
  context : Context
  cache : κ

namespace State

def contextPart : Part (State κ) Context := fun s =>
  match s with
  | ⟨patcher, context, cache⟩ => (context, fun context => ⟨patcher, context, cache⟩)

end State

/-- The trampoline that leads to `target`: the one made before, or a new one. -/
def trampolineTo (target base : Addr) : Act (State κ) Addr := do
  match (← get).patcher.made.lookup target with
  | some addr => return addr
  | none =>
    let addr ← Act.zoom State.contextPart
      (Act.zoom Context.trampolinePart (Trampolines.emit target base))
    modify fun s =>
      { s with
        patcher.made := (target, addr) :: s.patcher.made
        patcher.report.trampolines := s.patcher.report.trampolines + 1 }
    return addr

/-- Redirects the next pointer, and answers the stage that follows. -/
def patch (t : PatchTarget) (cursor : Nat) : Act (State κ) PatchStage := do
  let s ← get
  match s.patcher.image.data with
  | none =>
    Act.note .noDataRegion
    return .scanning (t.index + 1)
  | some block =>
    match findWord t (s.context.pool.bytes block) (block.len / 4 - cursor) cursor with
    | none => return .scanning (t.index + 1)
    | some (i, word, target) =>
      let addr ← trampolineTo target s.patcher.image.gotBase
      modify fun s =>
        { s with
          context.pool := s.context.pool.overwrite block (4 * i) (Bytes.ofU32 addr)
          patcher.report.pointersPatched := s.patcher.report.pointersPatched + 1 }
      Act.note (.wordPatched i word addr target)
      return .patching t (i + 1)

/-- Copies section `index`, and answers the stage that follows. -/
def copy (index : Nat) : Act (State κ) PatchStage := do
  match (← get).patcher.image.sections[index]? with
  | none => return .done
  | some placed =>
    let dest ← Act.zoom State.contextPart (copySection placed)
    let target : PatchTarget := ⟨index, placed.addr, dest.addr, placed.size⟩
    modify fun s =>
      { s with
        patcher.report.copies := s.patcher.report.copies ++ [target.copy placed.name]
        patcher.report.bytesCopied := s.patcher.report.bytesCopied + placed.size }
    return .patching target 0

variable [CacheControl κ]

/-- Maintains the caches, if anything was made resident. -/
def finish : Act (State κ) Unit := do
  let p := (← get).patcher
  if p.report.isEmpty then
    Act.note (.nothingResident p.image.name)
  else
    if let some block := p.image.data then
      modify fun s => { s with cache := CacheControl.flushData block.addr block.len s.cache }
    modify fun s => { s with cache := CacheControl.invalidateInstructions s.cache }
    Act.note (.residencyDone p.image.name p.report.copies.length p.report.pointersPatched
      p.report.trampolines)

/-- Looks for the next section, and answers the stage that follows. -/
def scan (next : Nat) : Act (State κ) PatchStage := do
  match nextTagged? (← get).patcher.image next with
  | some index => return .copying index
  | none =>
    finish
    return .done

/-- The stage after the current one. -/
def advance : PatchStage → Act (State κ) PatchStage
  | .scanning next => scan next
  | .copying index => copy index
  | .patching target cursor => patch target cursor
  | .done => return .done

/-- One step; answers whether there is more to do. A failed step stays where it was. -/
def step : Act (State κ) Bool := do
  let stage ← advance (← get).patcher.stage
  modify fun s => { s with patcher.stage := stage }
  return stage ≠ .done

/-- Steps enough for a whole pass: each section is found, copied and left once, and each word of the
variables is patched at most once per section. -/
def fuel (i : Image) : Nat :=
  1 + i.sections.length * (3 + (i.data.map fun b => b.len / 4).getD 0)

/-- At most `n` steps, up to the one that finds nothing more to do. -/
def steps : Nat → Act (State κ) Unit
  | 0 => return ()
  | n + 1 => do
    if ← step then steps n

/-- The whole pass, with its report. -/
def run : Act (State κ) ResidencyReport := do
  steps (fuel (← get).patcher.image)
  return (← get).patcher.report

/-- A whole pass over an image. -/
def runOn (image : Image) : Act (Context × κ) ResidencyReport :=
  Act.zoom (fun (context, cache) => (⟨start image, context, cache⟩, fun s => (s.context, s.cache)))
    run

end Patcher

end FlashLink
