import FlashLink.DirTree
import FlashLink.Load.Loader
import FlashLink.Machine.Cpu
import FlashLink.Residency.Patcher

/-!
A session: modules loaded, patched and called one by one, without a manager. Modules come from memory
or from files. The session remembers what it has made: images, checkpoints, pool blocks and the report
of the last residency pass.
-/

namespace FlashLink

/-- What a session has made so far, in the order of making. -/
structure History where
  images : Array Image
  checkpoints : Array Checkpoint
  blocks : Array RamBlock
  report : ResidencyReport
  /-- Trampolines made by hand. They are not those of the context. -/
  trampolines : Trampolines

structure Session where
  loader : Loader
  machine : Machine Context
  exports : Lookup
  history : History

namespace Session

def create (context : Context) (loader : Loader) (cpu : Cpu) (exports : Lookup) : Session :=
  ⟨loader, ⟨cpu, context⟩, exports, ⟨#[], #[], #[], .empty, .empty⟩⟩

/-! ### Parts -/

def machinePart : Part Session (Machine Context) := fun s =>
  match s with
  | ⟨loader, machine, exports, history⟩ =>
    (machine, fun machine => ⟨loader, machine, exports, history⟩)

def contextPart : Part Session Context := machinePart.comp Machine.memPart

/-- The context, the caches of the CPU, and the last report. -/
def patchPart : Part Session ((Context × Cpu) × ResidencyReport) := fun s =>
  match s with
  | ⟨loader, ⟨cpu, context⟩, exports, images, checkpoints, blocks, report, trampolines⟩ =>
    (((context, cpu), report), fun ((context, cpu), report) =>
      ⟨loader, ⟨cpu, context⟩, exports, images, checkpoints, blocks, report, trampolines⟩)

/-- A context whose caches need no care. -/
def uncached : Part (Context × Cpu) (Context × Unit) := fun (context, cpu) =>
  ((context, ()), fun (context, _) => (context, cpu))

/-- The session's trampolines, and the region that they allocate from. -/
def trampolinePart : Part Session (Trampolines × Region) := fun s =>
  match s with
  | ⟨loader, ⟨cpu, xip, iflash, pool, shared⟩, exports, images, checkpoints, blocks, report,
      trampolines⟩ =>
    ((trampolines, iflash), fun (trampolines, iflash) =>
      ⟨loader, ⟨cpu, xip, iflash, pool, shared⟩, exports, images, checkpoints, blocks, report,
        trampolines⟩)

/-- The loader, with a source. -/
def loaderPart : Part (Session × Source) Loader.State := fun (s, source) =>
  match s with
  | ⟨loader, ⟨cpu, context⟩, exports, history⟩ =>
    (⟨loader, source, context⟩, fun
      | ⟨loader, source, context⟩ => (⟨loader, ⟨cpu, context⟩, exports, history⟩, source))

/-! ### Loading -/

/-- Opens a file. It has a directory of its own, which holds nothing else, and holds nothing at all if
there is no data. -/
def openFile (path : String) (data : Option Bytes) : Except Error Source :=
  let p := DirTree.scratchPath path
  let opened : FileOp Source := do
    if let some data := data then FileOp.saveFile p data
    FileOp.openSource p
  match opened .scratch with
  | .ok source _ => .ok source
  | .error why _ => .error (.io (.file .opening p.text why))

/-- Loads a source and remembers the image. Answers the image, and the source as it was left. -/
def load (source : Source) (name entry : String) : Act Session (Image × Source) := fun s =>
  let exports := s.exports
  match Act.zoom loaderPart (Loader.load name exports entry) (s, source) with
  | ⟨.ok image, (s, source), es⟩ =>
    ⟨.ok (image, source), { s with history.images := s.history.images.push image }, es⟩
  | ⟨.error e, (s, _), es⟩ => ⟨.error e, s, es⟩

/-! ### Residency -/

/-- A whole pass over an image. Its report is remembered if it succeeds. -/
def patch (image : Image) (maintain : Bool) : Act Session ResidencyReport := do
  let machine : Part Session (Context × Cpu) := patchPart.comp Part.first
  let report ←
    if maintain then Act.zoom machine (Patcher.runOn image)
    else Act.zoom (machine.comp uncached) (Patcher.runOn image)
  modify fun s => { s with history.report := report }
  return report

/-- At most `n` steps of a pass: what each step answered and the stage that it led to, and what
stopped the pass if it failed. -/
def stages : Nat → Act (Patcher.State Cpu) (List (Bool × PatchStage) × Option Error)
  | 0 => return ([], none)
  | n + 1 => do
    match ← Act.attempt Patcher.step with
    | .error e => return ([], some e)
    | .ok more =>
      let stage := (← get).patcher.stage
      if more then
        let (rest, failure) ← stages n
        return ((more, stage) :: rest, failure)
      else return ([(more, stage)], none)

/-- A pass of at most `n` steps. The report is remembered as far as it got. -/
def patchSteps (image : Image) (n : Nat) :
    Act Session (List (Bool × PatchStage) × Option Error) :=
  let fresh : Part ((Context × Cpu) × ResidencyReport) (Patcher.State Cpu) :=
    fun ((context, cpu), _) =>
      (⟨.start image, context, cpu⟩, fun s => ((s.context, s.cache), s.patcher.report))
  Act.zoom (patchPart.comp fresh) (stages n)

/-! ### Running -/

/-- Maintains all caches. -/
def flush : Op Session Unit := modify fun s =>
  { s with
    machine.cpu := CacheControl.invalidateInstructions (CacheControl.flushData 0 0 s.machine.cpu) }

/-! ### Allocating -/

/-- Remembers a checkpoint. Answers its number, and that of the first one equal to it. -/
def checkpoint : Op Session (Nat × Nat) := do
  let s ← get
  let p := s.machine.mem.checkpoint
  let known := s.history.checkpoints
  modify fun s => { s with history.checkpoints := s.history.checkpoints.push p }
  return (known.size, (known.findIdx? (· == p)).getD known.size)

/-- Reserves a block of the pool and remembers it. -/
def reserveBlock (size align : Nat) : Act Session RamBlock := do
  let b ← Act.zoom (contextPart.comp Context.poolPart) (Pool.reserve size align)
  modify fun s => { s with history.blocks := s.history.blocks.push b }
  return b

/-- Overwrites the first bytes of a block with as much of `data` as fits, and answers the block. -/
def fillBlock (b : RamBlock) (data : Bytes) : Op Session Bytes :=
  Op.zoom (contextPart.comp Context.poolPart) do
    modify fun p => p.overwrite b 0 (data.slice 0 b.len)
    return (← get).bytes b

end Session

end FlashLink
