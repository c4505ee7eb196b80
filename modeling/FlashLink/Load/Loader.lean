import FlashLink.Context
import FlashLink.Image
import FlashLink.Load.Block
import FlashLink.Load.Stream

/-!
Loading a module. First its section table is parsed and every relocated field checked; then flash
and pool space is reserved, so that every symbol has an address; then code and constants are
streamed to flash and variables copied to the pool, relocated on the way. Whatever the size of the
module, only one chunk, one batch of relocations and two tables of names are held.

A failed load leaves its allocations advanced; callers that want them back take a checkpoint first.
-/

namespace FlashLink

/-- A load at work: the desk, and everything it allocates from. -/
structure Job where
  desk : Desk
  context : Context
deriving DecidableEq

namespace Job

/-! ### Parts -/

def deskPart : Part Job Desk := fun j =>
  match j with
  | ⟨desk, context⟩ => (desk, fun desk => ⟨desk, context⟩)

def sourcePart : Part Job Source := fun j =>
  match j with
  | ⟨⟨scratch, ⟨source, cache⟩⟩, context⟩ =>
    (source, fun source => ⟨⟨scratch, ⟨source, cache⟩⟩, context⟩)

def xipPart : Part Job Region := fun j =>
  match j with
  | ⟨desk, ⟨xip, iflash, pool, trampolines⟩⟩ =>
    (xip, fun xip => ⟨desk, ⟨xip, iflash, pool, trampolines⟩⟩)

def poolPart : Part Job Pool := fun j =>
  match j with
  | ⟨desk, ⟨xip, iflash, pool, trampolines⟩⟩ =>
    (pool, fun pool => ⟨desk, ⟨xip, iflash, pool, trampolines⟩⟩)

def benchPart : Part Job Bench := fun j =>
  match j with
  | ⟨desk, ⟨xip, iflash, pool, trampolines⟩⟩ =>
    ((desk, xip), fun (desk, xip) => ⟨desk, ⟨xip, iflash, pool, trampolines⟩⟩)

def workshopPart : Part Job Workshop := fun j =>
  match j with
  | ⟨desk, ⟨xip, iflash, pool, trampolines⟩⟩ =>
    ((desk, pool), fun (desk, pool) => ⟨desk, ⟨xip, iflash, pool, trampolines⟩⟩)

/-! ### Reading -/

/-- Checks the fields of every relocation table that applies. -/
def checkTables : List SectionInfo → Act Job Unit
  | [] => return ()
  | s :: rest => do
    if let some t := s.relocations then
      Act.zoom deskPart (Desk.checkFields t s.size)
    checkTables rest

/-- Everything that is read before anything is allocated. -/
def inspect (config : LoaderConfig) (name : String) : Act Job (Object × SymbolTable) := do
  let object ← Act.zoom sourcePart (Object.parse config)
  object.summary name |>.forM fun e => Act.note e
  let symbols ← Act.zoom sourcePart (object.symbolTable config)
  checkTables object.sections.toList
  return (object, symbols)

/-! ### Reserving -/

/-- What a module occupies. -/
structure Reservation where
  flash : List (SectionInfo × FlashSpan)
  data : Option Block
  bss : Option Block
deriving DecidableEq

/-- Reserves a span for every section, in order. -/
def reserveFlash : List SectionInfo → Act Job (List (SectionInfo × FlashSpan))
  | [] => return []
  | s :: rest => do
    let span ← Act.zoom xipPart (Region.reserve s.size)
    return (s, span) :: (← reserveFlash rest)

def reserve (o : Object) : Act Job Reservation := do
  let flash ← reserveFlash o.inFlash
  let data ← Act.zoom poolPart (Block.reserve (o.ofClass .data))
  let bss ← Act.zoom poolPart (Block.reserve (o.ofClass .bss))
  return ⟨flash, data, bss⟩

/-- Where every section is. -/
def Reservation.placement (r : Reservation) (o : Object) : Placement :=
  let inFlash := r.flash.foldl (fun p (s, span) => p.set s.index span.addr)
    (.create o.sections.size)
  let inBlock (p : Placement) (b : Option Block) : Placement := (b.map (·.place p)).getD p
  inBlock (inBlock inFlash r.data) r.bss

/-! ### Committing -/

/-- Streams every section to its span. -/
def streamAll (scope : Scope) (strict : Bool) :
    List (SectionInfo × FlashSpan) → Tally → Act Job Tally
  | [], sum => return sum
  | (s, span) :: rest, sum => do
    let done ← Act.zoom benchPart (Bench.stream scope strict s span)
    streamAll scope strict rest (sum.add done)

def commit (scope : Scope) (strict : Bool) (r : Reservation) : Act Job Tally := do
  let sum ← streamAll scope strict r.flash .zero
  let sum ← match r.data with
    | none => pure sum
    | some b => Act.zoom workshopPart (Workshop.copyAll scope strict b.ram b.offsets sum)
  if let some b := r.bss then
    Act.zoom poolPart b.clear
  return sum

/-! ### The image -/

def placedSections (o : Object) (p : Placement) : List PlacedSection :=
  o.sections.toList.filterMap fun s =>
    match s.cls, p.get? s.index with
    | some cls, some addr => some ⟨s.index, s.name, cls, s.size, addr⟩
    | _, _ => none

/-- The address of `.got` if it is a variable section, else that of the data block, else 0. -/
def gotBase (sections : List PlacedSection) (data : Option RamBlock) : Addr :=
  match sections.find? fun s => s.name == ".got" && s.cls == .data with
  | some s => s.addr
  | none => (data.map (·.addr)).getD 0

/-- Loads, links and places the module. -/
def run (config : LoaderConfig) (name : String) (exports : Lookup) (entry : String) :
    Act Job Image := do
  let (object, symbols) ← inspect config name
  let space ← reserve object
  let scope : Scope := ⟨symbols, space.placement object, exports⟩
  let sum ← commit scope config.strict space
  let entry ← Act.zoom sourcePart (scope.entryAddress entry)
  let sections := placedSections object scope.placement
  let data := space.data.map (·.ram)
  let got := gotBase sections data
  let flash := space.flash.foldl (fun n q => n + q.2.len) 0
  Act.note (.moduleLoaded name flash sum.patched sum.skipped entry got)
  let cache := (← get).desk.linker.cache
  Act.note (.cacheUsed cache.hits cache.misses)
  return { name, sections, data, bss := space.bss.map (·.ram), entry, gotBase := got }

end Job

/-- A loader: its limits and its buffers, good for any number of modules. -/
structure Loader where
  config : LoaderConfig
  scratch : Scratch
deriving DecidableEq

namespace Loader

def create (config : LoaderConfig) : Except Error Loader :=
  match config.fault? with
  | some why => .error (.usage why)
  | none => .ok ⟨config, .create config⟩

/-- What loading works on. -/
structure State where
  loader : Loader
  source : Source
  context : Context
deriving DecidableEq

/-- The job of one load, which starts with an empty symbol cache. -/
def jobPart : Part State Job := fun s =>
  match s with
  | ⟨⟨config, scratch⟩, source, context⟩ =>
    (⟨⟨scratch, ⟨source, .create config.cacheSlots⟩⟩, context⟩, fun j =>
      match j with
      | ⟨⟨scratch, ⟨source, _⟩⟩, context⟩ => ⟨⟨config, scratch⟩, source, context⟩)

/-- Loads the source as a module called `name`; undefined symbols are those of `exports`, and `entry`
names the symbol to enter the module at. -/
def load (name : String) (exports : Lookup) (entry : String) : Act State Image := do
  let config := (← get).loader.config
  Act.zoom jobPart (Job.run config name exports entry)

end Loader

end FlashLink
