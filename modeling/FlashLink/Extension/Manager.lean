import FlashLink.Extension.Descriptor
import FlashLink.Extension.Id
import FlashLink.Extension.Manifest
import FlashLink.Extension.Store
import FlashLink.Load.Loader
import FlashLink.Machine.Cpu
import FlashLink.Residency.Patcher

/-!
The extension manager. For every extension it opens the module, loads it, makes its resident sections
safe, calls its entry point and registers the descriptor that comes back. A load that fails is rolled
back; from the entry point on the extension stays, registered or not.
-/

namespace FlashLink

/-- A resident extension. -/
structure Extension where
  id : String
  image : Image
  manifest : Option Manifest
  /-- Nothing if the entry point failed. -/
  descriptor : Option Descriptor
  residency : ResidencyReport
deriving DecidableEq

namespace Extension

/-- The descriptor was handed to the registry. -/
def isRegistered (e : Extension) : Bool := e.descriptor.isSome

end Extension

/-- What enumerating all extensions came to. -/
structure InitSummary where
  loaded : Nat
  failed : Nat
  skipped : Nat
deriving DecidableEq

structure Manager (σ : Type) where
  config : ManagerConfig
  loader : Loader
  context : Context
  store : σ
  cpu : Cpu
  exports : Exports
  /-- Every descriptor ever handed over, in order. -/
  registry : List (String × Descriptor)
  /-- The resident extensions, in order of loading. -/
  extensions : List Extension

namespace Manager

variable {σ : Type}

/-! ### Parts -/

def storePart : Part (Manager σ) σ := fun m =>
  match m with
  | ⟨config, loader, context, store, cpu, exports, registry, extensions⟩ =>
    (store, fun store => ⟨config, loader, context, store, cpu, exports, registry, extensions⟩)

def contextPart : Part (Manager σ) Context := fun m =>
  match m with
  | ⟨config, loader, context, store, cpu, exports, registry, extensions⟩ =>
    (context, fun context => ⟨config, loader, context, store, cpu, exports, registry, extensions⟩)

def machinePart : Part (Manager σ) (Machine Context) := fun m =>
  match m with
  | ⟨config, loader, context, store, cpu, exports, registry, extensions⟩ =>
    (⟨cpu, context⟩, fun machine =>
      match machine with
      | ⟨cpu, context⟩ => ⟨config, loader, context, store, cpu, exports, registry, extensions⟩)

def patchPart : Part (Manager σ) (Context × Cpu) := fun m =>
  match m with
  | ⟨config, loader, context, store, cpu, exports, registry, extensions⟩ =>
    ((context, cpu), fun (context, cpu) =>
      ⟨config, loader, context, store, cpu, exports, registry, extensions⟩)

/-- The loader, one source, and the context. -/
def loadPart (source : Source) : Part (Manager σ) Loader.State := fun m =>
  match m with
  | ⟨config, loader, context, store, cpu, exports, registry, extensions⟩ =>
    (⟨loader, source, context⟩, fun s =>
      match s with
      | ⟨loader, _, context⟩ => ⟨config, loader, context, store, cpu, exports, registry, extensions⟩)

/-! ### Resident extensions -/

def find? (m : Manager σ) (id : String) : Option Extension := m.extensions.find? (·.id == id)

def isLoaded (m : Manager σ) (id : String) : Bool := (m.find? id).isSome

/-- There is no room for another extension. -/
def isFull (m : Manager σ) : Bool := m.config.maxExtensions ≤ m.extensions.length

/-! ### Loading -/

/-- Calls the entry point and decodes the descriptor that it returns. -/
def enter (id : String) (image : Image) : Act (Manager σ) Descriptor := do
  let addr ← Act.zoom machinePart (Act.ofOp (Machine.call image.entry image.gotBase []))
  if addr = 0 then throw (.entryFailed id)
  Act.zoom contextPart (Act.ofOp (Descriptor.read addr))

/-- Loads a module, or gives back what it has allocated. -/
def place (id entry : String) (source : Source) : Act (Manager σ) Image := do
  let before := (← get).context.checkpoint
  let exports := (← get).exports.lookup
  match ← Act.attempt (Act.zoom (loadPart source) (Loader.load id exports entry)) with
  | .ok image => return image
  | .error e =>
    Act.zoom contextPart (Context.rollback before)
    throw e

/-- Makes the resident sections of a module safe; if that fails, they need the execute-in-place
flash. -/
def makeResident (id : String) (image : Image) : Act (Manager σ) ResidencyReport := do
  match ← Act.attempt (Act.zoom patchPart (Patcher.runOn image)) with
  | .ok report => return report
  | .error e =>
    Act.note (.residencyFailed id e)
    return .empty

/-- Adds an extension whose module is placed, and calls its entry point. -/
def enlist (id : String) (image : Image) (manifest : Option Manifest) (residency : ResidencyReport) :
    Act (Manager σ) Unit := do
  let add (d : Option Descriptor) : Act (Manager σ) Unit :=
    modify fun m => { m with extensions := m.extensions ++ [⟨id, image, manifest, d, residency⟩] }
  match ← Act.attempt (enter id image) with
  | .ok d =>
    Act.note (.registered id d.name d.capabilities)
    modify fun m => { m with registry := m.registry ++ [(id, d)] }
    add (some d)
  | .error e =>
    add none
    throw e

variable [Store σ]

/-- Loads an extension; answers whether it has a module at all. -/
def loadOne (id : String) : Act (Manager σ) Bool := do
  match ← Act.zoom storePart (Act.ofOp (Store.openModule id)) with
  | none => return false
  | some source =>
    let bytes? ← Act.zoom storePart (Act.ofOp (Store.readManifest id))
    let manifest ← match bytes? with
      | none => pure none
      | some b => some <$> Act.ofExcept (Manifest.parse b)
    let entry := (manifest.bind (·.entrySymbol)).getD (← get).config.entrySymbol
    let image ← place id entry source
    let residency ← makeResident id image
    enlist id image manifest residency
    return true

/-- Loads one newly installed extension. -/
def hotLoad (id : String) : Act (Manager σ) Extension := do
  let m ← get
  Act.ofExcept (checkId m.config.maxIdLen id)
  if m.isLoaded id then throw (.alreadyLoaded id)
  if m.isFull then throw (.tooManyExtensions m.config.maxExtensions)
  if !(← loadOne id) then throw (.io (.noModule id))
  match (← get).find? id with
  | some e => return e
  | none => throw (.usage (.vanished id))

/-- What enumeration does with one identifier. -/
def consider (id : String) (sum : InitSummary) : Act (Manager σ) InitSummary := do
  let m ← get
  if m.isLoaded id then return sum
  if let .error e := checkId m.config.maxIdLen id then
    Act.note (.skippedInvalid e)
    return { sum with skipped := sum.skipped + 1 }
  if m.isFull then
    Act.note (.skippedLimit id m.config.maxExtensions)
    return { sum with skipped := sum.skipped + 1 }
  match ← Act.attempt (loadOne id) with
  | .ok true => return { sum with loaded := sum.loaded + 1 }
  | .ok false =>
    Act.note (.skippedEmpty id)
    return { sum with skipped := sum.skipped + 1 }
  | .error e =>
    Act.note (.loadFailed id e)
    return { sum with failed := sum.failed + 1 }

def considerAll : List String → InitSummary → Act (Manager σ) InitSummary
  | [], sum => return sum
  | id :: ids, sum => do considerAll ids (← consider id sum)

/-- Loads every installed extension. Failures are noted and passed over. -/
def init : Act (Manager σ) InitSummary := do
  Act.zoom storePart (Act.ofOp Store.ensureBase)
  let ids ← Act.zoom storePart (Act.ofOp Store.list)
  Act.note (.directoriesFound ids.length)
  let sum ← considerAll ids ⟨0, 0, 0⟩
  Act.note (.initDone sum.loaded sum.failed sum.skipped)
  return sum

/-! ### Installing -/

/-- Makes room for an extension to be installed. -/
def prepare (id : String) : Act (Manager σ) Unit := do
  Act.ofExcept (checkId (← get).config.maxIdLen id)
  Act.zoom storePart (Act.ofOp (Store.prepare id))

/-- Removes the files of an extension. A resident module stays until the next reset. -/
def remove (id : String) : Act (Manager σ) Unit := do
  let m ← get
  Act.ofExcept (checkId m.config.maxIdLen id)
  if m.isLoaded id then Act.note (.staysResident id)
  Act.zoom storePart (Act.ofOp (Store.remove id))

/-! ### Running -/

omit [Store σ] in
/-- Calls a callback of an extension; nothing if the descriptor does not provide it. -/
def invoke (id : String) (event : Lifecycle) (args : List UInt32) :
    Act (Manager σ) (Option UInt32) := do
  match (← get).find? id with
  | none => throw (.usage (.notLoaded id))
  | some e =>
    match e.descriptor.bind (·.callback? event) with
    | none => return none
    | some func =>
      Act.note (.lifecycle id event.name func)
      return some (← Act.zoom machinePart (Act.ofOp (Machine.call func e.image.gotBase args)))

omit [Store σ] in
/-- Makes a trampoline into an extension, for a callback that it registers after loading. -/
def createTrampoline (id : String) (target : Addr) : Act (Manager σ) Addr := do
  match (← get).find? id with
  | none => throw (.usage (.notLoaded id))
  | some e =>
    let addr ← Act.zoom contextPart
      (Act.zoom Context.trampolinePart (Trampolines.emit target e.image.gotBase))
    modify fun m => { m with cpu := CacheControl.invalidateInstructions m.cpu }
    return addr

omit [Store σ] in
/-- Forgets every extension and empties flash and pool. -/
def reset : Act (Manager σ) Unit := do
  modify fun m => { m with extensions := [] }
  Act.zoom contextPart Context.reset

end Manager

end FlashLink
