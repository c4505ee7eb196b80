import FlashLink.Config
import FlashLink.DirTree
import FlashLink.Extension.Id
import FlashLink.Extension.Store

/-!
A store in a directory tree: one directory per extension under a base directory, with a module file
and perhaps a manifest in it. Anything else that an extension left there keeps its directory.
-/

namespace FlashLink

structure DirStore where
  tree : DirTree
  /-- The base directory. -/
  base : Path
  moduleFile : String
  manifestFile : String
  maxIdLen : Nat

namespace DirStore

/-- A store laid out as a configuration says. -/
def ofConfig (tree : DirTree) (c : ManagerConfig) : DirStore :=
  ⟨tree, .ofString c.baseDir, c.moduleFile, c.manifestFile, c.maxIdLen⟩

def treePart : Part DirStore DirTree := fun s =>
  match s with
  | ⟨tree, base, moduleFile, manifestFile, maxIdLen⟩ =>
    (tree, fun tree => ⟨tree, base, moduleFile, manifestFile, maxIdLen⟩)

def dirPath (s : DirStore) (id : String) : Path := s.base.join id

def modulePath (s : DirStore) (id : String) : Path := (s.dirPath id).join s.moduleFile

def manifestPath (s : DirStore) (id : String) : Path := (s.dirPath id).join s.manifestFile

variable {α : Type}

/-- Does something with the files at a path. -/
def onFiles (action : FileAction) (path : Path) (f : Path → FileOp α) : Op DirStore α := fun s =>
  match f path s.tree with
  | .ok a tree => .ok a { s with tree }
  | .error why tree => .error (.io (.file action path.text why)) { s with tree }

/-- As `onFiles`, if the path leads anywhere. -/
def onFilesIfThere (action : FileAction) (path : Path) (f : Path → FileOp α) :
    Op DirStore (Option α) :=
  onFiles action path fun p t =>
    match f p t with
    | .ok a t => .ok (some a) t
    | .error .notFound t => .ok none t
    | .error why t => .error why t

/-- Only plain identifiers name directories. -/
def checkId (id : String) : Op DirStore Unit := do
  match FlashLink.checkId (← get).maxIdLen id with
  | .ok () => return ()
  | .error e => throw e

/-- Writes a file into the directory of an extension, which is created if need be. -/
def put (id file : String) (data : Bytes) : Op DirStore Unit := do
  let dir := (← get).dirPath id
  onFiles .creating dir FileOp.makeDir
  onFiles .creating (dir.join file) fun p => FileOp.writeFile p data

instance : Store DirStore where
  ensureBase := do onFiles .creating (← get).base FileOp.makeDir
  list := do
    let names ← onFiles .listing (← get).base FileOp.listDirs
    return sortIds (names.filter fun n => !n.startsWith ".")
  openModule id := do
    checkId id
    onFilesIfThere .opening ((← get).modulePath id) FileOp.openSource
  readManifest id := do
    checkId id
    onFilesIfThere .reading ((← get).manifestPath id) FileOp.readFile
  prepare id := do
    checkId id
    onFiles .creating ((← get).dirPath id) FileOp.makeDir
  remove id := do
    checkId id
    let s ← get
    let _ ← onFilesIfThere .removing (s.modulePath id) FileOp.removeFile
    let _ ← onFilesIfThere .removing (s.manifestPath id) FileOp.removeFile
    let _ ← onFilesIfThere .removing (s.dirPath id) FileOp.removeDir
  has id s := s.tree.isDirAt (s.dirPath id)
  install id module := do put id (← get).moduleFile module
  setManifest id manifest := do put id (← get).manifestFile manifest

end DirStore

end FlashLink
