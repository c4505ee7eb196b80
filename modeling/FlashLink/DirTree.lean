import FlashLink.Path
import FlashLink.Source

/-!
A directory tree without links, and the file operations that stores need. Inside the tree, a place is
given by the names that lead to it from the top. A path leads to a place if every one of its steps
starts from a directory that is there.
-/

namespace FlashLink

inductive DirTree where
  | file (data : Bytes)
  | dir (entries : List (String × DirTree))

/-- An operation on files. It may fail after it has changed something. -/
abbrev FileOp (α : Type) : Type := EStateM FileFault DirTree α

namespace DirTree

/-- The directory with nothing in it. -/
def empty : DirTree := dir []

/-- Name of the directory that stores and sessions work in. -/
def scratchName : String := "<root>"

/-- The tree with nothing in it but the directory that stores and sessions work in. -/
def scratch : DirTree := dir [(scratchName, empty)]

/-- A path that is written as seen from the directory that stores and sessions work in. -/
def scratchPath (path : String) : Path := (Path.ofString scratchName).join path

def isDir : DirTree → Bool
  | dir _ => true
  | file _ => false

/-! ### Places -/

/-- What is at a place. -/
def get? (t : DirTree) : List String → Option DirTree
  | [] => some t
  | n :: ns =>
    match t with
    | file _ => none
    | dir es =>
      match es.lookup n with
      | none => none
      | some u => u.get? ns

/-- Entries with `n` bound to `t`, or to nothing. -/
def bind (es : List (String × DirTree)) (n : String) (t : Option DirTree) :
    List (String × DirTree) :=
  let rest := es.filter (·.1 ≠ n)
  match t with
  | none => rest
  | some t => (n, t) :: rest

/-- The tree with `n` bound to `u`, or to nothing, in the directory at a place. -/
def setEntry (t : DirTree) (n : String) (u : Option DirTree) : List String → DirTree
  | [] =>
    match t with
    | file data => file data
    | dir es => dir (bind es n u)
  | m :: ms =>
    match t with
    | file data => file data
    | dir es =>
      match es.lookup m with
      | none => dir es
      | some v => dir (bind es m (some (v.setEntry n u ms)))

/-- The entries of the directory at a place. -/
def entries (t : DirTree) (place : List String) : Except FileFault (List (String × DirTree)) :=
  match t.get? place with
  | none => .error .notFound
  | some (file _) => .error .notDirectory
  | some (dir es) => .ok es

/-! ### Following paths -/

/-- The longest name that a directory can hold, in bytes. -/
def maxName : Nat := 255

/-- The longest path that an operation takes, in bytes. -/
def maxPath : Nat := 4095

/-- Looks a name up in a directory. -/
def lookUp (es : List (String × DirTree)) (n : String) : Except FileFault (Option DirTree) :=
  if n.utf8ByteSize ≤ maxName then .ok (es.lookup n) else .error .nameTooLong

/-- The place that steps from a place lead to. -/
def follow (t : DirTree) (place : List String) : List PathStep → Except FileFault (List String)
  | [] => .ok place
  | s :: rest => do
    let es ← t.entries place
    match s with
    | .stay => t.follow place rest
    | .up => t.follow place.dropLast rest
    | .into n =>
      match ← lookUp es n with
      | none => .error .notFound
      | some _ => t.follow (place ++ [n]) rest

/-- What steps from the top lead to. -/
def reach (t : DirTree) (steps : List PathStep) : Except FileFault DirTree := do
  match t.get? (← t.follow [] steps) with
  | none => .error .notFound
  | some u => .ok u

/-- What the last step of a path asks for. -/
inductive Target where
  /-- The directory that the step starts from, or the one above it. -/
  | around (step : PathStep)
  /-- A name in the directory at a place, and what is bound to it. -/
  | entry (place : List String) (name : String) (found : Option DirTree)

/-- What the last of some steps asks for. The others are followed. -/
def targetOf (t : DirTree) (steps : List PathStep) : Except FileFault Target := do
  let place ← t.follow [] steps.dropLast
  let es ← t.entries place
  match steps.getLast? with
  | some (.into n) => return .entry place n (← lookUp es n)
  | some s => return .around s
  | none => return .around .stay

/-- The steps of a path. No operation takes a path that is too long or has a zero in it. -/
def stepsOf (p : Path) : Except FileFault (List PathStep) :=
  if '\x00' ∈ p.text.toList then .error .zeroInName
  else if p.text.utf8ByteSize ≤ maxPath then .ok p.steps
  else .error .nameTooLong

/-- What the last step of a path asks for. -/
def target (t : DirTree) (p : Path) : Except FileFault Target := do t.targetOf (← stepsOf p)

/-- What a path leads to. -/
def find (t : DirTree) (p : Path) : Except FileFault DirTree := do
  let u ← t.reach (← stepsOf p)
  if p.slash ∧ ¬u.isDir then .error .notDirectory else return u

/-- The path leads to a directory. -/
def isDirAt (t : DirTree) (p : Path) : Bool :=
  match t.find p with
  | .ok u => u.isDir
  | .error _ => false

end DirTree

namespace FileOp

open DirTree

variable {α : Type}

/-- Answers what there is to see. -/
def look (f : DirTree → Except FileFault α) : FileOp α := fun t =>
  match f t with
  | .ok a => .ok a t
  | .error why => .error why t

/-! ### Directories -/

def makeDirAt (steps : List PathStep) : FileOp Unit := do
  match ← look (·.targetOf steps) with
  | .entry place n none => modify (·.setEntry n (some empty) place)
  | _ => throw .alreadyThere

/-- Creates one directory, whose parent must be there; a directory that is there already is fine. -/
def ensureDir (steps : List PathStep) : FileOp Unit := fun t =>
  match makeDirAt steps t with
  | .ok () t => .ok () t
  | .error why t =>
    match t.reach steps with
    | .ok (dir _) => .ok () t
    | _ => .error why t

/-- Creates a directory and the missing ones above it, given the steps in reverse. -/
def ensureDirsUp : List PathStep → FileOp Unit
  | [] => return ()
  | s :: up => fun t =>
    let steps := (s :: up).reverse
    match ensureDir steps t with
    | .error .notFound t => (do ensureDirsUp up; ensureDir steps) t
    | r => r

/-- Creates a directory and the missing ones above it; a directory that is there already is fine. A
last step that stays where it is needs a directory to stay in. -/
def makeDirs (steps : List PathStep) : FileOp Unit := fun t =>
  match ensureDir steps t with
  | .error .notFound t => (do ensureDirsUp (Path.stepsAbove steps).reverse; ensureDir steps) t
  | r => r

/-- Creates the directory that a path leads to. -/
def makeDir (p : Path) : FileOp Unit := do makeDirs (← look fun _ => stepsOf p)

/-- Removes a directory with nothing in it. -/
def removeDir (p : Path) : FileOp Unit := do
  match ← look (·.target p) with
  | .entry place n (some (dir [])) => modify (·.setEntry n none place)
  | .entry _ _ (some (dir _)) | .around .up => throw .notEmpty
  | .entry _ _ (some (file _)) => throw .notDirectory
  | .entry _ _ none => throw .notFound
  | .around _ => throw .invalidArgument

/-- The names of the directories in a directory. -/
def listDirs (p : Path) : FileOp (List String) := do
  match ← look (·.find p) with
  | file _ => throw .notDirectory
  | dir es => return (es.filter (·.2.isDir)).map (·.1)

/-! ### Files -/

/-- Writes a file, replacing one that is there. -/
def writeFile (p : Path) (data : Bytes) : FileOp Unit := do
  match ← look (·.target p) with
  | .entry _ _ (some (dir _)) | .around _ => throw .isDirectory
  | .entry place n _ =>
    if p.slash then throw .isDirectory else modify (·.setEntry n (some (file data)) place)

/-- Writes a file in a directory that is created if need be. -/
def saveFile (p : Path) (data : Bytes) : FileOp Unit := do
  makeDirs (Path.stepsAbove (← look fun _ => stepsOf p))
  writeFile p data

/-- Removes a file. -/
def removeFile (p : Path) : FileOp Unit := do
  match ← look (·.target p) with
  | .entry _ _ none => throw .notFound
  | .entry _ _ (some (dir _)) | .around _ => throw .isDirectory
  | .entry place n (some (file _)) =>
    if p.slash then throw .notDirectory else modify (·.setEntry n none place)

/-- The contents of a file. -/
def readFile (p : Path) : FileOp Bytes := do
  match ← look (·.find p) with
  | file data => return data
  | dir _ => throw .isDirectory

/-- The source that opening a path gives. Directories can be opened too. -/
def openSource (p : Path) : FileOp Source := do
  match ← look (·.find p) with
  | file data => return ⟨p.text, .file data, []⟩
  | dir _ => return ⟨p.text, .directory, []⟩

end FileOp

end FlashLink
