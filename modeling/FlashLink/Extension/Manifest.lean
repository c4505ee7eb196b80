import FlashLink.Fault
import FlashLink.Text.Json

/-!
Manifests: three optional texts that describe an extension, written as a JSON record or, by position,
as a JSON list. Unknown keys are passed over; a known key may be given once, and null is the same as
not given.
-/

namespace FlashLink

structure Manifest where
  name : Option String
  version : Option String
  /-- The symbol to enter the module at, instead of the usual one. -/
  entrySymbol : Option String
deriving DecidableEq

namespace Manifest

def empty : Manifest := ⟨none, none, none⟩

inductive Field where
  | name
  | version
  | entrySymbol
deriving DecidableEq

namespace Field

def ofKey? (key : String) : Option Field :=
  if key = "name" then some name
  else if key = "version" then some version
  else if key = "entry_symbol" then some entrySymbol
  else none

/-- All fields, in the order of a list. -/
def all : List Field := [name, version, entrySymbol]

end Field

def set (m : Manifest) (f : Field) (v : Option String) : Manifest :=
  match f with
  | .name => { m with name := v }
  | .version => { m with version := v }
  | .entrySymbol => { m with entrySymbol := v }

open Json

/-- Reads the entries of a record after its opening brace; `first` tells whether none has been read,
and `seen` which fields were given. -/
def readRecord? : Nat → Bool → List Field → Manifest → Input → Option (Manifest × Input)
  | 0, _, _, _, _ => none
  | fuel + 1, first, seen, m, s => do
    let s := skipBlanks s
    match s with
    | 0x7d :: s => return (m, s)
    | s =>
      let s ← if first then some s else (expect "," s).map skipBlanks
      let (key, s) ← text? s
      let s ← expect ":" (skipBlanks s)
      match Field.ofKey? key with
      | none => readRecord? fuel false seen m (← skipValue? s)
      | some f =>
        if f ∈ seen then none
        else
          let (v, s) ← optionalText? s
          readRecord? fuel false (f :: seen) (m.set f v) s

/-- Reads the elements of a list after its opening bracket, for the fields that are left. -/
def readList? : List Field → Bool → Manifest → Input → Option (Manifest × Input)
  | fs, first, m, s =>
    match skipBlanks s with
    | 0x5d :: s => some (m, s)
    | s =>
      match fs with
      | [] => none
      | f :: fs => do
        let s ← if first then some s else (expect "," s).map skipBlanks
        let (v, s) ← optionalText? s
        readList? fs false (m.set f v) s

/-- Reads a manifest. Only blanks may follow it. -/
def parse? (b : Bytes) : Option Manifest := do
  let (m, rest) ← match skipBlanks b.toList with
    | 0x7b :: s => readRecord? (s.length + 1) true [] empty s
    | 0x5b :: s => readList? Field.all true empty s
    | _ => none
  if (skipBlanks rest).isEmpty then some m else none

def parse (b : Bytes) : Except Error Manifest :=
  match parse? b with
  | some m => .ok m
  | none => .error .manifest

end Manifest

end FlashLink
