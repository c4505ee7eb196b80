/-!
Paths: a text, and the steps that it asks for. A path is followed step by step, so that `a/../b` leads
somewhere only if there is a directory `a`.
-/

namespace FlashLink

inductive PathStep where
  | stay
  | up
  | into (name : String)
deriving DecidableEq

structure Path where
  /-- How the path is written. -/
  text : String
  steps : List PathStep
  /-- A slash ends the path, which can then lead to a directory only. -/
  slash : Bool
deriving DecidableEq

namespace Path

/-- The parts of a text between its slashes, one more than there are slashes. -/
def parts : List Char → List (List Char)
  | [] => [[]]
  | c :: cs =>
    if c = '/' then [] :: parts cs
    else
      match parts cs with
      | [] => [[c]]
      | p :: ps => (c :: p) :: ps

/-- The step that a part asks for. An empty part asks for none. -/
def stepOf (part : List Char) : Option PathStep :=
  if part = [] then none
  else if part = ['.'] then some .stay
  else if part = ['.', '.'] then some .up
  else some (.into (String.ofList part))

/-- Reads a path. The empty text ends in a slash too: it names the directory that it is taken from. -/
def ofString (text : String) : Path :=
  let ps := parts text.toList
  ⟨text, ps.filterMap stepOf, ps.getLast? == some []⟩

/-- The path that `name` is in the directory at `p`. A name that begins with a slash starts over. -/
def join (p : Path) (name : String) : Path :=
  let q := ofString name
  if name.toList.head? = some '/' then q
  else ⟨if p.slash then p.text ++ name else p.text ++ "/" ++ name, p.steps ++ q.steps, q.slash⟩

/-- The steps to the directory above. Steps that stay where they are do not count. -/
def stepsAbove (steps : List PathStep) : List PathStep := (steps.filter (· ≠ .stay)).dropLast

end Path

end FlashLink
