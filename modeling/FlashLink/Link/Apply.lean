import FlashLink.Act
import FlashLink.Thumb.Branch

/-!
Applying relocations to bytes in a buffer, before the bytes are committed. Two types do something:
one adds the symbol's address to a word, the other makes a call reach the symbol.

The buffer is part of the state, so that it stays as far as an action got. A single entry is all or
nothing.
-/

namespace FlashLink

/-- What became of an entry. -/
inductive Applied where
  | patched
  /-- There was nothing to do. -/
  | ignored
  /-- An unsupported type that was noted and left alone. -/
  | skipped
deriving DecidableEq

structure Tally where
  patched : Nat
  skipped : Nat
deriving DecidableEq

namespace Tally

def zero : Tally := ⟨0, 0⟩

def record (t : Tally) : Applied → Tally
  | .patched => { t with patched := t.patched + 1 }
  | .skipped => { t with skipped := t.skipped + 1 }
  | .ignored => t

def add (t u : Tally) : Tally := ⟨t.patched + u.patched, t.skipped + u.skipped⟩

end Tally

namespace Relocation

variable {σ : Type}

/-- The distance that a call with addend `addend` at `place` has to cover to reach `target`. -/
def distance (target : Addr) (addend : Int) (place : Addr) : Int :=
  (target.toNat : Int) + addend - (place.toNat : Int)

/-- The field whose word is `old`, once it refers to a symbol at `target`. -/
def absoluteField (old : UInt32) (target : Addr) : Bytes := Bytes.ofU32 (old + target)

/-- The call whose halfwords are `hi` and `lo`, at `place`, once it reaches `target`. -/
def callField (hi lo : UInt16) (target place : Addr) : Except Int Bytes :=
  let d := distance target (Branch.decode hi lo) place
  if Branch.inRange d then
    let (hi, lo) := Branch.encode hi lo d
    .ok (Bytes.ofU16 hi ++ Bytes.ofU16 lo)
  else .error d

/-- Applies an entry to a buffer that holds the section from offset `first` on. `base` is the address
of the section; `resolve` gives the address of a symbol and is asked only where it is needed. -/
def apply (first : Nat) (base : Addr) (strict : Bool) (resolve : Nat → Act σ Addr)
    (r : Relocation) : Act (Bytes × σ) Applied := do
  let i := r.start - first
  unless first ≤ r.start && i + 4 ≤ (← get).1.size do
    throw (.parse (.fieldOutsideBuffer r.start))
  match r.kind with
  | .ignore => return .ignored
  | .absolute =>
    let target ← Act.zoom Part.second (resolve r.symbol)
    modify fun (buf, s) => (buf.overwrite i (absoluteField (buf.u32 i) target), s)
    return .patched
  | .call =>
    let target ← Act.zoom Part.second (resolve r.symbol)
    let buf := (← get).1
    match callField (buf.u16 i) (buf.u16 (i + 2)) target (base + r.offset) with
    | .error d => throw (.relocationRange r.start (Int32.ofInt d))
    | .ok field =>
      modify fun (buf, s) => (buf.overwrite i field, s)
      return .patched
  | .unsupported =>
    if strict then throw (.unsupportedRelocation r.type r.start)
    Act.note (.relocationSkipped r.type r.start)
    return .skipped

/-- The field lies in the `len` bytes from section offset `first` on. -/
def inside (first len : Nat) (r : Relocation) : Bool := first ≤ r.start && r.stop ≤ first + len

/-- Applies, in order, the entries whose fields lie in the buffer. The others belong to other
chunks. -/
def applyAll (first : Nat) (base : Addr) (strict : Bool) (resolve : Nat → Act σ Addr) :
    List Relocation → Tally → Act (Bytes × σ) Tally
  | [], t => return t
  | r :: rs, t => do
    if inside first (← get).1.size r then
      let done ← r.apply first base strict resolve
      applyAll first base strict resolve rs (t.record done)
    else applyAll first base strict resolve rs t

/-- As `applyAll`, for a chunk of a section. -/
def applyChunk (first : Nat) (base : Addr) (strict : Bool) (resolve : Nat → Act σ Addr)
    (rs : List Relocation) : Act (Bytes × σ) Tally := do
  if sizeLimit ≤ first + (← get).1.size then throw (.breach .sizeOverflow)
  applyAll first base strict resolve rs .zero

end Relocation

end FlashLink
