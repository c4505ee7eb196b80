import FlashLink.Bytes

/-!
Relocation entries without addends: eight bytes that name a field by its section offset, a symbol
by its index and what to do by a type. The addend lives in the field itself.
-/

namespace FlashLink

/-- What an entry asks for. Only two types change anything. -/
inductive RelocKind where
  | ignore
  /-- Adds the symbol's address to the word in the field. -/
  | absolute
  /-- Makes the call in the field reach the symbol. -/
  | call
  | unsupported
deriving DecidableEq

structure Relocation where
  offset : UInt32
  info : UInt32
deriving DecidableEq

namespace Relocation

/-- Bytes of one entry. -/
def width : Nat := 8

def ofBytes (b : Bytes) : Relocation := ⟨b.u32 0, b.u32 4⟩

def type (r : Relocation) : UInt32 := r.info &&& 0xff

def symbol (r : Relocation) : Nat := (r.info >>> 8).toNat

/-- Section offset of the field. -/
def start (r : Relocation) : Nat := r.offset.toNat

/-- Section offset just past the field, which is one word long. -/
def stop (r : Relocation) : Nat := r.start + 4

def kind (r : Relocation) : RelocKind :=
  if r.type = 0 then .ignore
  else if r.type = 2 then .absolute
  else if r.type = 10 then .call
  else .unsupported

def typeName (t : UInt32) : String :=
  match t.toNat with
  | 0 => "R_ARM_NONE"
  | 2 => "R_ARM_ABS32"
  | 3 => "R_ARM_REL32"
  | 10 => "R_ARM_THM_CALL"
  | 30 => "R_ARM_THM_JUMP24"
  | 40 => "R_ARM_V4BX"
  | 42 => "R_ARM_PREL31"
  | _ => "UNKNOWN"

/-- A one-line rendering for people. -/
def describe (r : Relocation) : String :=
  "ElfRel \x7b r_offset: " ++ toString r.start ++ ", r_type: \"" ++ typeName r.type ++
    "\", r_symbol: " ++ toString r.symbol ++ " \x7d"

end Relocation

end FlashLink
