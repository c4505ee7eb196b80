import FlashLink.Bytes

/-!
The long branch with link, `BL`: two halfwords that hold an opcode and a signed byte displacement.

The first halfword is `11110 S imm10`, the second `11 J1 1 J2 imm11`. The displacement is the signed
25-bit number `S I1 I2 imm10 imm11 0` with `I1 = ¬(J1 ⊕ S)` and `I2 = ¬(J2 ⊕ S)`. It counts from the
address of the instruction plus four.
-/

namespace FlashLink.Branch

/-- Displacements from `-reach` up to but not including `reach` can be encoded. -/
def reach : Int := 0x1000000

def inRange (d : Int) : Bool := -reach ≤ d && d < reach

def isLink (hi lo : UInt16) : Bool := hi &&& 0xf800 == 0xf000 && lo &&& 0xd000 == 0xd000

/-- Bit `i` of a halfword. -/
def bit (w : BitVec 16) (i : Nat) : BitVec 1 := w.extractLsb' i 1

/-- The displacement field, put together from both halfwords. -/
def field (hi lo : BitVec 16) : BitVec 25 :=
  let s := bit hi 10
  let i1 := ~~~(bit lo 13 ^^^ s)
  let i2 := ~~~(bit lo 11 ^^^ s)
  (s ++ i1 ++ i2 ++ hi.extractLsb' 0 10 ++ lo.extractLsb' 0 11 ++ 0#1 : BitVec 25)

def decode (hi lo : UInt16) : Int := (field hi.toBitVec lo.toBitVec).toInt

/-- The first halfword with a new displacement field. -/
def high (hi : BitVec 16) (d : BitVec 25) : BitVec 16 :=
  (hi.extractLsb' 11 5 ++ d.extractLsb' 24 1 ++ d.extractLsb' 12 10 : BitVec 16)

/-- The second halfword with a new displacement field. -/
def low (lo : BitVec 16) (d : BitVec 25) : BitVec 16 :=
  let s := d.extractLsb' 24 1
  let j1 := ~~~(d.extractLsb' 23 1 ^^^ s)
  let j2 := ~~~(d.extractLsb' 22 1 ^^^ s)
  (lo.extractLsb' 14 2 ++ j1 ++ bit lo 12 ++ j2 ++ d.extractLsb' 1 11 : BitVec 16)

/-- Both halfwords with displacement `d`, opcode bits kept. Bit 0 of `d` is dropped. -/
def encode (hi lo : UInt16) (d : Int) : UInt16 × UInt16 :=
  let d := BitVec.ofInt 25 d
  (⟨high hi.toBitVec d⟩, ⟨low lo.toBitVec d⟩)

end FlashLink.Branch
