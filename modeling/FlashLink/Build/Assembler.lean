import FlashLink.Thumb.Branch

/-!
An assembler for the few Thumb instructions that small modules need. Word constants are collected in
a pool after the last instruction, from where they are loaded relative to the program counter.
-/

namespace FlashLink

/-- One line of a program. Register numbers and constants are written as they are, unchecked. -/
inductive Statement where
  | movs (rd imm : UInt8)
  | adds (rd imm : UInt8)
  /-- Copies a low register. -/
  | movsReg (rd rm : UInt8)
  /-- Copies any register. -/
  | mov (rd rm : UInt8)
  | str (rt rn words : UInt8)
  | ldr (rt rn words : UInt8)
  | ldrWide (rt rn : UInt8) (imm : UInt16)
  | pushLr
  | popPc
  | bxLr
  | blx (rm : UInt8)
  | nop
  /-- Fills up to a word boundary. -/
  | align
  /-- A call whose target a relocation fills in. -/
  | bl
  /-- Loads a constant from the pool. -/
  | ldrLiteral (rt : UInt8) (value : UInt32)
deriving DecidableEq

namespace Statement

/-- The instruction or instructions, as halfwords. Loads from the pool have no offset yet. -/
def halfwords : Statement → List UInt16
  | movs rd imm => [(0x2000 : UInt16) ||| rd.toUInt16 <<< 8 ||| imm.toUInt16]
  | adds rd imm => [(0x3000 : UInt16) ||| rd.toUInt16 <<< 8 ||| imm.toUInt16]
  | movsReg rd rm => [rm.toUInt16 <<< 3 ||| rd.toUInt16]
  | mov rd rm =>
    [(0x4600 : UInt16) ||| (rd.toUInt16 &&& 8) <<< 4 ||| rm.toUInt16 <<< 3 ||| (rd.toUInt16 &&& 7)]
  | str rt rn words =>
    [(0x6000 : UInt16) ||| words.toUInt16 <<< 6 ||| rn.toUInt16 <<< 3 ||| rt.toUInt16]
  | ldr rt rn words =>
    [(0x6800 : UInt16) ||| words.toUInt16 <<< 6 ||| rn.toUInt16 <<< 3 ||| rt.toUInt16]
  | ldrWide rt rn imm => [(0xf8d0 : UInt16) ||| rn.toUInt16, rt.toUInt16 <<< 12 ||| (imm &&& 0xfff)]
  | pushLr => [0xb500]
  | popPc => [0xbd00]
  | bxLr => [0x4770]
  | blx rm => [(0x4780 : UInt16) ||| rm.toUInt16 <<< 3]
  | nop => [0xbf00]
  | align => []
  | bl => [0xf7ff, 0xfffe]
  | ldrLiteral rt _ => [(0x4800 : UInt16) ||| rt.toUInt16 <<< 8]

end Statement

/-- A program under construction. -/
structure Assembler where
  code : Bytes
  /-- For each constant, where it is loaded, and its value. -/
  literals : List (Nat × UInt32)
deriving DecidableEq

/-- A finished program: code, then the pool. -/
structure Assembled where
  code : Bytes
  /-- Offset of each constant, in the order they were asked for. -/
  literals : List Nat
deriving DecidableEq

namespace Assembler

def empty : Assembler := ⟨#[], []⟩

/-- Offset of the next instruction. -/
def here (a : Assembler) : Nat := a.code.size

def put (a : Assembler) (hw : UInt16) : Assembler := { a with code := a.code ++ Bytes.ofU16 hw }

/-- Fills up to a word boundary. -/
def alignWord (a : Assembler) : Assembler := if a.here % 4 ≠ 0 then a.put 0xbf00 else a

def emit (a : Assembler) (s : Statement) : Assembler :=
  match s with
  | .align => a.alignWord
  | .ldrLiteral _ value =>
    { s.halfwords.foldl put a with literals := a.literals ++ [(a.here, value)] }
  | s => s.halfwords.foldl put a

/-- What the program will know the next statement by: a call by its offset, a constant by its number
and the others by nothing. -/
def handle? (a : Assembler) : Statement → Option Nat
  | .bl => some a.here
  | .ldrLiteral .. => some a.literals.length
  | _ => none

def ofStatements (ss : List Statement) : Assembler := ss.foldl emit empty

/-- Words from the load at `insn` to offset `target`, as the load counts them. -/
def literalDistance (insn target : Nat) : Nat := (target - (insn + 4) / 4 * 4) / 4

/-- Appends constants and points their loads at them. A load reaches 255 words. -/
def addLiterals : List (Nat × UInt32) → Bytes → Option Assembled
  | [], code => some ⟨code, []⟩
  | (insn, value) :: rest, code =>
    let words := literalDistance insn code.size
    if 255 < words then none
    else
      let patched := (code.modify insn fun b => b ||| UInt8.ofNat words) ++ Bytes.ofU32 value
      (addLiterals rest patched).map fun out =>
        { out with literals := code.size :: out.literals }

/-- Appends the pool; nothing if a constant is out of reach of its load. -/
def finish (a : Assembler) : Option Assembled := addLiterals a.literals a.alignWord.code

end Assembler

end FlashLink
