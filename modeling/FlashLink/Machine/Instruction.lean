import FlashLink.Thumb.Branch

/-!
The Thumb instructions that the loader's own output and small modules need, and their encodings.
Flags are not modelled, so conditional branches are not among them.
-/

namespace FlashLink

/-- A register number. -/
abbrev Reg : Type := Fin 16

namespace Reg

/-- The register that holds a call's first argument and its result. -/
def result : Reg := 0

def sp : Reg := 13
def lr : Reg := 14
def pc : Reg := 15

/-- The register that holds the base of a module's variables. -/
def base : Reg := 9

/-- The register of a number, which is below sixteen. -/
def ofNat (i : Nat) : Reg := Fin.ofNat 16 i

end Reg

/-- Offsets are words that wrap, so a negative offset is a large one. -/
inductive Instruction where
  | shiftLeft (rd rm : Reg) (amount : UInt32)
  | add (rd rn rm : Reg)
  | sub (rd rn rm : Reg)
  | addImm (rd rn : Reg) (imm : UInt32)
  | subImm (rd rn : Reg) (imm : UInt32)
  | moveImm (rd : Reg) (imm : UInt32)
  /-- Adds any two registers; writing the program counter jumps. -/
  | addAny (rd rm : Reg)
  /-- Copies any register; writing the program counter jumps. -/
  | move (rd rm : Reg)
  | jump (rm : Reg)
  | call (rm : Reg)
  /-- Loads a word relative to the program counter, rounded down to a word. -/
  | loadLiteral (rt : Reg) (offset : UInt32)
  | load (rt rn : Reg) (offset : UInt32)
  | store (rt rn : Reg) (offset : UInt32)
  | moveStack (offset : UInt32)
  /-- Pushes the low registers of a mask and, if asked, the link register. -/
  | push (mask : UInt16) (link : Bool)
  /-- Pops the low registers of a mask and, if asked, the program counter. -/
  | pop (mask : UInt16) (ret : Bool)
  | nop
  | branch (offset : UInt32)
  | branchLink (offset : UInt32)
deriving DecidableEq

namespace Instruction

/-- `width` bits of a halfword from bit `low` on. -/
def bits (hw : UInt16) (low width : Nat) : UInt32 :=
  UInt32.ofNat ((hw.toNat >>> low) % (1 <<< width))

def reg (hw : UInt16) (low width : Nat) : Reg := Fin.ofNat 16 ((hw.toNat >>> low) % (1 <<< width))

/-- The halfword begins a wide instruction. -/
def isWide (hw : UInt16) : Bool := 0xe800 ≤ hw

/-- The eleven bits of a short branch as a signed number of halfwords, in bytes. -/
def shortOffset (hw : UInt16) : UInt32 :=
  UInt32.ofInt ((hw.toBitVec.extractLsb' 0 11).toInt * 2)

def decodeNarrow (hw : UInt16) : Option Instruction :=
  let lo := reg hw 0 3
  let mid := reg hw 3 3
  let hi := reg hw 8 3
  let imm8 := bits hw 0 8
  if hw &&& 0xf800 = 0x0000 then some (.shiftLeft lo mid (bits hw 6 5))
  else if hw &&& 0xfe00 = 0x1800 then some (.add lo mid (reg hw 6 3))
  else if hw &&& 0xfe00 = 0x1a00 then some (.sub lo mid (reg hw 6 3))
  else if hw &&& 0xfe00 = 0x1c00 then some (.addImm lo mid (bits hw 6 3))
  else if hw &&& 0xfe00 = 0x1e00 then some (.subImm lo mid (bits hw 6 3))
  else if hw &&& 0xf800 = 0x2000 then some (.moveImm hi imm8)
  else if hw &&& 0xf800 = 0x3000 then some (.addImm hi hi imm8)
  else if hw &&& 0xf800 = 0x3800 then some (.subImm hi hi imm8)
  else if hw &&& 0xff00 = 0x4400 then
    some (.addAny (Fin.ofNat 16 (8 * (bits hw 7 1).toNat + lo.val)) (reg hw 3 4))
  else if hw &&& 0xff00 = 0x4600 then
    some (.move (Fin.ofNat 16 (8 * (bits hw 7 1).toNat + lo.val)) (reg hw 3 4))
  else if hw &&& 0xff87 = 0x4700 then some (.jump (reg hw 3 4))
  else if hw &&& 0xff87 = 0x4780 then some (.call (reg hw 3 4))
  else if hw &&& 0xf800 = 0x4800 then some (.loadLiteral hi (imm8 * 4))
  else if hw &&& 0xf800 = 0x6000 then some (.store lo mid (bits hw 6 5 * 4))
  else if hw &&& 0xf800 = 0x6800 then some (.load lo mid (bits hw 6 5 * 4))
  else if hw &&& 0xf800 = 0x9000 then some (.store hi Reg.sp (imm8 * 4))
  else if hw &&& 0xf800 = 0x9800 then some (.load hi Reg.sp (imm8 * 4))
  else if hw &&& 0xff80 = 0xb000 then some (.moveStack (bits hw 0 7 * 4))
  else if hw &&& 0xff80 = 0xb080 then some (.moveStack (0 - bits hw 0 7 * 4))
  else if hw &&& 0xfe00 = 0xb400 then some (.push (hw &&& 0xff) (hw &&& 0x100 != 0))
  else if hw &&& 0xfe00 = 0xbc00 then some (.pop (hw &&& 0xff) (hw &&& 0x100 != 0))
  else if hw = 0xbf00 then some .nop
  else if hw &&& 0xf800 = 0xe000 then some (.branch (shortOffset hw))
  else none

def decodeWide (hi lo : UInt16) : Option Instruction :=
  let rt := reg lo 12 4
  let rn := reg hi 0 4
  let imm := bits lo 0 12
  if Branch.isLink hi lo then some (.branchLink (UInt32.ofInt (Branch.decode hi lo)))
  else if hi = 0xf8df then some (.loadLiteral rt imm)
  else if hi = 0xf85f then some (.loadLiteral rt (0 - imm))
  else if hi &&& 0xfff0 = 0xf8c0 then some (.store rt rn imm)
  else if hi &&& 0xfff0 = 0xf8d0 then some (.load rt rn imm)
  else none

end Instruction

end FlashLink
