import FlashLink.Bytes

/-!
Trampoline records. A record loads the base of a module's variables into `r9` and jumps:

    +0   ldr.w r9, [pc, #4]     the word at +8
    +4   ldr.w pc, [pc, #4]     the word at +12
    +8   base
    +12  target

Loading the program counter interworks, so the target must carry the Thumb bit.
-/

namespace FlashLink.Record

/-- Bytes of one record. -/
def width : Nat := 16

/-- `ldr.w r9, [pc, #4]`. -/
def loadBase : UInt16 × UInt16 := (0xf8df, 0x9004)

/-- `ldr.w pc, [pc, #4]`. -/
def jump : UInt16 × UInt16 := (0xf8df, 0xf004)

def bytes (target base : Addr) : Bytes :=
  Bytes.ofU16 loadBase.1 ++ Bytes.ofU16 loadBase.2 ++ Bytes.ofU16 jump.1 ++ Bytes.ofU16 jump.2 ++
    Bytes.ofU32 base ++ Bytes.ofU32 target

end FlashLink.Record
