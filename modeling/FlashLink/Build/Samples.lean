import FlashLink.Build.Assembler
import FlashLink.Build.ObjectBuilder
import FlashLink.Text.Numeral

/-!
Small modules to load: one that asks the host for a value, one with a full descriptor, one that
fails, one with resident code, one that is large, one that calls far away and one with a relocation
that the loader does not know.
-/

namespace FlashLink

/-- Why a sample cannot be built. -/
inductive SampleFault where
  | tooSmall (least : Nat)
  | constantOutOfReach
deriving DecidableEq

namespace SampleFault

def message : SampleFault → String
  | tooSmall least => "streaming module needs at least " ++ Text.hex least ++ " bytes"
  | constantOutOfReach => "literal pool out of reach"

end SampleFault

/-- A step of building an object. -/
abbrev Draft : Type → Type := EStateM SampleFault ObjectBuilder

namespace Draft

def add (f : ObjectBuilder → Nat × ObjectBuilder) : Draft Nat := modifyGet f

def change (f : ObjectBuilder → ObjectBuilder) : Draft Unit := modify f

/-- Assembles a program. -/
def assemble (ss : List Statement) : Draft Assembled :=
  match (Assembler.ofStatements ss).finish with
  | some a => return a
  | none => throw .constantOutOfReach

/-- Offset in a program of constant `i`. -/
def literal (a : Assembled) (i : Nat) : Nat := a.literals.getD i 0

/-- The file that the steps build. -/
def write (d : Draft Unit) : Except SampleFault Bytes :=
  match d .empty with
  | .ok () o => .ok o.write
  | .error e _ => .error e

end Draft

namespace Samples

open Draft ObjectBuilder

/-- The symbol that samples are entered at unless told otherwise. -/
def entryName : String := "app_entry"

/-! ### Answering, describing, failing -/

/-- Calls the host's `get_value` and returns the address of the name `Test` and the value. -/
def answer : Except SampleFault Bytes := Draft.write do
  let text ← add (addSection · ".text" .text)
  let rodata ← add (addSection · ".rodata" .readOnly)
  let data ← add (addSection · ".data" .data)
  let bss ← add (addSection · ".bss" .bss)
  let nameAt ← add (append · rodata (Bytes.ofText "Test" |>.push 0) 4)
  let name ← add (object · "answer_name" rodata nameAt 5 false)
  let descAt ← add (append · data (Bytes.zeros 8) 4)
  let desc ← add (object · "answer_desc" data descAt 8 false)
  let scratchAt ← add (appendBss · bss 16 4)
  let _ ← add (object · "answer_scratch" bss scratchAt 16 false)
  change (absolute · data descAt name)
  let program : List Statement :=
    [.pushLr, .ldrLiteral 3 0, .blx 3, .ldrLiteral 1 0, .str 0 1 1, .movsReg 0 1, .popPc]
  let code ← assemble program
  let start ← add (append · text code.code 4)
  let _ ← add (function · entryName text start (Assembler.ofStatements program).here true)
  let host ← add (undefined · "get_value")
  change (absolute · text (start + literal code 0) host)
  change (absolute · text (start + literal code 1) desc)

/-- Returns a full descriptor, whose `start(x)` returns `x + 100`. -/
def app (name entry : String) (category : UInt32) : Except SampleFault Bytes := Draft.write do
  let text ← add (addSection · ".text" .text)
  let rodata ← add (addSection · ".rodata" .readOnly)
  let data ← add (addSection · ".data" .data)
  let label := (Bytes.ofText name).push 0
  let nameAt ← add (append · rodata label 4)
  let nameSym ← add (object · "app_name" rodata nameAt label.size false)
  let descAt ← add (append · data (Bytes.zeros 16 ++ Bytes.ofU32 category) 4)
  let descSym ← add (object · "app_desc" data descAt 20 false)
  let entryCode : List Statement := [.ldrLiteral 0 0, .bxLr]
  let startCode : List Statement := [.adds 0 100, .bxLr]
  let entrySize := (Assembler.ofStatements entryCode).here
  let code ← assemble (entryCode ++ startCode)
  let codeAt ← add (append · text code.code 4)
  let _ ← add (function · entry text codeAt entrySize true)
  let start ← add (function · "app_start" text (codeAt + entrySize) 4 false)
  change (absolute · text (codeAt + literal code 0) descSym)
  change (absolute · data descAt nameSym)
  change (absolute · data (descAt + 8) start)

/-- Returns zero. -/
def failing : Except SampleFault Bytes := Draft.write do
  let text ← add (addSection · ".text" .text)
  let code ← assemble [.movs 0 0, .bxLr]
  let start ← add (append · text code.code 4)
  let _ ← add (function · entryName text start 4 true)

/-! ### Resident code -/

/-- Two functions in `.text.iflash` and a table of variables that points at them. The entry returns
the address of the table. -/
def resident : Except SampleFault Bytes := Draft.write do
  let iflash ← add (addSection · ".text.iflash" .text)
  let text ← add (addSection · ".text" .text)
  let got ← add (addSection · ".got" .data)
  let data ← add (addSection · ".data" .data)
  let code ← assemble [.ldrWide 0 9 0, .bxLr, .nop, .movs 0 7, .bxLr]
  let start ← add (append · iflash code.code 4)
  let load ← add (function · "resident_load" iflash start 6 true)
  let seven ← add (function · "resident_seven" iflash (start + 8) 4 true)
  let plainCode : List Statement := [.movs 0 3, .bxLr]
  let entryAt := (Assembler.ofStatements plainCode).here
  let code ← assemble (plainCode ++ [.ldrLiteral 0 0, .bxLr])
  let textAt ← add (append · text code.code 4)
  let plain ← add (function · "plain_fn" text textAt 4 true)
  let _ ← add (function · entryName text (textAt + entryAt) 4 true)
  let _ ← add (append · got (Bytes.ofU32 0x0badf00d) 4)
  let tableAt ← add (append · data (Bytes.zeros 16 ++ Bytes.ofU32 0x12345678) 4)
  let table ← add (object · "fn_table" data tableAt 20 true)
  for (target, slot) in [load, seven, load, plain].zipIdx do
    change (absolute · data (tableAt + 4 * slot) target)
  change (absolute · text (textAt + literal code 0) table)

/-! ### A large module -/

def wordField : Nat := 0x10008

/-- This field straddles a power of two, where chunks tend to end. -/
def callField : Nat := 0x40000 - 2

def leastSize : Nat := 0x40004

def bssSize : Nat := 0x100

/-- One step of the generator behind `filler`. -/
def scramble (x : UInt32) : UInt32 :=
  let x := x ^^^ x <<< 13
  let x := x ^^^ x >>> 17
  x ^^^ x <<< 5

/-- Bytes that look arbitrary and are always the same. -/
def filler (len : Nat) : Bytes :=
  (len.fold (fun _ _ (x, b) =>
    let x := scramble x
    (x, b.push x.toUInt8)) ((0x2545f491 : UInt32), (#[] : Bytes))).2

/-- Fields across every boundary of 4096 bytes, where a whole field fits in `size` bytes. -/
def boundaryFields (size : Nat) : List Nat :=
  ((List.range (size / 0x1000 + 1)).map fun k => (k + 1) * 0x1000 - 2).filter fun offset =>
    offset + 4 ≤ size ∧ offset ≠ callField

/-- `size` bytes of code with relocated fields all over. -/
def streaming (size : Nat) : Except SampleFault Bytes := Draft.write do
  if size < leastSize then throw (.tooSmall leastSize)
  let text ← add (addSection · ".text" .text)
  let rodata ← add (addSection · ".rodata" .readOnly)
  let bss ← add (addSection · ".bss" .bss)
  let code ← assemble [.movs 0 0, .bxLr]
  let fields := boundaryFields size
  let body := (filler size).overwrite 0 code.code
    |>.overwrite wordField (Bytes.ofU32 0x10)
    |>.overwrite callField #[0xff, 0xf7, 0xfe, 0xff]
  let body := fields.zipIdx.foldl (fun b (offset, k) =>
    b.overwrite offset (Bytes.ofU32 (UInt32.ofNat k))) body
  let start ← add (append · text body 4)
  let entry ← add (function · entryName text start 4 true)
  let countersAt ← add (appendBss · bss bssSize 4)
  let counters ← add (object · "counters" bss countersAt bssSize false)
  let buffer ← add (undefined · "host_buffer")
  let callee ← add (undefined · "host_fn")
  change (absolute · text (start + wordField) buffer)
  change (call · text (start + callField) callee)
  for offset in fields do
    change (absolute · text (start + offset) counters)
  let tableAt ← add (append · rodata ((filler 1000).fill 0 4 0) 4)
  change (absolute · rodata tableAt entry)

/-! ### Relocations at the limit -/

/-- Calls `far_fn` directly. -/
def farCall : Except SampleFault Bytes := Draft.write do
  let text ← add (addSection · ".text" .text)
  let code ← assemble [.pushLr, .bl, .popPc]
  let start ← add (append · text code.code 4)
  let _ ← add (function · entryName text start code.code.size true)
  let far ← add (undefined · "far_fn")
  change (call · text (start + 2) far)

/-- Has a relocation of an unsupported type. The entry returns 5. -/
def relative : Except SampleFault Bytes := Draft.write do
  let text ← add (addSection · ".text" .text)
  let code ← assemble [.movs 0 5, .bxLr]
  let start ← add (append · text (code.code ++ Bytes.zeros 4) 4)
  let _ ← add (function · entryName text start 4 true)
  let host ← add (undefined · "get_value")
  change (relocate · text (start + 4) host 3)

end Samples

end FlashLink
