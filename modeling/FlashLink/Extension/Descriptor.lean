import FlashLink.Machine.Memory

/-!
Descriptors: the record that a module's entry point returns, decoded from memory. It is five words
long: the addresses of a name, an icon and two callbacks, and a category. Zero stands for absent.
-/

namespace FlashLink

/-- Callbacks that a descriptor may provide. -/
inductive Lifecycle where
  | start
  | stop
deriving DecidableEq

namespace Lifecycle

def name : Lifecycle → String
  | start => "Start"
  | stop => "Stop"

end Lifecycle

/-- Names in module memory are shorter than this. -/
def maxNameLen : Nat := 64

structure Descriptor where
  addr : Addr
  name : String
  icon : Addr
  start : Addr
  stop : Addr
  category : UInt32
deriving DecidableEq

namespace Descriptor

variable {μ : Type} [Memory μ]

/-- The name at an address; no address, no name. -/
def readName (addr : Addr) : Op μ String :=
  if addr = 0 then return "" else Memory.readText addr maxNameLen

/-- Decodes the record at an address. -/
def read (addr : Addr) : Op μ Descriptor := do
  let nameAt ← Memory.readWord addr
  let icon ← Memory.readWord (addr + 4)
  let start ← Memory.readWord (addr + 8)
  let stop ← Memory.readWord (addr + 12)
  let category ← Memory.readWord (addr + 16)
  let name ← readName nameAt
  return ⟨addr, name, icon, start, stop, category⟩

/-- The address, unless it is zero. -/
def present (addr : Addr) : Option Addr := if addr = 0 then none else some addr

def callback? (d : Descriptor) : Lifecycle → Option Addr
  | .start => present d.start
  | .stop => present d.stop

/-- The names of the optional parts that are there. -/
def capabilityNames (d : Descriptor) : List String :=
  (if d.start = 0 then [] else ["START"]) ++ (if d.stop = 0 then [] else ["STOP"]) ++
    (if d.icon = 0 then [] else ["ICON"])

/-- The optional parts that are there, as bits: start 1, stop 2, icon 4. -/
def capabilityBits (d : Descriptor) : Nat :=
  (if d.start = 0 then 0 else 1) + (if d.stop = 0 then 0 else 2) + (if d.icon = 0 then 0 else 4)

def capabilities (d : Descriptor) : String :=
  "Capabilities(" ++
    (if d.capabilityNames.isEmpty then "0x0" else " | ".intercalate d.capabilityNames) ++ ")"

end Descriptor

end FlashLink
