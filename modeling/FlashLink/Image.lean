import FlashLink.Pool
import FlashLink.Elf.Section

/-!
The result of a successful load: a description of memory that has been committed for one module.
-/

namespace FlashLink

structure PlacedSection where
  /-- Index of the section header. -/
  index : Nat
  name : String
  cls : SectionClass
  size : Nat
  addr : Addr
deriving DecidableEq

namespace PlacedSection

def contains (s : PlacedSection) (addr : Addr) : Bool := covers s.addr s.size addr

end PlacedSection

structure Image where
  name : String
  /-- Every placed section, in the order of the section headers. -/
  sections : List PlacedSection
  /-- The block of all initialised variables. -/
  data : Option RamBlock
  /-- The block of all zero-initialised variables. -/
  bss : Option RamBlock
  /-- Where to enter the module, Thumb bit included. -/
  entry : Addr
  /-- What `r9` must hold while the module runs. -/
  gotBase : Addr
deriving DecidableEq

namespace Image

/-- The first placed section of that name. -/
def section? (i : Image) (name : String) : Option PlacedSection :=
  i.sections.find? (·.name == name)

/-- Bytes of flash that the module's sections take. -/
def flashBytes (i : Image) : Nat :=
  (i.sections.filter (·.cls.isFlash)).foldl (fun n s => n + s.size) 0

end Image

end FlashLink
