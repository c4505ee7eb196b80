import FlashLink.Pool

/-!
What a residency pass did: which sections it copied to internal flash, and how many pointers it
redirected through how many trampolines.
-/

namespace FlashLink

/-- One section copied to internal flash. -/
structure ResidentCopy where
  name : String
  xip : Addr
  iflash : Addr
  size : Nat
deriving DecidableEq

namespace ResidentCopy

/-- Where an address of the section is in the copy, Thumb bit kept. -/
def relocate? (c : ResidentCopy) (addr : Addr) : Option Addr :=
  let bare := addr &&& ~~~1
  if covers c.xip c.size bare then some (c.iflash + (bare - c.xip) ||| (addr &&& 1)) else none

end ResidentCopy

structure ResidencyReport where
  copies : List ResidentCopy
  bytesCopied : Nat
  pointersPatched : Nat
  trampolines : Nat
deriving DecidableEq

namespace ResidencyReport

def empty : ResidencyReport := ⟨[], 0, 0, 0⟩

/-- There was nothing to make resident. -/
def isEmpty (r : ResidencyReport) : Bool := r.copies.isEmpty

/-- Internal flash address of an address in a copied section. -/
def residentAddress? (r : ResidencyReport) (addr : Addr) : Option Addr :=
  r.copies.findSome? (·.relocate? addr)

end ResidencyReport

end FlashLink
