import FlashLink.Bytes

/-!
The run-time address of every placed section, by section index.
-/

namespace FlashLink

structure Placement where
  bases : Array (Option Addr)
deriving DecidableEq

namespace Placement

def create (sections : Nat) : Placement := ⟨Array.replicate sections none⟩

/-- Places a section; an index past the end changes nothing. -/
def set (p : Placement) (index : Nat) (base : Addr) : Placement :=
  ⟨p.bases.setIfInBounds index (some base)⟩

def get? (p : Placement) (index : Nat) : Option Addr := p.bases.getD index none

end Placement

end FlashLink
