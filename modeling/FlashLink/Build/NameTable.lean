import FlashLink.Bytes

/-!
Tables of names in which a name that ends another one shares its bytes. Names are written in
descending order of their reversed bytes, so that a name comes right after those that it ends.
-/

namespace FlashLink

structure NameTable where
  /-- The table, which begins with a zero. -/
  bytes : Bytes
  /-- Where each name is. -/
  offsets : List (Bytes × Nat)
deriving DecidableEq

namespace NameTable

def isSuffix (b whole : Bytes) : Bool := b.toList.isSuffixOf whole.toList

/-- Adds names in order; `last` is the name written last. -/
def addAll : List Bytes → Bytes → NameTable → NameTable
  | [], _, t => t
  | n :: ns, last, t =>
    if isSuffix n last then
      addAll ns last { t with offsets := (n, t.bytes.size - 1 - n.size) :: t.offsets }
    else
      addAll ns n ⟨(t.bytes ++ n).push 0, (n, t.bytes.size) :: t.offsets⟩

/-- Byte lists in descending order, a longer one before its beginnings. -/
def descending : List UInt8 → List UInt8 → Bool
  | _, [] => true
  | [], _ :: _ => false
  | a :: as, b :: bs => if a = b then descending as bs else b < a

def ofNames (names : List Bytes) : NameTable :=
  let sorted := names.eraseDups.mergeSort fun a b =>
    descending a.toList.reverse b.toList.reverse
  addAll sorted #[] ⟨#[0], []⟩

def offset (t : NameTable) (name : Bytes) : Nat := (t.offsets.lookup name).getD 0

end NameTable

end FlashLink
