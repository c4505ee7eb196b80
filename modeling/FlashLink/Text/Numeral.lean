import FlashLink.Bytes

/-!
Numbers in messages: lowercase hexadecimal after `0x`, without padding for sizes and offsets and
with eight digits for addresses.
-/

namespace FlashLink.Text

def digits16 (n : Nat) : List Char := Nat.toDigits 16 n

/-- Digits with leading zeros up to `width`. -/
def padded (width n : Nat) : String :=
  let ds := digits16 n
  String.ofList (List.replicate (width - ds.length) '0' ++ ds)

def hex (n : Nat) : String := "0x" ++ padded 0 n

/-- At least four digits, as instructions are written. -/
def hex4 (n : Nat) : String := "0x" ++ padded 4 n

def address (a : Addr) : String := "0x" ++ padded 8 a.toNat

/-- The text followed by blanks up to `width` characters. -/
def padRight (width : Nat) (s : String) : String :=
  s ++ String.ofList (List.replicate (width - s.length) ' ')

/-- The text after blanks up to `width` characters. -/
def padLeft (width : Nat) (s : String) : String :=
  String.ofList (List.replicate (width - s.length) ' ') ++ s

end FlashLink.Text
