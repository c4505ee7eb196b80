import FlashLink.Bytes

/-!
Reading JSON from bytes, as far as a record of optional texts needs it. Every reader takes the input
and answers what it read with the input that is left, or nothing if the input is malformed.

Texts that are kept must be valid UTF-8 without raw control characters, and surrogate escapes in them
must come in pairs. Values that are passed over only have to be well formed: their texts may hold any
bytes and any four hexadecimal digits.
-/

namespace FlashLink.Json

abbrev Input : Type := List UInt8

/-! ### Blanks and fixed text -/

def isBlank (b : UInt8) : Bool := b == 0x20 || b == 0x09 || b == 0x0a || b == 0x0d

def skipBlanks (s : Input) : Input := s.dropWhile isBlank

/-- The rest after fixed text. -/
def expect (word : String) (s : Input) : Option Input :=
  let w := word.toUTF8.toList
  if w.isPrefixOf s then some (s.drop w.length) else none

/-! ### Characters of a text -/

def hexDigit? (b : UInt8) : Option Nat :=
  if 0x30 ≤ b && b ≤ 0x39 then some (b.toNat - 0x30)
  else if 0x61 ≤ b && b ≤ 0x66 then some (b.toNat - 0x61 + 10)
  else if 0x41 ≤ b && b ≤ 0x46 then some (b.toNat - 0x41 + 10)
  else none

/-- Four hexadecimal digits. -/
def hex4? : Input → Option (Nat × Input)
  | a :: b :: c :: d :: s => do
    let a ← hexDigit? a
    let b ← hexDigit? b
    let c ← hexDigit? c
    let d ← hexDigit? d
    return (((a * 16 + b) * 16 + c) * 16 + d, s)
  | _ => none

/-- The byte that a one-letter escape stands for. -/
def escape? (b : UInt8) : Option UInt8 :=
  match b.toNat with
  | 0x22 => some 0x22
  | 0x5c => some 0x5c
  | 0x2f => some 0x2f
  | 0x62 => some 0x08
  | 0x66 => some 0x0c
  | 0x6e => some 0x0a
  | 0x72 => some 0x0d
  | 0x74 => some 0x09
  | _ => none

/-- The code point of an escape whose `\u` has been read: one unit, or two surrogates. -/
def codePoint? (s : Input) : Option (Nat × Input) := do
  let (hi, s) ← hex4? s
  if 0xdc00 ≤ hi && hi ≤ 0xdfff then none
  else if 0xd800 ≤ hi && hi ≤ 0xdbff then
    let (lo, s) ← hex4? (← expect "\\u" s)
    if 0xdc00 ≤ lo && lo ≤ 0xdfff then
      return (0x10000 + (hi - 0xd800) * 0x400 + (lo - 0xdc00), s)
    else none
  else return (hi, s)

/-- One character of a kept text, in UTF-8. -/
def textChar? : Input → Option (Bytes × Input)
  | [] => none
  | b :: s =>
    if b < 0x20 then none
    else if b = 0x5c then
      match s with
      | [] => none
      | 0x75 :: s => (codePoint? s).map fun (n, s) => (Bytes.ofText (Char.ofNat n).toString, s)
      | e :: s => (escape? e).map fun c => (#[c], s)
    else some (#[b], s)

/-- One character of a text that is passed over. -/
def skipChar? : Input → Option Input
  | [] => none
  | b :: s =>
    if b < 0x20 then none
    else if b = 0x5c then
      match s with
      | [] => none
      | 0x75 :: s => (hex4? s).map (·.2)
      | e :: s => (escape? e).map fun _ => s
    else some s

/-- The bytes of a text up to its closing quote. Every character takes at least a byte, so `fuel` need
not exceed the length of the input. -/
def textBytes? : Nat → Bytes → Input → Option (Bytes × Input)
  | 0, _, _ => none
  | fuel + 1, seen, s =>
    match s with
    | 0x22 :: s => some (seen, s)
    | s => do
      let (c, s) ← textChar? s
      textBytes? fuel (seen ++ c) s

/-- A kept text, opening quote included. -/
def text? (s : Input) : Option (String × Input) := do
  let s ← expect "\"" s
  let (b, s) ← textBytes? (s.length + 1) #[] s
  return (← b.text?, s)

/-- Passes over a text up to its closing quote. -/
def skipRest? : Nat → Input → Option Input
  | 0, _ => none
  | fuel + 1, s =>
    match s with
    | 0x22 :: s => some s
    | s => do skipRest? fuel (← skipChar? s)

/-- Passes over a text, opening quote included. -/
def skipText? (s : Input) : Option Input := do
  let s ← expect "\"" s
  skipRest? (s.length + 1) s

/-! ### Numbers -/

def isDigit (b : UInt8) : Bool := 0x30 ≤ b && b ≤ 0x39

/-- Passes over one or more digits. -/
def digits? : Input → Option Input
  | b :: s => if isDigit b then some (s.dropWhile isDigit) else none
  | [] => none

/-- Passes over an exponent, if there is one. -/
def exponent? : Input → Option Input
  | b :: s =>
    if b = 0x65 ∨ b = 0x45 then
      match s with
      | 0x2b :: s => digits? s
      | 0x2d :: s => digits? s
      | s => digits? s
    else some (b :: s)
  | [] => some []

/-- Passes over decimal places and an exponent, if there are any. -/
def fraction? : Input → Option Input
  | 0x2e :: s => do exponent? (← digits? s)
  | s => exponent? s

/-- Passes over a number. No digit may follow a leading zero. -/
def number? (s : Input) : Option Input :=
  let s := match s with
    | 0x2d :: s => s
    | s => s
  match s with
  | 0x30 :: s =>
    match s with
    | b :: _ => if isDigit b then none else fraction? s
    | [] => some []
  | s => do fraction? (← digits? s)

/-! ### Values -/

/-- What encloses a value. -/
inductive Bracket where
  | list
  | record
deriving DecidableEq

/-- What is to come next while a value is passed over. -/
inductive Wanted where
  /-- A value. -/
  | value
  /-- A value or the end of the innermost list. -/
  | firstElement
  /-- A key. -/
  | key
  /-- A key or the end of the innermost record. -/
  | firstKey
  /-- A comma or the end of the innermost bracket. -/
  | more
deriving DecidableEq

/-- One step of passing over a value inside the brackets `inner`, the innermost first: what is to come
next, the brackets then, and the rest. -/
def skipStep? (inner : List Bracket) (w : Wanted) (s : Input) :
    Option (Wanted × List Bracket × Input) :=
  match w, inner, s with
  | .firstElement, .list :: up, 0x5d :: s => some (.more, up, s)
  | .firstKey, .record :: up, 0x7d :: s => some (.more, up, s)
  | .more, .list :: up, 0x5d :: s => some (.more, up, s)
  | .more, .record :: up, 0x7d :: s => some (.more, up, s)
  | .more, .list :: up, 0x2c :: s => some (.value, .list :: up, s)
  | .more, .record :: up, 0x2c :: s => some (.key, .record :: up, s)
  | .more, _, _ => none
  | .key, _, s | .firstKey, _, s => do
    let s ← expect ":" (skipBlanks (← skipText? s))
    return (.value, inner, s)
  | .value, _, s | .firstElement, _, s =>
    match s with
    | 0x5b :: s => some (.firstElement, .list :: inner, s)
    | 0x7b :: s => some (.firstKey, .record :: inner, s)
    | 0x22 :: _ => (skipText? s).map fun s => (.more, inner, s)
    | 0x6e :: _ => (expect "null" s).map fun s => (.more, inner, s)
    | 0x74 :: _ => (expect "true" s).map fun s => (.more, inner, s)
    | 0x66 :: _ => (expect "false" s).map fun s => (.more, inner, s)
    | s => (number? s).map fun s => (.more, inner, s)

/-- Passes over a value step by step; every step takes at least a byte. -/
def skipFrom? : Nat → List Bracket → Wanted → Input → Option Input
  | 0, _, _, _ => none
  | fuel + 1, inner, w, s =>
    if inner.isEmpty ∧ w = .more then some s
    else do
      let (w, inner, s) ← skipStep? inner w (skipBlanks s)
      skipFrom? fuel inner w s

/-- Passes over one value, however deep. -/
def skipValue? (s : Input) : Option Input := skipFrom? (s.length + 1) [] .value s

/-- Null, or a kept text. -/
def optionalText? (s : Input) : Option (Option String × Input) :=
  let s := skipBlanks s
  match s with
  | 0x6e :: _ => (expect "null" s).map fun s => (none, s)
  | s => (text? s).map fun (t, s) => (some t, s)

end FlashLink.Json
