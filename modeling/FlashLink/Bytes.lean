/-!
Bytes, addresses and little-endian words.

A buffer is an array of bytes. Reading past its end yields zeros, so every reader is total; callers
check bounds wherever an answer depends on them. All writing goes through `updateSpan`, whose only
law, `getElem?_updateSpan`, says which bytes change.
-/

namespace FlashLink

abbrev Bytes := Array UInt8

/-- An address in the target's 32-bit address space. -/
abbrev Addr := UInt32

/-- The least multiple of `align` that is at least `value`; `value` itself for `align = 0`. -/
def alignUp (value align : Nat) : Nat :=
  if align = 0 then value else (value + align - 1) / align * align

/-- Sizes and offsets are 64-bit words; nothing is ever as large as this. -/
def sizeLimit : Nat := UInt64.size

namespace Bytes

def zeros (n : Nat) : Bytes := Array.replicate n 0

def byte (b : Bytes) (i : Nat) : UInt8 := b.getD i 0

def u16 (b : Bytes) (i : Nat) : UInt16 :=
  (b.byte i).toUInt16 ||| (b.byte (i + 1)).toUInt16 <<< 8

def u32 (b : Bytes) (i : Nat) : UInt32 :=
  (b.byte i).toUInt32 ||| (b.byte (i + 1)).toUInt32 <<< 8 ||| (b.byte (i + 2)).toUInt32 <<< 16 |||
    (b.byte (i + 3)).toUInt32 <<< 24

def ofU16 (v : UInt16) : Bytes := #[v.toUInt8, (v >>> 8).toUInt8]

def ofU32 (v : UInt32) : Bytes :=
  #[v.toUInt8, (v >>> 8).toUInt8, (v >>> 16).toUInt8, (v >>> 24).toUInt8]

def ofText (s : String) : Bytes := s.toUTF8.data

/-- The text these bytes spell in UTF-8, if they do. -/
def text? (b : Bytes) : Option String := String.fromUTF8? ⟨b⟩

/-- The `len` bytes from `start` on, fewer at the end of the buffer. -/
def slice (b : Bytes) (start len : Nat) : Bytes := b.extract start (start + len)

/-- Byte `i` of the `len` bytes at `start` becomes `f i` of its old value. -/
def updateSpan (b : Bytes) (start len : Nat) (f : Nat → UInt8 → UInt8) : Bytes :=
  len.fold (fun i _ acc => acc.modify (start + i) (f i)) b

def overwrite (b : Bytes) (start : Nat) (data : Bytes) : Bytes :=
  b.updateSpan start data.size fun i _ => data.byte i

def fill (b : Bytes) (start len : Nat) (v : UInt8) : Bytes :=
  b.updateSpan start len fun _ _ => v

/-- The zero-terminated text at `start`: the bytes before the first zero. -/
def untilZero? (b : Bytes) (start : Nat) : Option Bytes :=
  let tail := b.extract start b.size
  (tail.findIdx? (· == 0)).map fun n => tail.extract 0 n

/-! ### What an update changes -/

@[simp] theorem size_updateSpan (b : Bytes) (start len : Nat) (f : Nat → UInt8 → UInt8) :
    (b.updateSpan start len f).size = b.size := by
  induction len with
  | zero => simp [updateSpan]
  | succ n ih => simpa [updateSpan, Nat.fold_succ] using ih

theorem getElem?_updateSpan (b : Bytes) (start len : Nat) (f : Nat → UInt8 → UInt8) (j : Nat) :
    (b.updateSpan start len f)[j]? =
      if start ≤ j ∧ j < start + len then b[j]?.map (f (j - start)) else b[j]? := by
  induction len with
  | zero => rw [if_neg (by omega)]; rfl
  | succ n ih =>
    have step : b.updateSpan start (n + 1) f = (b.updateSpan start n f).modify (start + n) (f n) := by
      simp [updateSpan, Nat.fold_succ]
    rw [step, Array.getElem?_modify, ih]
    by_cases h : start + n = j
    · subst h; simp
    · by_cases h1 : start ≤ j ∧ j < start + n
      · rw [if_neg h, if_pos h1, if_pos (by omega)]
      · rw [if_neg h, if_neg h1, if_neg (by omega)]

@[simp] theorem size_overwrite (b : Bytes) (start : Nat) (data : Bytes) :
    (b.overwrite start data).size = b.size := size_updateSpan ..

@[simp] theorem size_fill (b : Bytes) (start len : Nat) (v : UInt8) :
    (b.fill start len v).size = b.size := size_updateSpan ..

end Bytes

end FlashLink
