import FlashLink.Bytes

/-!
Cache maintenance, for when code or pointers have changed underneath the CPU.
-/

namespace FlashLink

class CacheControl (κ : Type) where
  /-- Writes back data caches over `len` bytes. -/
  flushData : Addr → Nat → κ → κ
  /-- Discards prefetched and cached instructions. -/
  invalidateInstructions : κ → κ

/-- A part without caches. -/
instance : CacheControl Unit := ⟨fun _ _ c => c, fun c => c⟩

end FlashLink
