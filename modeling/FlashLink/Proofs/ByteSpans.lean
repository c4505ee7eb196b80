import FlashLink.Bytes
import Mathlib.Tactic.Common

/-!
Spans of buffers: which bytes a span has, what writing to one span does to another, and when two
buffers agree on a set of places.
-/

namespace FlashLink

lemma le_alignUp (n : Nat) {a : Nat} (ha : 0 < a) : n ≤ alignUp n a := by
  have h := Nat.lt_div_mul_add (a := n + a - 1) ha
  rw [alignUp, if_neg (Nat.ne_of_gt ha)]
  omega

lemma alignUp_lt (n : Nat) {a : Nat} (ha : 0 < a) : alignUp n a < n + a := by
  have h := Nat.div_mul_le_self (n + a - 1) a
  rw [alignUp, if_neg (Nat.ne_of_gt ha)]
  omega

lemma dvd_alignUp (n a : Nat) (ha : 0 < a) : a ∣ alignUp n a := by
  rw [alignUp, if_neg (Nat.ne_of_gt ha)]
  exact Nat.dvd_mul_left ..

/-- No multiple of `a` lies between a size and the size rounded up. -/
lemma alignUp_le {n m a : Nat} (ha : 0 < a) (hm : a ∣ m) (h : n ≤ m) : alignUp n a ≤ m := by
  have h1 := alignUp_lt n ha
  obtain ⟨j, hj⟩ := dvd_alignUp n a ha
  obtain ⟨k, rfl⟩ := hm
  rw [hj] at h1 ⊢
  refine Nat.mul_le_mul_left a ?_
  by_contra hc
  have : a * (k + 1) ≤ a * j := Nat.mul_le_mul_left a (by omega)
  rw [Nat.mul_add] at this
  omega

lemma alignUp_eq {n a : Nat} (ha : 0 < a) (h : n % a = 0) : alignUp n a = n :=
  Nat.le_antisymm (alignUp_le ha (Nat.dvd_of_mod_eq_zero h) (Nat.le_refl _)) (le_alignUp n ha)

/-- From a multiple on, there is room up to a later one to round up what ends in between. -/
lemma add_alignUp_le {start len size stop a : Nat} (ha : 0 < a) (hstart : start % a = 0)
    (hle : start + len ≤ size) (hsize : size ≤ stop) (hstop : stop % a = 0) :
    start + alignUp len a ≤ stop := by
  have hroom : alignUp len a ≤ stop - start := alignUp_le ha
    (Nat.dvd_sub (Nat.dvd_of_mod_eq_zero hstop) (Nat.dvd_of_mod_eq_zero hstart)) (by omega)
  omega

/-! ### Low bits of an address -/

lemma or_and_distrib (x y z : UInt32) : (x ||| y) &&& z = x &&& z ||| y &&& z :=
  UInt32.toBitVec_inj.1 BitVec.and_or_distrib_right

lemma and_not_eq {x m : UInt32} (h : x &&& m = 0) : x &&& ~~~m = x := by
  have hx : (m ||| ~~~m) &&& x = x := by simp
  rwa [or_and_distrib, UInt32.and_comm m, h, UInt32.zero_or, UInt32.and_comm] at hx

lemma and_three_iff (x : UInt32) : x &&& 3 = 0 ↔ x.toNat % 4 = 0 := by
  rw [← UInt32.toNat_inj, UInt32.toNat_and]
  exact iff_of_eq (congrArg (· = 0) (Nat.and_two_pow_sub_one_eq_mod x.toNat 2))

lemma add_ofNat_ofNat (a : Addr) (i j : Nat) :
    a + UInt32.ofNat i + UInt32.ofNat j = a + UInt32.ofNat (i + j) := by
  rw [UInt32.add_assoc, UInt32.ofNat_add]

namespace Bytes

lemma ext_get {a b : Bytes} (h : ∀ i : Nat, a[i]? = b[i]?) : a = b := Array.ext_getElem? h

lemma byte_eq (b : Bytes) (i : Nat) : b.byte i = (b[i]?).getD 0 := by
  simp [byte, Array.getD_eq_getD_getElem?]

@[simp] lemma getElem?_slice (b : Bytes) (s n i : Nat) :
    (b.slice s n)[i]? = if i < n then b[s + i]? else none := by
  rw [slice, Array.getElem?_extract]
  split_ifs with h1 h2 h2
  · rfl
  · omega
  · exact (Array.getElem?_eq_none (by omega)).symm
  · rfl

lemma size_slice (b : Bytes) (s n : Nat) : (b.slice s n).size = min n (b.size - s) := by
  rw [slice, Array.size_extract]
  omega

lemma size_slice_of_le {b : Bytes} {s n : Nat} (h : s + n ≤ b.size) : (b.slice s n).size = n := by
  rw [size_slice]
  omega

lemma byte_slice {b : Bytes} {s n i : Nat} (h : i < n) : (b.slice s n).byte i = b.byte (s + i) := by
  rw [byte_eq, byte_eq, getElem?_slice, if_pos h]

@[simp] lemma slice_zero_size (b : Bytes) (s : Nat) : b.slice s 0 = #[] := by
  refine ext_get fun i => ?_
  simp

/-- A span of zeros. -/
lemma slice_eq_zeros {b : Bytes} {s n : Nat} (h : ∀ i, s ≤ i → i < s + n → b[i]? = some 0) :
    b.slice s n = zeros n := by
  refine ext_get fun i => ?_
  rw [getElem?_slice, zeros, Array.getElem?_replicate]
  split_ifs with hi
  · exact h (s + i) (by omega) (by omega)
  · rfl

lemma slice_size_slice (b : Bytes) (s n : Nat) : b.slice s (b.slice s n).size = b.slice s n := by
  refine ext_get fun i => ?_
  rw [getElem?_slice, getElem?_slice, size_slice]
  split_ifs with h1 h2
  · rfl
  · omega
  · exact (Array.getElem?_eq_none (by omega)).symm
  · rfl

lemma slice_slice (b : Bytes) {s n i m : Nat} (h : i + m ≤ n) :
    (b.slice s n).slice i m = b.slice (s + i) m := by
  refine ext_get fun j => ?_
  rw [getElem?_slice, getElem?_slice, getElem?_slice]
  split_ifs with h1 h2
  · rw [Nat.add_assoc]
  · omega
  · rfl

lemma slice_append_slice {b : Bytes} {s m k : Nat} (h : s + m ≤ b.size) :
    b.slice s m ++ b.slice (s + m) k = b.slice s (m + k) := by
  refine ext_get fun j => ?_
  rw [Array.getElem?_append, size_slice_of_le h, getElem?_slice, getElem?_slice, getElem?_slice]
  split_ifs with h1 h2 h3 h3 <;> first | rfl | omega | skip
  congr 1
  omega

@[simp] lemma slice_whole (b : Bytes) : b.slice 0 b.size = b := by
  refine ext_get fun i => ?_
  rw [getElem?_slice, Nat.zero_add]
  split_ifs with h
  · rfl
  · exact (Array.getElem?_eq_none (by omega)).symm

lemma getElem?_overwrite (b : Bytes) (s : Nat) (d : Bytes) (j : Nat) :
    (b.overwrite s d)[j]? =
      if s ≤ j ∧ j < s + d.size then b[j]?.map fun _ => d.byte (j - s) else b[j]? := by
  rw [overwrite, getElem?_updateSpan]

lemma getElem?_fill (b : Bytes) (s n : Nat) (v : UInt8) (j : Nat) :
    (b.fill s n v)[j]? = if s ≤ j ∧ j < s + n then b[j]?.map fun _ => v else b[j]? := by
  rw [fill, getElem?_updateSpan]

/-- A span reads back as it was written. -/
lemma slice_overwrite {b : Bytes} {s n : Nat} {d : Bytes} (hd : d.size = n) (h : s + n ≤ b.size) :
    (b.overwrite s d).slice s n = d := by
  refine ext_get fun j => ?_
  rw [getElem?_slice, getElem?_overwrite]
  split_ifs with h1 h2
  · rw [byte_eq, Nat.add_sub_cancel_left, Array.getElem?_eq_getElem (by omega : s + j < b.size),
      Array.getElem?_eq_getElem (by omega : j < d.size)]
    rfl
  · omega
  · exact (Array.getElem?_eq_none (by omega)).symm

/-- The later of two writes to a span is the one that stays. -/
lemma overwrite_overwrite (b : Bytes) (s : Nat) {d e : Bytes} (h : d.size = e.size) :
    (b.overwrite s d).overwrite s e = b.overwrite s e := by
  refine ext_get fun j => ?_
  rw [getElem?_overwrite, getElem?_overwrite, getElem?_overwrite, h]
  split_ifs
  · rw [Option.map_map]
    rfl
  · rfl

lemma overwrite_slice (b : Bytes) {s n : Nat} (h : s + n ≤ b.size) :
    b.overwrite s (b.slice s n) = b := by
  refine ext_get fun j => ?_
  rw [getElem?_overwrite, size_slice_of_le h]
  split_ifs with h1
  · rw [byte_slice (by omega), byte_eq, Nat.add_sub_cancel' h1.1,
      Array.getElem?_eq_getElem (by omega : j < b.size)]
    rfl
  · rfl

/-! ### Joined buffers -/

lemma slice_append_left {l r : Bytes} {s n : Nat} (h : s + n ≤ l.size) :
    (l ++ r).slice s n = l.slice s n := by
  refine ext_get fun j => ?_
  rw [getElem?_slice, getElem?_slice]
  split_ifs with hj
  · rw [Array.getElem?_append_left (by omega)]
  · rfl

lemma slice_append_right (l r : Bytes) (s n : Nat) :
    (l ++ r).slice (l.size + s) n = r.slice s n := by
  refine ext_get fun j => ?_
  rw [getElem?_slice, getElem?_slice, Array.getElem?_append_right (by omega),
    show l.size + s + j - l.size = s + j by omega]

lemma overwrite_append_left {l r d : Bytes} {s : Nat} (h : s + d.size ≤ l.size) :
    (l ++ r).overwrite s d = l.overwrite s d ++ r := by
  refine ext_get fun j => ?_
  rw [getElem?_overwrite, Array.getElem?_append, Array.getElem?_append, size_overwrite,
    getElem?_overwrite]
  split_ifs <;> first | rfl | omega

lemma overwrite_append_right (l r d : Bytes) (s : Nat) :
    (l ++ r).overwrite (l.size + s) d = l ++ r.overwrite s d := by
  refine ext_get fun j => ?_
  rw [getElem?_overwrite, Array.getElem?_append, Array.getElem?_append, getElem?_overwrite,
    show j - (l.size + s) = j - l.size - s by omega]
  split_ifs <;> first | rfl | omega

/-- What is written over the start of a padded buffer is followed by the padding. -/
lemma slice_padded {b out : Bytes} {len n : Nat} {v : UInt8} (hout : out.size = len) (hle : len ≤ n)
    (hn : n ≤ b.size) :
    ((b.fill len (n - len) v).overwrite 0 out).slice 0 n = out ++ Array.replicate (n - len) v := by
  subst hout
  refine ext_get fun j => ?_
  rw [getElem?_slice, getElem?_overwrite, getElem?_fill, Array.getElem?_append,
    Array.getElem?_replicate, Nat.zero_add]
  by_cases hj : j < n
  · rw [if_pos hj]
    have hjb : j < b.size := by omega
    by_cases hjo : j < out.size
    · rw [if_pos (by omega), if_neg (by omega), if_pos hjo, Array.getElem?_eq_getElem hjb, byte_eq,
        Nat.sub_zero, Array.getElem?_eq_getElem hjo]
      rfl
    · rw [if_neg (by omega), if_pos (by omega), if_neg hjo, if_pos (by omega),
        Array.getElem?_eq_getElem hjb]
      rfl
  · rw [if_neg hj, if_neg (by omega), if_neg (by omega)]

/-! ### Joined parts -/

/-- All parts, one after another. -/
def joined : List Bytes → Bytes
  | [] => #[]
  | p :: ps => p ++ joined ps

lemma joined_append (ps qs : List Bytes) : joined (ps ++ qs) = joined ps ++ joined qs := by
  induction ps with
  | nil => exact (Array.empty_append ..).symm
  | cons p ps ih => rw [List.cons_append, joined, ih, joined, Array.append_assoc]

lemma joined_three (p q r : Bytes) : joined [p, q, r] = p ++ q ++ r := by
  rw [joined, joined, joined, joined, Array.append_empty, Array.append_assoc]

lemma foldl_joined {α : Type} (f : α → Bytes) (l : List α) (b : Bytes) :
    l.foldl (fun b a => b ++ f a) b = b ++ joined (l.map f) := by
  induction l generalizing b with
  | nil => exact (Array.append_empty ..).symm
  | cons a l ih => rw [List.foldl_cons, ih, List.map_cons, joined, Array.append_assoc]

lemma joined_flatMap {α : Type} (f : α → List Bytes) (l : List α) :
    joined (l.flatMap f) = joined (l.map fun a => joined (f a)) := by
  induction l with
  | nil => rfl
  | cons a l ih => rw [List.flatMap_cons, joined_append, ih, List.map_cons, joined]

lemma size_joined {w : Nat} {ps : List Bytes} (hw : ∀ p ∈ ps, p.size = w) : (joined ps).size = ps.length * w := by
  induction ps with
  | nil => rw [List.length_nil, Nat.zero_mul]; rfl
  | cons p ps ih =>
    rw [joined, Array.size_append, ih fun q hq => hw q (.tail _ hq), hw p (.head _), List.length_cons,
      Nat.add_one_mul, Nat.add_comm]

/-! ### Words -/

/-- The word at an index is the first word of the four bytes there. -/
lemma u32_slice (b : Bytes) (i : Nat) : (b.slice i 4).u32 0 = b.u32 i := by
  simp [u32, byte_slice]

/-- A word of a span is a word of the whole. -/
lemma u32_of_slice (b : Bytes) {s n i : Nat} (h : i + 4 ≤ n) : (b.slice s n).u32 i = b.u32 (s + i) := by
  simp only [u32]
  rw [byte_slice (by omega), byte_slice (by omega), byte_slice (by omega), byte_slice (by omega),
    Nat.add_assoc, Nat.add_assoc, Nat.add_assoc]

lemma u16_slice (b : Bytes) (i : Nat) {j : Nat} (h : j + 2 ≤ 4) :
    (b.slice i 4).u16 j = b.u16 (i + j) := by
  simp only [u16]
  rw [byte_slice (by omega), byte_slice (by omega), Nat.add_assoc]

/-- A word is read back from its bytes. -/
lemma u32_ofU32 (v : UInt32) : (ofU32 v).u32 0 = v := by
  have hbyte : ∀ (n : UInt32) k, ((v >>> n).toUInt8.toUInt32.toNat.testBit k) =
      (decide (k < 8) && v.toNat.testBit (n.toNat % 32 + k)) := fun n k => by
    rw [UInt8.toNat_toUInt32, UInt32.toNat_toUInt8, UInt32.toNat_shiftRight,
      Nat.testBit_mod_two_pow, Nat.testBit_shiftRight]
  have hfirst : v.toUInt8 = (v >>> 0).toUInt8 := by simp
  have hlt : ∀ i, 32 ≤ i → v.toNat.testBit i = false := fun i h =>
    Nat.testBit_lt_two_pow (Nat.lt_of_lt_of_le v.toNat_lt (Nat.pow_le_pow_right (by omega) h))
  refine UInt32.toNat_inj.1 (Nat.eq_of_testBit_eq fun i => ?_)
  change ((v.toUInt8.toUInt32 ||| (v >>> 8).toUInt8.toUInt32 <<< 8 |||
    (v >>> 16).toUInt8.toUInt32 <<< 16 ||| (v >>> 24).toUInt8.toUInt32 <<< 24).toNat).testBit i = _
  rw [hfirst]
  simp only [UInt32.toNat_or, Nat.testBit_or, UInt32.toNat_shiftLeft, Nat.testBit_mod_two_pow,
    Nat.testBit_shiftLeft, hbyte, UInt32.reduceToNat, Nat.reduceMod]
  rcases Nat.lt_or_ge i 32 with hi | hi
  · grind
  · grind

@[simp] lemma size_ofU32 (v : UInt32) : (ofU32 v).size = 4 := rfl

/-! ### Agreement -/

/-- The buffers are equally long and have the same bytes at the places in `I`. -/
structure SameOn (I : Nat → Prop) (a b : Bytes) : Prop where
  size_eq : a.size = b.size
  get_eq : ∀ i, I i → a[i]? = b[i]?

namespace SameOn

variable {I J : Nat → Prop} {b c d : Bytes}

lemma refl (b : Bytes) : SameOn I b b := ⟨rfl, fun _ _ => rfl⟩

lemma trans (h : SameOn I b c) (h' : SameOn I c d) : SameOn I b d :=
  ⟨h.1.trans h'.1, fun i hi => (h.2 i hi).trans (h'.2 i hi)⟩

lemma mono (h : SameOn I b c) (hJ : ∀ i, J i → I i) : SameOn J b c :=
  ⟨h.1, fun i hi => h.2 i (hJ i hi)⟩

lemma slice_eq {s n : Nat} (h : SameOn I b c) (hI : ∀ i, s ≤ i → i < s + n → I i) :
    b.slice s n = c.slice s n := by
  refine ext_get fun j => ?_
  rw [getElem?_slice, getElem?_slice]
  split_ifs with hj
  · exact h.2 _ (hI _ (by omega) (by omega))
  · rfl

lemma u32_eq {s : Nat} (h : SameOn I b c) (hI : ∀ i, s ≤ i → i < s + 4 → I i) : b.u32 s = c.u32 s := by
  rw [← u32_slice, ← u32_slice c, h.slice_eq hI]

/-- Whatever is done alike to one span keeps agreement, and brings it to the span if the outcome does
not depend on the bytes there. -/
lemma updateSpan {s n : Nat} {f : Nat → UInt8 → UInt8} (h : SameOn I b c)
    (hJ : ∀ i, J i → I i ∨ s ≤ i ∧ i < s + n ∧ ∀ x y, f (i - s) x = f (i - s) y) :
    SameOn J (b.updateSpan s n f) (c.updateSpan s n f) := by
  refine ⟨by simp [h.1], fun i hi => ?_⟩
  rw [getElem?_updateSpan, getElem?_updateSpan]
  rcases hJ i hi with hI | ⟨h1, h2, hf⟩
  · rw [h.2 i hI]
  · rw [if_pos ⟨h1, h2⟩, if_pos ⟨h1, h2⟩]
    by_cases hb : i < b.size
    · rw [Array.getElem?_eq_getElem hb, Array.getElem?_eq_getElem (h.1 ▸ hb)]
      simp only [Option.map_some, Option.some.injEq]
      exact hf _ _
    · rw [Array.getElem?_eq_none (by omega), Array.getElem?_eq_none (by have := h.1; omega)]

lemma overwrite {s : Nat} {data : Bytes} (h : SameOn I b c)
    (hJ : ∀ i, J i → I i ∨ s ≤ i ∧ i < s + data.size) :
    SameOn J (b.overwrite s data) (c.overwrite s data) :=
  h.updateSpan fun i hi => (hJ i hi).imp_right fun h => ⟨h.1, h.2, fun _ _ => rfl⟩

lemma fill {s n : Nat} {v : UInt8} (h : SameOn I b c)
    (hJ : ∀ i, J i → I i ∨ s ≤ i ∧ i < s + n) : SameOn J (b.fill s n v) (c.fill s n v) :=
  h.updateSpan fun i hi => (hJ i hi).imp_right fun h => ⟨h.1, h.2, fun _ _ => rfl⟩

end SameOn

/-- Writing to a span changes no byte outside it. -/
lemma sameOn_updateSpan {I : Nat → Prop} (b : Bytes) {s n : Nat} (f : Nat → UInt8 → UInt8)
    (hI : ∀ i, I i → i < s ∨ s + n ≤ i) : SameOn I b (b.updateSpan s n f) := by
  refine ⟨by simp, fun i hi => ?_⟩
  rw [getElem?_updateSpan, if_neg]
  have := hI i hi
  omega

lemma sameOn_overwrite {I : Nat → Prop} (b : Bytes) {s : Nat} {data : Bytes}
    (hI : ∀ i, I i → i < s ∨ s + data.size ≤ i) : SameOn I b (b.overwrite s data) :=
  sameOn_updateSpan b _ hI

lemma sameOn_fill {I : Nat → Prop} (b : Bytes) {s n : Nat} {v : UInt8}
    (hI : ∀ i, I i → i < s ∨ s + n ≤ i) : SameOn I b (b.fill s n v) :=
  sameOn_updateSpan b _ hI

end Bytes

end FlashLink
