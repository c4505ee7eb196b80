import FlashLink.Build.NameTable
import FlashLink.Proofs.ByteSpans
import Mathlib.Algebra.GroupWithZero.Nat

/-!
Tables of names have the names that they were made of, each with a zero after it, where they say. Names
that share bytes make no exception: the shorter one ends where the longer one does.
-/

namespace FlashLink

/-! ### Parts of a buffer -/

namespace Bytes

/-- The buffer has these bytes at an offset. -/
def HasAt (b : Bytes) (offset : Nat) (part : Bytes) : Prop := b.slice offset part.size = part

variable {b l r part name : Bytes} {offset : Nat}

lemma HasAt.le (h : b.HasAt offset part) (hpos : 0 < part.size) : offset + part.size ≤ b.size := by
  have hsize := congrArg Array.size h
  rw [size_slice] at hsize
  omega

lemma HasAt.slice_eq (h : b.HasAt offset part) {i n : Nat} (hi : i + n ≤ part.size) :
    b.slice (offset + i) n = part.slice i n := by
  conv_rhs => rw [← h, slice_slice b hi]

lemma hasAt_self (b : Bytes) : b.HasAt 0 b := slice_whole b

lemma hasAt_append (l r : Bytes) : HasAt (l ++ r) l.size r := by
  rw [HasAt, ← Nat.add_zero l.size, slice_append_right, slice_whole]

lemma HasAt.append (h : b.HasAt offset part) (r : Bytes) : (b ++ r).HasAt offset part := by
  rcases Nat.eq_zero_or_pos part.size with hzero | hpos
  · rw [HasAt, hzero, slice_zero_size, Array.eq_empty_of_size_eq_zero hzero]
  · rw [HasAt, slice_append_left (h.le hpos)]
    exact h

/-- What is made of two parts has them side by side. -/
lemma HasAt.parts (h : b.HasAt offset (l ++ r)) :
    b.HasAt offset l ∧ b.HasAt (offset + l.size) r := by
  have hsize : (l ++ r).size = l.size + r.size := Array.size_append
  have hl := h.slice_eq (i := 0) (n := l.size) (by omega)
  have hr := h.slice_eq (i := l.size) (n := r.size) (by omega)
  rw [Nat.add_zero, slice_append_left (by omega), slice_whole] at hl
  rw [← Nat.add_zero l.size, slice_append_right, slice_whole] at hr
  exact ⟨hl, hr⟩

/-- The part is still there if the buffer is cut off after it. -/
lemma HasAt.cut (h : b.HasAt offset part) {n : Nat} (hn : offset + part.size ≤ n) :
    (b.slice 0 n).HasAt offset part := by
  rw [HasAt, slice_slice b hn, Nat.zero_add]
  exact h

lemma HasAt.u32_eq {v : UInt32} (h : b.HasAt offset (ofU32 v)) : b.u32 offset = v := by
  have hslice : b.slice offset 4 = ofU32 v := h
  rw [← u32_slice, hslice, u32_ofU32]

lemma HasAt.byte_eq {i : Nat} (h : b.HasAt offset part) (hi : i < part.size) :
    b.byte (offset + i) = part.byte i := by
  rw [← byte_slice hi]
  exact congrArg (byte · i) h

/-! ### Names in a buffer -/

/-- Text is read back from its bytes. -/
@[simp] lemma text?_ofText (s : String) : text? (ofText s) = some s := dif_pos s.isValidUTF8

/-- The buffer has the name at an offset, and a zero after it. -/
def NamedAt (b : Bytes) (offset : Nat) (name : Bytes) : Prop := b.HasAt offset (name.push 0)

lemma NamedAt.lt (h : b.NamedAt offset name) : offset + name.size < b.size := by
  have hle := HasAt.le h (by rw [Array.size_push]; omega)
  rw [Array.size_push] at hle
  omega

lemma namedAt_push (b name : Bytes) : NamedAt ((b ++ name).push 0) b.size name := by
  have hsplit : (b ++ name).push 0 = b ++ name.push 0 := Array.push_append
  rw [hsplit]
  exact hasAt_append _ _

/-- What ends a name ends where the name does. -/
lemma NamedAt.ending (h : b.NamedAt offset (l ++ name)) : b.NamedAt (offset + l.size) name := by
  have hsplit : (l ++ name).push 0 = l ++ name.push 0 := Array.push_append
  rw [NamedAt, hsplit] at h
  exact h.parts.2

/-- A name without zeros is what is read up to the first zero. -/
lemma NamedAt.untilZero?_eq (h : b.NamedAt offset name) (hzero : 0 ∉ name) :
    b.untilZero? offset = some name := by
  have hlt := h.lt
  have hbyte : ∀ i, i < name.size + 1 → b[offset + i]? = (name.push 0)[i]? := by
    intro i hi
    rw [← h, getElem?_slice, if_pos (by rw [Array.size_push]; omega)]
  have hfind : (b.extract offset b.size).findIdx? (· == 0) = some name.size := by
    rw [Array.findIdx?_eq_some_iff_getElem]
    refine ⟨by rw [Array.size_extract]; omega, ?_, fun j hj => ?_⟩
    · have := hbyte name.size (by omega)
      rw [Array.getElem?_eq_getElem hlt, Array.getElem?_push_size] at this
      rw [Array.getElem_extract, Option.some.inj this]
      rfl
    · have := hbyte j (by omega)
      rw [Array.getElem?_eq_getElem (by omega), Array.getElem?_eq_getElem (by simp; omega),
        Array.getElem_push_lt hj] at this
      rw [Array.getElem_extract, Option.some.inj this, beq_iff_eq]
      exact fun h => hzero (h ▸ Array.getElem_mem hj)
  unfold untilZero?
  dsimp only
  rw [hfind, Option.map_some]
  refine congrArg some (ext_get fun i => ?_)
  rw [Array.getElem?_extract, Array.getElem?_extract]
  split_ifs with h1 h2
  · rw [Nat.zero_add, hbyte i (by omega), Array.getElem?_push_lt (by omega)]
    exact (Array.getElem?_eq_getElem _).symm
  · omega
  · exact (Array.getElem?_eq_none (by rw [Array.size_extract] at h1; omega)).symm

end Bytes

namespace NameTable

/-! ### Well-formed tables -/

/-- Every name is where the table says, and the one that was written last ends the table. -/
structure Sound (t : NameTable) (last : Bytes) : Prop where
  named : ∀ q ∈ t.offsets, t.bytes.NamedAt q.2 q.1
  ends : ∃ k, t.bytes.NamedAt k last ∧ t.bytes.size = k + last.size + 1

variable {t : NameTable} {last n : Bytes} {names : List Bytes}

/-- The table before any name is written ends with the empty name. -/
lemma sound_empty : Sound ⟨#[0], []⟩ #[] := ⟨nofun, 0, rfl, rfl⟩

/-- A name that ends the last one is there already. -/
lemma Sound.shared (h : t.Sound last) (hn : isSuffix n last) :
    Sound { t with offsets := (n, t.bytes.size - 1 - n.size) :: t.offsets } last := by
  refine ⟨List.forall_mem_cons.2 ⟨?_, h.named⟩, h.ends⟩
  obtain ⟨k, hk, hsize⟩ := h.ends
  obtain ⟨l, hl⟩ := List.isSuffixOf_iff_suffix.1 hn
  have hlast : last = l.toArray ++ n := by
    rw [← Array.toList_inj, ← hl, Array.toList_append]
  have hplace : t.bytes.size - 1 - n.size = k + l.toArray.size := by
    rw [hsize, hlast, Array.size_append]
    omega
  rw [hlast] at hk
  dsimp only
  rw [hplace]
  exact hk.ending

/-- Any other name is written after the last one. -/
lemma Sound.written (h : t.Sound last) (n : Bytes) :
    Sound ⟨(t.bytes ++ n).push 0, (n, t.bytes.size) :: t.offsets⟩ n := by
  have hn := Bytes.namedAt_push t.bytes n
  have hsize : ((t.bytes ++ n).push 0).size = t.bytes.size + n.size + 1 := by
    rw [Array.size_push, Array.size_append]
  refine ⟨List.forall_mem_cons.2 ⟨hn, fun q hq => ?_⟩, t.bytes.size, hn, hsize⟩
  dsimp only
  rw [Array.push_eq_append, Array.append_assoc]
  exact Bytes.HasAt.append (h.named q hq) _

/-- **Adding names** keeps a table well-formed and puts all of them in. -/
lemma Sound.addAll (h : t.Sound last) (names : List Bytes) :
    (∃ last', (addAll names last t).Sound last') ∧
      ∀ n, n ∈ names ∨ n ∈ t.offsets.map (·.1) → n ∈ (addAll names last t).offsets.map (·.1) := by
  induction names generalizing last t with
  | nil => exact ⟨⟨last, h⟩, fun n hn => hn.resolve_left List.not_mem_nil⟩
  | cons m names ih =>
    have hmore : ∀ {offset : Nat} (n : Bytes), n ∈ m :: names ∨ n ∈ t.offsets.map (·.1) →
        n ∈ names ∨ n ∈ ((m, offset) :: t.offsets).map (·.1) := by
      intro offset n hn
      simp only [List.mem_cons, List.map_cons] at hn ⊢
      tauto
    unfold NameTable.addAll
    split_ifs with hm
    · obtain ⟨hsound, hall⟩ := ih (h.shared hm)
      exact ⟨hsound, fun n hn => hall n (hmore n hn)⟩
    · obtain ⟨hsound, hall⟩ := ih (h.written m)
      exact ⟨hsound, fun n hn => hall n (hmore n hn)⟩

/-- **A table of names** has each of them at its offset. -/
lemma ofNames_named (h : n ∈ names) : (ofNames names).bytes.NamedAt ((ofNames names).offset n) n := by
  obtain ⟨⟨last, hsound⟩, hall⟩ := sound_empty.addAll
    (names.eraseDups.mergeSort fun a b => descending a.toList.reverse b.toList.reverse)
  have hmem := hall n (.inl (List.mem_mergeSort.2 (List.mem_eraseDups.2 h)))
  change n ∈ (ofNames names).offsets.map (·.1) at hmem
  change (ofNames names).Sound last at hsound
  obtain ⟨q, hq, rfl⟩ := List.mem_map.1 hmem
  have hsome : ((ofNames names).offsets.lookup q.1).isSome :=
    List.lookup_isSome_iff.2 ⟨q, hq, beq_self_eq_true _⟩
  obtain ⟨k, hk⟩ := Option.isSome_iff_exists.1 hsome
  obtain ⟨before, after, hsplit, -⟩ := List.lookup_eq_some_iff.1 hk
  have hplace := hsound.named (q.1, k) (by rw [hsplit]; simp)
  rw [offset, hk]
  exact hplace

/-! ### Sizes -/

lemma size_addAll_le (names : List Bytes) (last : Bytes) (t : NameTable) :
    (addAll names last t).bytes.size ≤ t.bytes.size + (names.map (·.size + 1)).sum := by
  induction names generalizing last t with
  | nil => exact Nat.le_refl _
  | cons n names ih =>
    unfold addAll
    rw [List.map_cons, List.sum_cons]
    split_ifs
    · exact Nat.le_trans (ih last _) (by dsimp only; omega)
    · refine Nat.le_trans (ih n _) ?_
      rw [Array.size_push, Array.size_append]
      omega

/-- No table is empty. -/
lemma size_ofNames_pos (names : List Bytes) : 0 < (ofNames names).bytes.size := by
  obtain ⟨⟨last, hsound⟩, -⟩ := sound_empty.addAll
    (names.eraseDups.mergeSort fun a b => descending a.toList.reverse b.toList.reverse)
  obtain ⟨k, -, hsize⟩ := hsound.ends
  change (ofNames names).bytes.size = _ at hsize
  omega

lemma sum_filter_le (f : Bytes → Nat) (p : Bytes → Bool) (l : List Bytes) :
    ((l.filter p).map f).sum ≤ (l.map f).sum := by
  induction l with
  | nil => exact Nat.le_refl _
  | cons a l ih =>
    rw [List.filter_cons]
    split_ifs
    · rw [List.map_cons, List.map_cons, List.sum_cons, List.sum_cons]
      omega
    · rw [List.map_cons, List.sum_cons]
      omega

lemma sum_eraseDups_le (f : Bytes → Nat) (l : List Bytes) :
    (l.eraseDups.map f).sum ≤ (l.map f).sum := by
  induction hk : l.length using Nat.strongRecOn generalizing l with
  | ind k ih =>
    rcases l with _ | ⟨a, l⟩
    · exact Nat.le_refl _
    · have hshort : (l.filter fun b => !b == a).length < k := by
        have := List.length_filter_le (fun b => !b == a) l
        rw [List.length_cons] at hk
        omega
      have hle := ih _ hshort _ rfl
      have := sum_filter_le f (fun b => !b == a) l
      rw [List.eraseDups_cons, List.map_cons, List.map_cons, List.sum_cons, List.sum_cons]
      omega

/-- A table takes no more than a zero, and each name with a zero after it. -/
lemma size_ofNames_le (names : List Bytes) :
    (ofNames names).bytes.size ≤ 1 + (names.map (·.size + 1)).sum := by
  have hsum := ((List.mergeSort_perm names.eraseDups fun a b =>
    descending a.toList.reverse b.toList.reverse).map (·.size + 1)).sum_nat
  have hdups := sum_eraseDups_le (·.size + 1) names
  have hall := size_addAll_le (names.eraseDups.mergeSort fun a b =>
    descending a.toList.reverse b.toList.reverse) #[] ⟨#[0], []⟩
  have hone : (#[0] : Bytes).size = 1 := rfl
  rw [hsum] at hall
  dsimp only at hall
  rw [hone] at hall
  change (ofNames names).bytes.size ≤ _ at hall
  omega

end NameTable

end FlashLink
