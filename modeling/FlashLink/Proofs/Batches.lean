import FlashLink.Load.Desk
import FlashLink.Proofs.Symbols

/-!
Relocation tables read in batches. A fold over the batches of a table is a fold over its entries, for
any size of batches: an invariant that holds of the entries seen so far, and that a batch carries on,
holds of all entries in the end. A fold reaches the end only if the source holds the whole table.
-/

namespace FlashLink

open Act

namespace RelocationTable

/-- The entries of a table, in order. -/
def entries (t : RelocationTable) (data : Bytes) : List Relocation :=
  (List.range t.count).map fun i =>
    Relocation.ofBytes (data.slice (t.offset + i * Relocation.width) Relocation.width)

/-- The source holds the whole table. -/
def Held (t : RelocationTable) (src : Source) : Prop :=
  src.Holds t.offset (t.count * Relocation.width)

@[simp] lemma length_entries (t : RelocationTable) (data : Bytes) :
    (t.entries data).length = t.count := by
  simp [entries]

/-- A part of a table that the source does not hold. -/
lemma not_held {t : RelocationTable} {src : Source} {first n : Nat} (hn : first + n ≤ t.count)
    (h : ¬ src.Holds (t.offset + first * Relocation.width) (n * Relocation.width)) :
    ¬ t.Held src := fun ht => h (ht.sub (by rw [← Nat.add_mul]; exact Nat.mul_le_mul_right _ hn))

end RelocationTable

namespace Desk

/-- The desk after more reading: only the batch buffers and the record of reads may differ. -/
structure Reread (d e : Desk) : Prop where
  staging_eq : e.scratch.staging = d.scratch.staging
  raw_size_eq : e.scratch.raw.size = d.scratch.raw.size
  cache_eq : e.linker.cache = d.linker.cache
  same : Source.Same d.linker.source e.linker.source

namespace Reread

variable {d e f : Desk}

lemma refl (d : Desk) : Reread d d := ⟨rfl, rfl, rfl, .refl _⟩

lemma trans (h : Reread d e) (h' : Reread e f) : Reread d f :=
  ⟨h'.1.trans h.1, h'.2.trans h.2, h'.3.trans h.3, h.4.trans h'.4⟩

lemma batchSize_eq (h : Reread d e) : e.scratch.batchSize = d.scratch.batchSize := by
  rw [Scratch.batchSize, Scratch.batchSize, h.raw_size_eq]

lemma ready {c : Scope} {src : Source} (h : Reread d e) (hd : d.linker.Ready c src) :
    e.linker.Ready c src :=
  ⟨hd.same.trans h.same, h.cache_eq ▸ hd.coherent⟩

end Reread

variable {t : RelocationTable} {src : Source} {d : Desk}

/-- A batch that has been read decodes to the entries of its part of the table. -/
lemma decodeBatch_eq {raw data : Bytes} {first n : Nat}
    (h : raw.slice 0 (n * Relocation.width) =
      data.slice (t.offset + first * Relocation.width) (n * Relocation.width))
    (hn : first + n ≤ t.count) :
    decodeBatch raw n = ((t.entries data).drop first).take n := by
  refine List.ext_getElem? fun i => ?_
  rw [decodeBatch, RelocationTable.entries, List.getElem?_take, List.getElem?_drop, List.getElem?_map,
    List.getElem?_map]
  split_ifs with hi
  · have hfit : i * Relocation.width + Relocation.width ≤ n * Relocation.width := by
      rw [← Nat.succ_mul]
      exact Nat.mul_le_mul_right _ hi
    rw [List.getElem?_range hi, List.getElem?_range (by omega), Option.map_some, Option.map_some,
      ← Nat.zero_add (i * Relocation.width), ← Bytes.slice_slice raw hfit, h,
      Bytes.slice_slice data hfit, Nat.add_assoc, ← Nat.add_mul]
  · rw [List.getElem?_eq_none (by simpa using hi)]
    rfl

/-- A batch is the next entries of its table, at least one, or the source does not hold them. -/
lemma readBatch_sat {first : Nat} (hsrc : Source.Same src d.linker.source)
    (hbatch : 0 < d.scratch.batchSize) (hfirst : first < t.count) :
    Sat (readBatch t first) d
      (fun batch e => Reread d e ∧ ∃ n, 0 < n ∧ first + n ≤ t.count ∧
        batch = ((t.entries src.data).drop first).take n ∧
        src.Holds (t.offset + first * Relocation.width) (n * Relocation.width))
      (fun _ _ => ¬ t.Held src) := by
  obtain ⟨⟨staging, raw, batch⟩, source, cache⟩ := d
  unfold readBatch
  refine Sat.get_bind ?_
  set n := min (Scratch.batchSize ⟨staging, raw, batch⟩) (t.count - first) with hn
  have hpos : 0 < n := by simp only at hbatch; omega
  have hcount : first + n ≤ t.count := by omega
  have hraw : 0 + n * Relocation.width ≤ raw.size := by
    have h1 : n ≤ raw.size / Relocation.width := Nat.min_le_left ..
    have h2 := Nat.mul_le_mul_right Relocation.width h1
    have h3 := Nat.div_mul_le_self raw.size Relocation.width
    omega
  refine Sat.bind (P := fun _ e => ∃ source', Source.Same source source' ∧
      e = ⟨⟨staging, raw.overwrite 0 (src.data.slice (t.offset + first * Relocation.width)
        (n * Relocation.width)), batch⟩, source', cache⟩ ∧
      src.Holds (t.offset + first * Relocation.width) (n * Relocation.width))
    (G := fun _ _ => ¬ t.Held src) ?_ ?_ fun _ _ h => h
  · rw [sat_zoom]
    refine (Source.readInto_sat 0 _ _ raw source).mono ?_ ?_
    · rintro _ ⟨raw', source'⟩ ⟨hfetch, hraw', hsame⟩
      have hholds := hsrc.holds_iff.1 (Source.fetch_eq_ok hfetch).2.2
      rw [hsrc.data_eq] at hraw'
      subst hraw'
      exact ⟨source', hsame, rfl, hholds⟩
    · rintro e _ ⟨hfetch, -⟩
      refine RelocationTable.not_held hcount fun hholds => ?_
      have hlen : 0 < n * Relocation.width := Nat.mul_pos hpos (by decide)
      obtain ⟨b, hb⟩ := (Source.fetch_ok_iff hlen).2 (hsrc.holds_iff.2 hholds hlen)
      rw [hb] at hfetch
      cases hfetch
  · rintro _ _ ⟨source', hsame, rfl, hholds⟩
    refine Sat.modify_bind (Sat.get_bind ?_)
    refine ⟨⟨rfl, by simp, rfl, hsame⟩, n, hpos, hcount, ?_, hholds⟩
    refine decodeBatch_eq (Bytes.slice_overwrite ?_ hraw) hcount
    exact Bytes.size_slice_of_le (hholds (Nat.mul_pos hpos (by decide)))

variable (src) in
/-- **Folding over batches.** `Inv` tells of the entries seen so far, the value and the desk; `Bad`
has to follow where a batch cannot be read or an action fails. -/
lemma foldBatches_sat {β : Type} {init : β} {f : β → List Relocation → Act Desk β}
    (Inv : List Relocation → β → Desk → Prop) {Bad : Prop}
    (hinv : ∀ seen b e, Inv seen b e → 0 < e.scratch.batchSize ∧ Source.Same src e.linker.source)
    (hread : ∀ seen b e e', Inv seen b e → Reread e e' → Inv seen b e')
    (hbad : ¬ t.Held src → Bad)
    (hstep : ∀ seen batch b e, Inv seen b e → seen ++ batch <+: t.entries src.data →
      Sat (f b batch) e (fun b' e' => Inv (seen ++ batch) b' e') fun _ _ => Bad)
    (hinit : Inv [] init d) :
    Sat (foldBatches t init f) d (fun b e => Inv (t.entries src.data) b e ∧ t.Held src)
      fun _ _ => Bad := by
  have hfold : ∀ (fuel first : Nat) (b : β) (e : Desk), first ≤ t.count → t.count ≤ first + fuel →
      Inv ((t.entries src.data).take first) b e →
      src.Holds t.offset (first * Relocation.width) →
      Sat (foldFrom t f fuel first b) e (fun b e => Inv (t.entries src.data) b e ∧ t.Held src)
        fun _ _ => Bad := by
    intro fuel
    induction fuel with
    | zero =>
      intro first b e h1 h2 hb hholds
      have hend : first = t.count := by omega
      subst hend
      rw [List.take_of_length_le (by simp)] at hb
      exact ⟨hb, hholds⟩
    | succ fuel ih =>
      intro first b e h1 h2 hb hholds
      unfold foldFrom
      split_ifs with hend
      · have hend : first = t.count := by omega
        subst hend
        rw [List.take_of_length_le (by simp)] at hb
        exact ⟨hb, hholds⟩
      · obtain ⟨hbatch, hsrc⟩ := hinv _ _ _ hb
        refine Sat.bind (readBatch_sat hsrc hbatch (by omega)) ?_ fun _ _ h => hbad h
        rintro batch e' ⟨hre, n, hpos, hn, rfl, hpart⟩
        have htake : (t.entries src.data).take first ++ ((t.entries src.data).drop first).take n =
            (t.entries src.data).take (first + n) := List.take_add.symm
        have hlen : (((t.entries src.data).drop first).take n).length = n := by simp; omega
        refine Sat.bind (hstep _ _ _ _ (hread _ _ _ _ hb hre) (htake ▸ List.take_prefix ..)) ?_
          fun _ _ h => h
        intro b' e'' hb'
        rw [htake] at hb'
        rw [hlen]
        refine ih (first + n) b' e'' hn (by omega) hb' fun _ => ?_
        have := hpart (Nat.mul_pos hpos (by decide))
        rw [Nat.add_mul]
        omega
  exact hfold t.count 0 init d (by omega) (by omega) (by simpa using hinit) fun h => by omega

/-! ### Checking fields -/

/-- The check passes exactly if the source holds the table and every field lies in the section. -/
lemma checkFields_sat {size : Nat} (hsrc : Source.Same src d.linker.source)
    (hbatch : 0 < d.scratch.batchSize) :
    Sat (checkFields t size) d
      (fun _ e => Reread d e ∧ t.Held src ∧ ∀ r ∈ t.entries src.data, r.stop ≤ size)
      (fun _ _ => ¬ (t.Held src ∧ ∀ r ∈ t.entries src.data, r.stop ≤ size)) := by
  refine (foldBatches_sat src
    (fun seen _ e => Reread d e ∧ ∀ r ∈ seen, r.stop ≤ size) ?_ ?_ ?_ ?_ ?_).mono
    (fun _ _ h => ⟨h.1.1, h.2, h.1.2⟩) fun _ _ h => h
  · rintro seen b e ⟨he, -⟩
    exact ⟨he.batchSize_eq ▸ hbatch, hsrc.trans he.same⟩
  · rintro seen b e e' ⟨he, hseen⟩ hre
    exact ⟨he.trans hre, hseen⟩
  · exact fun h h' => h h'.1
  · rintro seen batch b e ⟨he, hseen⟩ hprefix
    split
    · -- a field that lies outside
      rename_i r hf
      have hmem := hprefix.subset (List.mem_append_right _ (List.mem_of_find?_eq_some hf))
      have hout := List.find?_some hf
      simp only [decide_eq_true_eq] at hout
      refine sat_throw.2 fun h => ?_
      have := h.2 r hmem
      omega
    · rename_i hf
      refine sat_pure.2 ⟨he, fun r hr => ?_⟩
      rcases List.mem_append.1 hr with h | h
      · exact hseen r h
      · simpa using List.find?_eq_none.1 hf r h
  · exact ⟨.refl d, fun r hr => by cases hr⟩

end Desk

end FlashLink
