import FlashLink.Proofs.Copying
import Mathlib.Data.Finset.Card

/-!
How far a residency pass has come.

Every word of the variables has a goal: where the copies that it has been compared with put the address
that it held at first. The pass redirects exactly the words with a goal, each to the one trampoline that
was made for its goal, and leaves all else of the pool alone. A trampoline lies in internal flash, so a
redirected word is never taken for a pointer again, though the words are gone through once for every
section.
-/

namespace FlashLink

open Act

/-- The section is to be made resident. -/
def PlacedSection.isTagged (s : PlacedSection) : Bool := s.name == residentSection && s.cls == .text

namespace Image

/-- The sections that are to be made resident. -/
def tagged (i : Image) : List PlacedSection := i.sections.filter (·.isTagged)

/-- Those among the first `n` sections. -/
def taggedBefore (i : Image) (n : Nat) : List PlacedSection := (i.sections.take n).filter (·.isTagged)

/-- How many whole words the variables have. -/
def words (i : Image) : Nat := (i.data.map fun b => b.len / 4).getD 0

/-- Where in the pool a word of the variables is. -/
def slot (i : Image) (k : Nat) : Nat := (i.data.map (·.offset)).getD 0 + 4 * k

/-- A word of the variables. -/
def word (i : Image) (c : Context) (k : Nat) : UInt32 := c.pool.mem.u32 (i.slot k)

variable {i : Image} {n index : Nat}

lemma slot_eq {b : RamBlock} (hb : i.data = some b) (k : Nat) : i.slot k = b.offset + 4 * k := by
  rw [slot, hb]
  rfl

lemma words_eq {b : RamBlock} (hb : i.data = some b) : i.words = b.len / 4 := by
  rw [words, hb]
  rfl

section

variable {b : RamBlock} {c c' : Context} {k : Nat} {v : UInt32}

/-- A word of the variables, in the block that holds them. -/
lemma u32_block (hb : i.data = some b) (hk : k < i.words) : (c.pool.bytes b).u32 (4 * k) = i.word c k := by
  rw [words_eq hb] at hk
  rw [word, slot_eq hb]
  exact Bytes.u32_of_slice _ (by omega)

/-- A word that is written. -/
lemma word_overwritten (hb : i.data = some b) (hk : k < i.words)
    (hfits : b.offset + b.len ≤ c.pool.mem.size)
    (hmem : c'.pool.mem = c.pool.mem.overwrite (b.offset + 4 * k) (Bytes.ofU32 v)) :
    i.word c' k = v := by
  rw [words_eq hb] at hk
  rw [word, hmem, slot_eq hb, ← Bytes.u32_slice,
    Bytes.slice_overwrite (Bytes.size_ofU32 _) (by omega), Bytes.u32_ofU32]

/-- Another word is written. -/
lemma word_of_ne (hb : i.data = some b)
    (hmem : c'.pool.mem = c.pool.mem.overwrite (b.offset + 4 * k) (Bytes.ofU32 v)) {j : Nat}
    (hj : j ≠ k) : i.word c' j = i.word c j := by
  have hsame : Bytes.SameOn (fun a => a < b.offset + 4 * k ∨ b.offset + 4 * k + 4 ≤ a) c.pool.mem
      c'.pool.mem := hmem ▸ Bytes.sameOn_overwrite _ fun _ ha => ha
  refine (hsame.u32_eq fun a h1 h2 => ?_).symm
  rw [slot_eq hb] at h1 h2
  omega

end

lemma taggedBefore_length : i.taggedBefore i.sections.length = i.tagged := by
  rw [taggedBefore, List.take_length, tagged]

lemma mem_taggedBefore {q : PlacedSection} (h : q ∈ i.taggedBefore n) :
    q ∈ i.sections ∧ q.cls.isFlash := by
  obtain ⟨hq, htagged⟩ := List.mem_filter.1 h
  rw [PlacedSection.isTagged, Bool.and_eq_true, beq_iff_eq, beq_iff_eq] at htagged
  exact ⟨List.mem_of_mem_take hq, by rw [htagged.2]; rfl⟩

/-- No tagged section is skipped. -/
lemma nextTagged_some (h : Patcher.nextTagged? i n = some index) :
    n ≤ index ∧ i.taggedBefore index = i.taggedBefore n ∧
      ∃ q, i.sections[index]? = some q ∧ i.taggedBefore (index + 1) = i.taggedBefore index ++ [q] := by
  change ((i.sections.drop n).findIdx? (·.isTagged)).map (n + ·) = some index at h
  obtain ⟨j, hj, rfl⟩ := Option.map_eq_some_iff.1 h
  obtain ⟨hlt, htagged, hnone⟩ := List.findIdx?_eq_some_iff_getElem.1 hj
  rw [List.length_drop] at hlt
  have hlt' : n + j < i.sections.length := by omega
  rw [List.getElem_drop] at htagged
  refine ⟨Nat.le_add_right _ _, ?_, i.sections[n + j], List.getElem?_eq_getElem hlt', ?_⟩
  · have hskipped : ((i.sections.drop n).take j).filter (·.isTagged) = [] := by
      refine List.filter_eq_nil_iff.2 fun q hq => ?_
      obtain ⟨k, hk, rfl⟩ := List.mem_iff_getElem.1 hq
      rw [List.getElem_take]
      exact hnone k (by rw [List.length_take] at hk; omega)
    rw [taggedBefore, List.take_add, List.filter_append, hskipped, List.append_nil, taggedBefore]
  · rw [taggedBefore, List.take_add_one, List.getElem?_eq_getElem hlt', Option.toList_some,
      List.filter_append, List.filter_cons_of_pos htagged, List.filter_nil, taggedBefore]

lemma nextTagged_none (h : Patcher.nextTagged? i n = none) : i.taggedBefore n = i.tagged := by
  change ((i.sections.drop n).findIdx? (·.isTagged)).map (n + ·) = none at h
  have hnone := List.findIdx?_eq_none_iff.1 (Option.map_eq_none_iff.1 h)
  have hskipped : (i.sections.drop n).filter (·.isTagged) = [] :=
    List.filter_eq_nil_iff.2 fun q hq => Bool.eq_false_iff.1 (hnone q hq)
  have hsplit := congrArg (List.filter (·.isTagged)) (List.take_append_drop n i.sections)
  rwa [List.filter_append, hskipped, List.append_nil] at hsplit

end Image

/-- Execute-in-place flash and internal flash are regular partitions of the address space that have no
address in common. -/
structure Context.Regular (c : Context) : Prop where
  xip : c.xip.partition.Regular
  iflash : c.iflash.partition.Regular
  apart : ∀ a, c.xip.contains a → ¬ c.iflash.contains a

lemma Context.Regular.congr {c c' : Context} (h : c.Regular) (hc : c.SameBoard c') : c'.Regular := by
  refine ⟨hc.xip_partition ▸ h.xip, hc.iflash_partition ▸ h.iflash, fun a => ?_⟩
  rw [Region.contains_eq, Region.contains_eq, hc.xip_partition, hc.iflash_partition,
    ← Region.contains_eq, ← Region.contains_eq]
  exact h.apart a

namespace Patcher

variable {κ : Type} {s : State κ} {c c' : Context} {image : Image}

/-! ### Searching -/

lemma findWord_none {t : PatchTarget} {data : Bytes} {left i : Nat}
    (h : findWord t data left i = none) {k : Nat} (h1 : i ≤ k) (h2 : k < i + left) :
    t.redirect? (data.u32 (4 * k)) = none := by
  induction left generalizing i with
  | zero => omega
  | succ left ih =>
    unfold findWord at h
    dsimp only at h
    split at h
    · cases h
    · rename_i hword
      rcases Nat.eq_or_lt_of_le h1 with rfl | hlt
      · exact hword
      · exact ih h hlt (by omega)

lemma findWord_some {t : PatchTarget} {data : Bytes} {left i j : Nat} {word : UInt32} {target : Addr}
    (h : findWord t data left i = some (j, word, target)) :
    word = data.u32 (4 * j) ∧ t.redirect? word = some target ∧
      ∀ k, i ≤ k → k < j → t.redirect? (data.u32 (4 * k)) = none := by
  induction left generalizing i with
  | zero => cases h
  | succ left ih =>
    unfold findWord at h
    dsimp only at h
    split at h
    · rename_i hword
      cases h
      exact ⟨rfl, hword, fun k h1 h2 => by omega⟩
    · rename_i hword
      obtain ⟨h1, h2, h3⟩ := ih h
      refine ⟨h1, h2, fun k hk hlt => ?_⟩
      rcases Nat.eq_or_lt_of_le hk with rfl | hlt'
      · exact hword
      · exact h3 k hlt' hlt

section

variable {t : PatchTarget} {b : RamBlock} {cursor : Nat}

/-- No word of the variables is an address in the section, from the cursor on. -/
lemma findWord_no_word (hb : image.data = some b)
    (hfind : findWord t (c.pool.bytes b) (b.len / 4 - cursor) cursor = none) {k : Nat}
    (hk : k < image.words) (hle : cursor ≤ k) : t.redirect? (image.word c k) = none := by
  have hwords := Image.words_eq hb
  rw [← Image.u32_block hb hk]
  exact findWord_none hfind hle (by omega)

/-- The word that is found is the first one of the variables, from the cursor on. -/
lemma findWord_word {i : Nat} {word : UInt32} {found : Addr} (hb : image.data = some b)
    (hfind : findWord t (c.pool.bytes b) (b.len / 4 - cursor) cursor = some (i, word, found)) :
    cursor ≤ i ∧ i < image.words ∧ t.redirect? (image.word c i) = some found ∧
      ∀ k, cursor ≤ k → k < i → t.redirect? (image.word c k) = none := by
  have hwords := Image.words_eq hb
  have hin := findWord_lt hfind
  have hi : i < image.words := by omega
  obtain ⟨hword, hfound, hskipped⟩ := findWord_some hfind
  refine ⟨hin.1, hi, ?_, fun k hle hlt => ?_⟩
  · rw [← Image.u32_block hb hi, ← hword]
    exact hfound
  · rw [← Image.u32_block hb (Nat.lt_trans hlt hi)]
    exact hskipped k hle hlt

end

/-! ### Trampolines -/

/-- The trampolines made so far, one for each target. -/
structure Memo (base : Addr) (s : State κ) : Prop where
  records : ∀ target addr, s.patcher.made.lookup target = some addr →
    ∃ offset, RecordOf s.context target base addr offset
  nodup : (s.patcher.made.map (·.1)).Nodup
  count : s.patcher.report.trampolines = s.patcher.made.length

lemma lookup_isSome {target : Addr} {made : List (Addr × Addr)} :
    (made.lookup target).isSome ↔ target ∈ made.map (·.1) := by
  induction made with
  | nil => simp
  | cons m made ih =>
    rw [List.lookup_cons, List.map_cons, List.mem_cons, ← ih]
    rcases hm : target == m.1
    · simp [beq_eq_false_iff_ne.1 hm]
    · simp [beq_iff_eq.1 hm]

/-- There is a trampoline to the target now, and all others are as they were. -/
structure Led (target addr : Addr) (s s' : State κ) : Prop where
  found : s'.patcher.made.lookup target = some addr
  stays : ∀ t a, s.patcher.made.lookup t = some a → s'.patcher.made.lookup t = some a
  others : ∀ t ≠ target, s'.patcher.made.lookup t = s.patcher.made.lookup t
  image_eq : s'.patcher.image = s.patcher.image
  copies_eq : s'.patcher.report.copies = s.patcher.report.copies
  patched_eq : s'.patcher.report.pointersPatched = s.patcher.report.pointersPatched
  pool_eq : s'.context.pool = s.context.pool

lemma trampolineTo_memo {base : Addr} (hready : s.context.Ready) (h : Memo base s) (target : Addr) :
    Sat (trampolineTo target base) s
      (fun addr s' => Memo base s' ∧ Context.Extended (fun _ => False) s.context s'.context ∧
        Led target addr s s')
      fun _ _ => True := by
  refine trampolineTo_rule (fun addr hlookup => ?made) fun hlookup => ?new
  case new =>
    refine (emit_records hready target base).mono ?_ fun _ _ _ => trivial
    rintro addr c' ⟨hextended, heq, hrecord⟩
    have hpool : c'.pool = s.context.pool := by rw [heq]
    have hothers : ∀ t ≠ target, ((target, addr) :: s.patcher.made).lookup t =
        s.patcher.made.lookup t := fun t ht => by
      rw [List.lookup_cons, beq_eq_false_iff_ne.2 ht]
    have hfound : ((target, addr) :: s.patcher.made).lookup target = some addr := List.lookup_cons_self
    refine ⟨⟨fun t a ht => ?_, ?_, ?_⟩, hextended,
      ⟨hfound, fun t a ht => ?_, hothers, rfl, rfl, rfl, hpool⟩⟩
    · dsimp only at ht
      by_cases heq : t = target
      · rw [heq, hfound] at ht
        cases ht
        exact heq ▸ hrecord
      · rw [hothers t heq] at ht
        obtain ⟨offset, hold⟩ := h.records t a ht
        exact ⟨offset, hold.extended hextended⟩
    · refine List.nodup_cons.2 ⟨fun hmem => ?_, h.nodup⟩
      rw [← lookup_isSome, hlookup] at hmem
      cases hmem
    · dsimp only
      rw [h.count, List.length_cons]
    · dsimp only
      have hne : t ≠ target := by
        rintro rfl
        rw [hlookup] at ht
        cases ht
      rw [hothers t hne, ht]
  case made => exact ⟨h, .refl _ _, hlookup, fun _ _ ht => ht, fun _ _ => rfl, rfl, rfl, rfl, rfl⟩

/-! ### Words -/

/-- The words with a goal have been redirected, and nothing else of the pool has changed. -/
structure Redirected (image : Image) (c : Context) (goal : Nat → Option Addr) (s : State κ) : Prop where
  made : ∀ target, (s.patcher.made.lookup target).isSome ↔ ∃ k < image.words, goal k = some target
  patched : ∀ k < image.words, ∀ target, goal k = some target →
    s.patcher.made.lookup target = some (image.word s.context k)
  kept : Bytes.SameOn (fun i => ∀ k < image.words, (goal k).isSome →
    i < image.slot k ∨ image.slot k + 4 ≤ i) c.pool.mem s.context.pool.mem
  count : s.patcher.report.pointersPatched =
    {k ∈ Finset.range image.words | (goal k).isSome}.card

namespace Redirected

variable {goal goal' : Nat → Option Addr} {k : Nat}

lemma congr (h : Redirected image c goal s) (hgoal : ∀ k < image.words, goal' k = goal k) :
    Redirected image c goal' s := by
  refine ⟨fun target => ?_, fun k hk target ht => h.patched k hk target (hgoal k hk ▸ ht),
    h.kept.mono fun i hi k hk hsome => hi k hk (hgoal k hk ▸ hsome), ?_⟩
  · rw [h.made]
    exact exists_congr fun k => and_congr_right fun hk => by rw [hgoal k hk]
  · rw [h.count]
    exact congrArg Finset.card (Finset.filter_congr fun k hk => by
      rw [hgoal k (Finset.mem_range.1 hk)])

/-- A word without a goal is as it was. -/
lemma word_eq (h : Redirected image c goal s) (hnone : goal k = none) :
    image.word s.context k = image.word c k := by
  refine (h.kept.u32_eq fun i h1 h2 j _ hsome => ?_).symm
  have hne : j ≠ k := by
    rintro rfl
    rw [hnone] at hsome
    cases hsome
  unfold Image.slot at h1 h2 ⊢
  omega

/-- One more word has a goal. -/
lemma card_goals {n : Nat} (hk : k < n) (hnone : goal k = none)
    (hsome : ∀ j < n, (goal' j).isSome ↔ j = k ∨ (goal j).isSome) :
    {j ∈ Finset.range n | (goal' j).isSome}.card =
      {j ∈ Finset.range n | (goal j).isSome}.card + 1 := by
  have hinsert : {j ∈ Finset.range n | (goal' j).isSome} =
      Insert.insert k {j ∈ Finset.range n | (goal j).isSome} := by
    ext j
    rw [Finset.mem_insert, Finset.mem_filter, Finset.mem_filter, Finset.mem_range]
    constructor
    · exact fun ⟨hj, hj'⟩ => ((hsome j hj).1 hj').imp_right fun h => ⟨hj, h⟩
    · rintro (rfl | ⟨hj, hj'⟩)
      · exact ⟨hk, (hsome j hk).2 (.inl rfl)⟩
      · exact ⟨hj, (hsome j hj).2 (.inr hj')⟩
  rw [hinsert, Finset.card_insert_of_notMem]
  rw [Finset.mem_filter, hnone]
  simp

/-- One more word is redirected. -/
lemma insert {s' s'' : State κ} {target addr : Addr} {b : RamBlock} (h : Redirected image c goal s)
    (hled : Led target addr s s') (hb : image.data = some b)
    (hfits : b.offset + b.len ≤ c.pool.capacity) (hk : k < image.words) (hnone : goal k = none)
    (hgoal : goal' k = some target) (hothers : ∀ j < image.words, j ≠ k → goal' j = goal j)
    (hmade : s''.patcher.made = s'.patcher.made)
    (hmem : s''.context.pool.mem = s'.context.pool.mem.overwrite (b.offset + 4 * k) (Bytes.ofU32 addr))
    (hpatched : s''.patcher.report.pointersPatched = s'.patcher.report.pointersPatched + 1) :
    Redirected image c goal' s'' := by
  rw [hled.pool_eq] at hmem
  have hfits' : b.offset + b.len ≤ s.context.pool.mem.size := h.kept.size_eq ▸ hfits
  have hsome : ∀ j < image.words, (goal' j).isSome ↔ j = k ∨ (goal j).isSome := by
    intro j hj
    by_cases hjk : j = k
    · simp [hjk, hgoal]
    · simp [hjk, hothers j hj hjk]
  refine ⟨fun t => ?_, fun j hj t ht => ?_, ?_, ?_⟩
  · rw [hmade]
    by_cases ht : t = target
    · rw [ht, hled.found]
      exact iff_of_true rfl ⟨k, hk, hgoal⟩
    · rw [hled.others t ht, h.made]
      refine exists_congr fun j => and_congr_right fun hj => ?_
      by_cases hjk : j = k
      · rw [hjk, hnone, hgoal]
        exact iff_of_false (by simp) fun heq => ht (Option.some.inj heq).symm
      · rw [hothers j hj hjk]
  · rw [hmade]
    by_cases hjk : j = k
    · rw [hjk, hgoal] at ht
      rw [hjk, Image.word_overwritten hb hk hfits' hmem, ← Option.some.inj ht, hled.found]
    · rw [hothers j hj hjk] at ht
      rw [Image.word_of_ne hb hmem hjk]
      exact hled.stays _ _ (h.patched j hj t ht)
  · have hbefore := h.kept.mono (J := fun i => ∀ j < image.words, (goal' j).isSome →
      i < image.slot j ∨ image.slot j + 4 ≤ i) fun i hi j hj hj' => hi j hj ((hsome j hj).2 (.inr hj'))
    refine hbefore.trans ?_
    rw [hmem]
    refine Bytes.sameOn_overwrite _ fun i hi => ?_
    rw [← Image.slot_eq hb]
    exact hi k hk ((hsome k hk).2 (.inl rfl))
  · rw [hpatched, hled.patched_eq, h.count, card_goals hk hnone hsome]

end Redirected

end Patcher

end FlashLink
