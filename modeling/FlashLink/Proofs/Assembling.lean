import FlashLink.Proofs.Encodings
import FlashLink.Proofs.Writing

/-!
Programs as the assembler lays them out: the statements one after another, and then the pool. Finishing changes
nothing of the statements but the lower byte of the loads from the pool, and each of them counts the words to a
constant that comes after it. A program is refused exactly if one of them is to count more than 255.
-/

namespace FlashLink

namespace Bytes

/-- Halfwords, one after another. -/
def ofHalfwords (hws : List UInt16) : Bytes := joined (hws.map ofU16)

lemma size_ofHalfwords (hws : List UInt16) : (ofHalfwords hws).size = hws.length * 2 := by
  rw [ofHalfwords, size_joined (w := 2), List.length_map]
  intro p hp
  obtain ⟨v, -, rfl⟩ := List.mem_map.1 hp
  rfl

lemma ofHalfwords_one (hw : UInt16) : ofHalfwords [hw] = ofU16 hw := Array.append_empty ..

lemma hasAt_of_get {b part : Bytes} {offset : Nat} (h : ∀ i < part.size, b[offset + i]? = part[i]?) :
    b.HasAt offset part := by
  refine ext_get fun i => ?_
  rw [getElem?_slice]
  split_ifs with hi
  · exact h i hi
  · exact (Array.getElem?_eq_none (Nat.le_of_not_lt hi)).symm

lemma HasAt.get_eq {b part : Bytes} {offset i : Nat} (h : b.HasAt offset part) (hi : i < part.size) :
    b[offset + i]? = part[i]? := by
  have hget : (b.slice offset part.size)[i]? = part[i]? := congrArg (fun d : Bytes => d[i]?) h
  rwa [getElem?_slice, if_pos hi] at hget

/-- What has the same bytes in a place has the same part there. -/
lemma HasAt.congr {b d part : Bytes} {offset : Nat} (h : b.HasAt offset part)
    (hd : ∀ i, offset ≤ i → i < offset + part.size → d[i]? = b[i]?) : d.HasAt offset part := by
  refine Eq.trans (ext_get fun i => ?_) h
  rw [getElem?_slice, getElem?_slice]
  split_ifs with hi
  · exact hd _ (Nat.le_add_right ..) (by omega)
  · rfl

end Bytes

namespace Statement

/-- The constant that a statement puts in the pool, and the offset of the statement. -/
def literals (here : Nat) : Statement → List (Nat × UInt32)
  | ldrLiteral _ value => [(here, value)]
  | _ => []

/-- A statement loads from the pool, or its halfwords do not depend on where a constant is. -/
lemma load_or (s : Statement) : (∃ rt value, s = ldrLiteral rt value) ∨
    ∀ here, s.literals here = [] ∧ ∀ words, s.finished here words = s.finished here 0 := by
  cases s with
  | ldrLiteral rt value => exact .inl ⟨rt, value, rfl⟩
  | _ => exact .inr fun _ => ⟨rfl, fun _ => rfl⟩

end Statement

namespace Assembler

open Statement

variable {a b : Assembler} {s : Statement} {ss : List Statement}

/-! ### Statements -/

lemma put_all (a : Assembler) (hws : List UInt16) :
    hws.foldl put a = { a with code := a.code ++ Bytes.ofHalfwords hws } := by
  induction hws generalizing a with
  | nil => exact congrArg (Assembler.mk · a.literals) (Array.append_empty ..).symm
  | cons hw hws ih =>
    rw [List.foldl_cons, ih, Bytes.ofHalfwords, Bytes.ofHalfwords, List.map_cons, Bytes.joined,
      ← Array.append_assoc]
    rfl

/-- A statement adds its halfwords to the code and its constant to the others. -/
lemma emit_eq (a : Assembler) (s : Statement) :
    a.emit s = ⟨a.code ++ Bytes.ofHalfwords (s.finished a.here 0), a.literals ++ s.literals a.here⟩ := by
  cases s with
  | align =>
    unfold emit alignWord finished Statement.literals
    dsimp only
    split_ifs with h
    · exact (put_all a [0xbf00]).trans (by rw [List.append_nil])
    · rw [List.append_nil]
      exact put_all a []
  | ldrLiteral rt value =>
    have hzero : (ldrLiteral rt value).finished a.here 0 = (ldrLiteral rt value).halfwords :=
      congrArg (fun hw => [hw]) UInt16.or_zero
    unfold emit
    dsimp only
    rw [hzero, put_all]
    rfl
  | _ => exact (put_all a _).trans (congrArg (Assembler.mk _) (List.append_nil _).symm)

lemma here_emit (a : Assembler) (s : Statement) :
    (a.emit s).here = a.here + (s.finished a.here 0).length * 2 := by
  rw [emit_eq, here, here, Array.size_append, Bytes.size_ofHalfwords]

lemma literals_emit (a : Assembler) (s : Statement) : (a.emit s).literals = a.literals ++ s.literals a.here := by
  rw [emit_eq]

/-! ### Programs -/

/-- Statements begin at halfwords, and constants are loaded by different ones. -/
structure Sound (a : Assembler) : Prop where
  even : a.here % 2 = 0
  loads : ∀ q ∈ a.literals, q.1 % 2 = 0 ∧ q.1 + 2 ≤ a.here
  apart : (a.literals.map (·.1)).Nodup

lemma sound_empty : Sound empty := ⟨rfl, nofun, .nil⟩

lemma Sound.emit (h : a.Sound) (s : Statement) : (a.emit s).Sound := by
  have hhere := here_emit a s
  have heven := h.even
  refine ⟨by omega, ?_, ?_⟩
  · intro q hq
    rw [literals_emit, List.mem_append] at hq
    rcases hq with hq | hq
    · have hload := h.loads q hq
      omega
    · cases s <;> simp only [Statement.literals, List.not_mem_nil, List.mem_singleton] at hq
      subst hq
      exact ⟨heven, Nat.le_of_eq hhere.symm⟩
  · rw [literals_emit, List.map_append]
    cases s <;> try exact (List.append_nil _).symm ▸ h.apart
    -- no constant before is loaded from here
    refine List.nodup_append.2 ⟨h.apart, List.pairwise_singleton .., ?_⟩
    rintro i hi j hj rfl
    obtain ⟨q, hq, rfl⟩ := List.mem_map.1 hi
    have hload := (h.loads q hq).2
    rw [List.mem_singleton.1 hj] at hload
    dsimp only at hload
    omega

lemma sound_foldl (h : a.Sound) (ss : List Statement) : (ss.foldl Assembler.emit a).Sound := by
  induction ss generalizing a with
  | nil => exact h
  | cons s ss ih => exact ih (h.emit s)

lemma sound_ofStatements (ss : List Statement) : (ofStatements ss).Sound := sound_foldl sound_empty ss

/-- The first program begins the second one. -/
structure Begins (a b : Assembler) : Prop where
  code : a.code.Begins b.code
  literals : ∃ l, b.literals = a.literals ++ l ∧ ∀ q ∈ l, a.here ≤ q.1

lemma Begins.refl (a : Assembler) : Begins a a := ⟨.refl _, [], (List.append_nil _).symm, nofun⟩

lemma Begins.trans {c : Assembler} (h : Begins a b) (h' : Begins b c) : Begins a c := by
  obtain ⟨hcode, l, hl, hle⟩ := h
  obtain ⟨hcode', l', hl', hle'⟩ := h'
  refine ⟨hcode.trans hcode', l ++ l', by rw [hl', hl, List.append_assoc], ?_⟩
  intro q hq
  rcases List.mem_append.1 hq with hq | hq
  · exact hle q hq
  · exact Nat.le_trans hcode.size_le (hle' q hq)

lemma begins_emit (a : Assembler) (s : Statement) : Begins a (a.emit s) := by
  refine ⟨by rw [emit_eq]; exact Bytes.begins_append _ _, _, literals_emit a s, ?_⟩
  intro q hq
  cases s <;> simp only [Statement.literals, List.not_mem_nil, List.mem_singleton] at hq
  exact hq ▸ Nat.le_refl _

lemma begins_foldl (a : Assembler) (ss : List Statement) : Begins a (ss.foldl Assembler.emit a) := by
  induction ss generalizing a with
  | nil => exact .refl a
  | cons s ss ih => exact (begins_emit a s).trans (ih _)

/-! ### The pool -/

/-- The finished code is `code` with its pool. Only the lower bytes of the loads have changed, and each of them is
told how many words away its constant is. -/
structure Pooled (literals : List (Nat × UInt32)) (code : Bytes) (out : Assembled) : Prop where
  kept : ∀ i < code.size, i ∉ literals.map (·.1) → out.code[i]? = code[i]?
  linked : ∀ k insn value, literals[k]? = some (insn, value) →
    out.literals[k]? = some (code.size + 4 * k) ∧ literalDistance insn (code.size + 4 * k) ≤ 255 ∧
      out.code[insn]? = code[insn]?.map (· ||| UInt8.ofNat (literalDistance insn (code.size + 4 * k))) ∧
      out.code.HasAt (code.size + 4 * k) (Bytes.ofU32 value)

/-- The code with one more constant. -/
def pooled (insn : Nat) (value : UInt32) (code : Bytes) : Bytes :=
  (code.modify insn fun b => b ||| UInt8.ofNat (literalDistance insn code.size)) ++ Bytes.ofU32 value

lemma size_pooled (insn : Nat) (value : UInt32) (code : Bytes) : (pooled insn value code).size = code.size + 4 := by
  rw [pooled, Array.size_append, Array.size_modify, Bytes.size_ofU32]

lemma getElem?_pooled {insn i : Nat} {value : UInt32} {code : Bytes} (hi : i < code.size) :
    (pooled insn value code)[i]? = if insn = i then
      code[i]?.map (· ||| UInt8.ofNat (literalDistance insn code.size)) else code[i]? := by
  rw [pooled, Array.getElem?_append_left (by rwa [Array.size_modify]), Array.getElem?_modify]

lemma addLiterals_cons (insn : Nat) (value : UInt32) (rest : List (Nat × UInt32)) (code : Bytes) :
    addLiterals ((insn, value) :: rest) code =
      if 255 < literalDistance insn code.size then none
      else (addLiterals rest (pooled insn value code)).map fun out =>
        { out with literals := code.size :: out.literals } := rfl

lemma addLiterals_pooled {literals : List (Nat × UInt32)} {code : Bytes} {out : Assembled}
    (h : addLiterals literals code = some out) (hin : ∀ q ∈ literals, q.1 < code.size)
    (hapart : (literals.map (·.1)).Nodup) : Pooled literals code out := by
  induction literals generalizing code out with
  | nil =>
    cases h
    exact ⟨fun _ _ _ => rfl, nofun⟩
  | cons q rest ih =>
    obtain ⟨insn, value⟩ := q
    obtain ⟨hinsn, hrest⟩ := List.forall_mem_cons.1 hin
    obtain ⟨hfirst, hapart⟩ := List.nodup_cons.1 hapart
    rw [addLiterals_cons] at h
    split_ifs at h with hfar
    obtain ⟨out, hout, rfl⟩ := Option.map_eq_some_iff.1 h
    have hsize := size_pooled insn value code
    obtain ⟨hkept, hlinked⟩ := ih hout (fun q hq => by have := hrest q hq; omega) hapart
    refine ⟨fun i hi hnot => ?_, fun k insn' value' hk => ?_⟩
    · rw [List.map_cons, List.mem_cons, not_or] at hnot
      rw [hkept i (by omega) hnot.2, getElem?_pooled hi, if_neg fun heq => hnot.1 heq.symm]
    rcases k with _ | k
    · -- what is told to the first load stays, and its constant does
      obtain ⟨rfl, rfl⟩ := Prod.mk.inj (Option.some.inj hk)
      refine ⟨rfl, Nat.le_of_not_lt hfar, ?_, ?_⟩
      · rw [hkept insn (by omega) hfirst, getElem?_pooled hinsn, if_pos rfl]
        rfl
      · have hhere : (pooled insn value code).HasAt code.size (Bytes.ofU32 value) := by
          have happend := Bytes.hasAt_append (code.modify insn fun b =>
            b ||| UInt8.ofNat (literalDistance insn code.size)) (Bytes.ofU32 value)
          rwa [Array.size_modify] at happend
        refine hhere.congr fun i hle hlt => hkept i (by rw [hsize]; exact hlt) fun hmem => ?_
        obtain ⟨q, hq, rfl⟩ := List.mem_map.1 hmem
        have hbefore := hrest q hq
        omega
    · obtain ⟨hoffset, hnear, hbyte, hword⟩ := hlinked k insn' value' hk
      have hmem : (insn', value') ∈ rest := List.mem_of_getElem? hk
      have hne : insn ≠ insn' := fun heq => hfirst (List.mem_map.2 ⟨_, hmem, heq.symm⟩)
      have hnext : (pooled insn value code).size + 4 * k = code.size + 4 * (k + 1) := by omega
      rw [hnext] at hoffset hnear hbyte hword
      rw [getElem?_pooled (hrest _ hmem), if_neg hne] at hbyte
      exact ⟨hoffset, hnear, hbyte, hword⟩

/-- The pool is refused exactly if a constant is out of reach. -/
lemma addLiterals_eq_none (literals : List (Nat × UInt32)) (code : Bytes) :
    addLiterals literals code = none ↔ ∃ k insn value, literals[k]? = some (insn, value) ∧
      255 < literalDistance insn (code.size + 4 * k) := by
  induction literals generalizing code with
  | nil => simp [addLiterals]
  | cons q rest ih =>
    obtain ⟨insn, value⟩ := q
    have hnext : ∀ k, (pooled insn value code).size + 4 * k = code.size + 4 * (k + 1) := fun k => by
      have := size_pooled insn value code
      omega
    rw [addLiterals_cons]
    split_ifs with hfar
    · exact iff_of_true rfl ⟨0, insn, value, rfl, hfar⟩
    rw [Option.map_eq_none_iff, ih]
    constructor
    · rintro ⟨k, insn', value', hk, hlt⟩
      exact ⟨k + 1, insn', value', hk, hnext k ▸ hlt⟩
    · rintro ⟨_ | k, insn', value', hk, hlt⟩
      · cases hk
        exact absurd hlt hfar
      · exact ⟨k, insn', value', hk, (hnext k).symm ▸ hlt⟩

/-! ### Finished programs -/

/-- Offset of the first constant. -/
def poolStart (a : Assembler) : Nat := (a.emit .align).here

lemma poolStart_eq (a : Assembler) : a.poolStart = a.here + if a.here % 4 ≠ 0 then 2 else 0 := by
  rw [poolStart, here_emit, finished]
  split_ifs <;> rfl

/-- The pool begins at a word. -/
lemma Sound.poolStart_mod (h : a.Sound) : a.poolStart % 4 = 0 := by
  have heven := h.even
  rw [poolStart_eq]
  split_ifs <;> omega

/-- **No constant lies before** the place that its load counts from. -/
lemma Sound.le_poolStart (h : a.Sound) {q : Nat × UInt32} (hq : q ∈ a.literals) :
    (q.1 + 4) / 4 * 4 ≤ a.poolStart := by
  have heven := h.even
  have hload := h.loads q hq
  rw [poolStart_eq]
  split_ifs <;> omega

lemma finish_eq_none (a : Assembler) : a.finish = none ↔ ∃ k insn value,
    a.literals[k]? = some (insn, value) ∧ 255 < literalDistance insn (a.poolStart + 4 * k) :=
  addLiterals_eq_none ..

lemma Sound.pooled {out : Assembled} (h : a.Sound) (hfinish : a.finish = some out) :
    Pooled a.literals (a.emit .align).code out := by
  refine addLiterals_pooled hfinish (fun q hq => ?_) h.apart
  have hload := (h.loads q hq).2
  have hstart := poolStart_eq a
  change q.1 < a.poolStart
  omega

/-- A program has its statements where they were emitted. -/
lemma Begins.hasAt {p : Assembler} (h : Begins (p.emit s) a) :
    a.code.HasAt p.here (Bytes.ofHalfwords (s.finished p.here 0)) := by
  refine h.code.hasAt ?_
  rw [emit_eq]
  exact Bytes.hasAt_append _ _

/-- The number of words is in the lower byte. -/
lemma ofU16_or (hw : UInt16) (w : UInt8) :
    Bytes.ofU16 (hw ||| w.toUInt16) = #[hw.toUInt8 ||| w, (hw >>> 8).toUInt8] := by
  have hlow : (hw ||| w.toUInt16).toUInt8 = hw.toUInt8 ||| w := by
    rw [UInt16.toUInt8_or, UInt8.toUInt8_toUInt16]
  have hhigh : ((hw ||| w.toUInt16) >>> 8).toUInt8 = (hw >>> 8).toUInt8 := by
    have hzero : w.toUInt16 >>> 8 = 0 := by
      rw [← UInt16.toNat_inj, UInt16.toNat_shiftRight, UInt8.toNat_toUInt16]
      exact (Nat.shiftRight_eq_div_pow w.toNat 8).trans (Nat.div_eq_of_lt w.toNat_lt)
    have hor : (hw ||| w.toUInt16) >>> 8 = hw >>> 8 ||| w.toUInt16 >>> 8 := by
      rw [← UInt16.toNat_inj]
      simp only [UInt16.toNat_shiftRight, UInt16.toNat_or, Nat.shiftRight_or_distrib]
    rw [hor, hzero, UInt16.or_zero]
  rw [Bytes.ofU16, hlow, hhigh]

/-- A load from the pool has its constant after those of the loads before it. -/
lemma Begins.literal {p : Assembler} {rt : UInt8} {value : UInt32} (h : Begins (p.emit (.ldrLiteral rt value)) a) :
    a.literals[p.literals.length]? = some (p.here, value) := by
  obtain ⟨l, hl, -⟩ := h.literals
  rw [hl, literals_emit, List.append_assoc, List.getElem?_append_right (Nat.le_refl _), Nat.sub_self]
  rfl

section

variable {p : Assembler} {out : Assembled} (hp : p.Sound) (ha : a.Sound) (hfinish : a.finish = some out)

include hp ha hfinish

/-- What loads nothing from the pool is told nothing. -/
lemma finish_hasAt_same (hbegins : Begins (p.emit s) a) (hs : s.literals p.here = []) :
    out.code.HasAt p.here (Bytes.ofHalfwords (s.finished p.here 0)) := by
  obtain ⟨hkept, -⟩ := ha.pooled hfinish
  obtain ⟨l, hl, hle⟩ := hbegins.literals
  have hhere := here_emit p s
  have hcode : (a.emit .align).code.HasAt p.here (Bytes.ofHalfwords (s.finished p.here 0)) :=
    (hbegins.trans (begins_emit a .align)).hasAt
  refine hcode.congr fun i hge hlt => hkept i ?_ fun hmem => ?_
  · have hsize := hcode.le
    omega
  -- a load before it ends before it, and one after it begins after it
  · obtain ⟨q, hq, rfl⟩ := List.mem_map.1 hmem
    rw [Bytes.size_ofHalfwords] at hlt
    rw [hl, literals_emit, hs, List.append_nil] at hq
    rcases List.mem_append.1 hq with hq | hq
    · have hbefore := (hp.loads q hq).2
      omega
    · have hafter := hle q hq
      omega

/-- A load from the pool is told how far away its constant is. -/
lemma finish_hasAt_load {rt : UInt8} {value : UInt32} (hbegins : Begins (p.emit (.ldrLiteral rt value)) a) :
    out.code.HasAt p.here (Bytes.ofU16 ((0x4800 : UInt16) ||| rt.toUInt16 <<< 8 |||
      (UInt8.ofNat (literalDistance p.here (a.poolStart + 4 * p.literals.length))).toUInt16)) := by
  obtain ⟨hkept, hlinked⟩ := ha.pooled hfinish
  obtain ⟨-, -, hbyte, -⟩ := hlinked _ _ _ hbegins.literal
  have hcode : (a.emit .align).code.HasAt p.here (Bytes.ofHalfwords [_]) :=
    (hbegins.trans (begins_emit a .align)).hasAt
  rw [Bytes.ofHalfwords_one, ofU16_or] at hcode
  rw [ofU16_or]
  refine Bytes.hasAt_of_get fun i hi => ?_
  obtain rfl | rfl : i = 0 ∨ i = 1 := by
    have htwo : i < 2 := hi
    omega
  · have hfirst := hcode.get_eq (i := 0) (by decide : 0 < 2)
    rw [Nat.add_zero] at hfirst ⊢
    rw [hbyte, hfirst]
    exact congrArg (fun b => some (b ||| _)) UInt8.or_zero
  · -- the upper byte lies at an odd offset, where no load is
    have hsize : p.here + 2 ≤ (a.emit .align).code.size := hcode.le (by decide : 0 < 2)
    rw [hkept (p.here + 1) hsize fun hmem => ?_]
    · exact hcode.get_eq (i := 1) (by decide : 1 < 2)
    · obtain ⟨q, hq, heq⟩ := List.mem_map.1 hmem
      have hpeven := hp.even
      have hqeven := (ha.loads q hq).1
      omega

/-- **A finished program** has every statement where it was emitted. -/
lemma finish_hasAt (hbegins : Begins (p.emit s) a) :
    out.code.HasAt p.here (Bytes.ofHalfwords
      (s.finished p.here (UInt8.ofNat (literalDistance p.here (a.poolStart + 4 * p.literals.length))))) := by
  obtain ⟨rt, value, rfl⟩ | hsame := s.load_or
  · change out.code.HasAt p.here (Bytes.ofHalfwords [_])
    rw [Bytes.ofHalfwords_one]
    exact finish_hasAt_load hp ha hfinish hbegins
  · rw [(hsame _).2]
    exact finish_hasAt_same hp ha hfinish hbegins (hsame _).1

end

end Assembler

end FlashLink
