import FlashLink.Load.Block
import FlashLink.Proofs.Streaming

/-!
Variables in the pool. The sections of a block lie one after another, so copying one never disturbs
another. A copied section is linked as a whole, and nothing of the pool changes but the bytes of the
copied sections: the bytes between them stay what they were.
-/

namespace FlashLink

open Act Relocation

/-! ### Layout -/

namespace BlockLayout

/-- The sections lie one after another between `start` and `stop`. -/
def Laid : Nat → Nat → List (SectionInfo × Nat) → Prop
  | start, stop, [] => start ≤ stop
  | start, stop, (s, offset) :: rest => start ≤ offset ∧ Laid (offset + s.size) stop rest

variable {start stop : Nat} {offsets : List (SectionInfo × Nat)}

lemma Laid.le (h : Laid start stop offsets) : start ≤ stop := by
  induction offsets generalizing start with
  | nil => exact h
  | cons p rest ih =>
    have := ih h.2
    have := h.1
    omega

lemma Laid.mem {s : SectionInfo} {offset : Nat} (h : Laid start stop offsets)
    (hs : (s, offset) ∈ offsets) : start ≤ offset ∧ offset + s.size ≤ stop := by
  induction offsets generalizing start with
  | nil => cases hs
  | cons p rest ih =>
    rcases List.mem_cons.1 hs with rfl | hs
    · exact ⟨h.1, Laid.le h.2⟩
    · have := ih h.2 hs
      have := h.1
      omega

lemma layFrom_laid (sections : List SectionInfo) (size align : Nat) :
    Laid size (layFrom sections size align).size (layFrom sections size align).offsets := by
  induction sections generalizing size align with
  | nil => exact Nat.le_refl _
  | cons s rest ih => exact ⟨le_alignUp size (Nat.lt_of_lt_of_le (by decide) (Nat.le_max_right ..)),
      ih _ _⟩

/-- A layout is of all its sections, in order. -/
lemma layFrom_sections (sections : List SectionInfo) (size align : Nat) :
    (layFrom sections size align).offsets.map (·.1) = sections := by
  induction sections generalizing size align with
  | nil => rfl
  | cons s rest ih => exact congrArg (s :: ·) (ih _ _)

end BlockLayout

/-! ### The pool -/

namespace Pool

/-- Only pool places in `J` may have changed. -/
structure Changed (J : Nat → Prop) (p p' : Pool) : Prop where
  base_eq : p'.base = p.base
  used_eq : p'.used = p.used
  same : Bytes.SameOn (fun i => ¬ J i) p.mem p'.mem

variable {J K : Nat → Prop} {p p' p'' : Pool}

namespace Changed

lemma refl (p : Pool) : Changed J p p := ⟨rfl, rfl, .refl _⟩

lemma trans (h : Changed J p p') (h' : Changed J p' p'') : Changed J p p'' :=
  ⟨h'.1.trans h.1, h'.2.trans h.2, h.3.trans h'.3⟩

lemma mono (h : Changed J p p') (hJ : ∀ i, J i → K i) : Changed K p p' :=
  ⟨h.1, h.2, h.3.mono fun i hi hj => hi (hJ i hj)⟩

lemma size_eq (h : Changed J p p') : p'.mem.size = p.mem.size := h.same.size_eq.symm

/-- Bytes that may not change. -/
lemma slice_eq {s n : Nat} (h : Changed J p p') (hJ : ∀ i, s ≤ i → i < s + n → ¬ J i) :
    p'.mem.slice s n = p.mem.slice s n := (h.same.slice_eq hJ).symm

end Changed

lemma changed_overwrite {start : Nat} {data : Bytes}
    (hJ : ∀ i, start ≤ i → i < start + data.size → J i) :
    Changed J p { p with mem := p.mem.overwrite start data } := by
  refine ⟨rfl, rfl, Bytes.sameOn_overwrite _ fun i hi => ?_⟩
  by_contra h
  exact hi (hJ i (by omega) (by omega))

lemma changed_clear {b : RamBlock} (hJ : ∀ i, b.offset ≤ i → i < b.offset + b.len → J i) :
    Changed J p (p.clear b) := by
  refine ⟨rfl, rfl, Bytes.sameOn_fill _ fun i hi => ?_⟩
  by_contra h
  exact hi (hJ i (by omega) (by omega))

/-- The block that the next reservation hands out. -/
def nextBlock (p : Pool) (size align : Nat) : RamBlock :=
  let offset := alignUp p.used (max align minAlign)
  ⟨offset, p.base + UInt32.ofNat offset, size⟩

lemma le_nextBlock (p : Pool) (size align : Nat) : p.used ≤ (p.nextBlock size align).offset :=
  le_alignUp _ (Nat.lt_of_lt_of_le (by decide) (Nat.le_max_right align minAlign))

lemma reserve_sat (size align : Nat) (p : Pool) :
    Sat (reserve size align) p
      (fun b p' => b = p.nextBlock size align ∧ size ≤ p.capacity - b.offset ∧
        p' = { p with used := b.offset + size })
      (fun _ p' => p' = p) := by
  unfold Sat reserve
  dsimp only
  split_ifs with h1 h2
  · rfl
  · rfl
  · exact ⟨rfl, by simpa using h2, rfl⟩

end Pool

/-- A block is the pool's next one, laid out for its sections; there is none for no sections. -/
lemma Block.reserve_sat (sections : List SectionInfo) (p : Pool) :
    Sat (Block.reserve sections) p
      (fun b p' => match b with
        | none => sections = [] ∧ p' = p
        | some b => sections ≠ [] ∧ b.offsets = (BlockLayout.ofSections sections).offsets ∧
          b.ram = p.nextBlock (BlockLayout.ofSections sections).size
            (BlockLayout.ofSections sections).align ∧
          b.ram.len ≤ p.capacity - b.ram.offset ∧ p' = { p with used := b.ram.offset + b.ram.len })
      (fun _ p' => p' = p) := by
  unfold Block.reserve
  split_ifs with h
  · exact sat_pure.2 ⟨List.isEmpty_iff.1 h, rfl⟩
  · refine Sat.bind (Pool.reserve_sat _ _ p) ?_ fun _ _ h => h
    rintro _ _ ⟨rfl, hroom, rfl⟩
    exact Sat.note_bind (sat_pure.2 ⟨fun hs => h (List.isEmpty_iff.2 hs), rfl, rfl, hroom, rfl⟩)

lemma Block.clear_sat (b : Block) (p : Pool) :
    Sat b.clear p (fun _ p' => p' = p.clear b.ram) (fun _ _ => False) :=
  Sat.modify_bind (sat_note.2 rfl)

namespace Workshop

variable {chunk : Nat} {c : Scope} {src : Source} {strict : Bool} {ram : RamBlock}
  {s : SectionInfo} {offset start : Nat} {base : Addr}

/-! ### One batch after the other -/

section Rules

variable {d : Desk} {p : Pool} {P : Tally → Workshop → Prop} {G : Error → Workshop → Prop}

/-- From entry `first` on there is nothing left to do, or a batch is read and applied in place, and then
the rest. -/
lemma relocate_rule {t : RelocationTable} {fuel first : Nat} {sum : Tally}
    (hover : t.count ≤ first → P sum (d, p))
    (hbatch : first < t.count → Sat (Desk.readBatch t first) d
      (fun batch d₁ => Sat (Relocation.applyChunk 0 base strict c.resolve batch)
          (p.mem.slice start s.size, d₁.linker)
        (fun done b => Sat (copySection.relocate c strict s start base t fuel (first + batch.length)
            (sum.add done)) (⟨d₁.scratch, b.2⟩, { p with mem := p.mem.overwrite start b.1 }) P G)
        fun e b => G e (⟨d₁.scratch, b.2⟩, { p with mem := p.mem.overwrite start b.1 }))
      fun e d₁ => G e (d₁, p)) :
    Sat (copySection.relocate c strict s start base t (fuel + 1) first sum) (d, p) P G := by
  unfold copySection.relocate
  split_ifs with hle
  · exact sat_pure.2 (hover hle)
  refine Sat.seq (sat_zoom.2 ((hbatch (Nat.not_le.1 hle)).mono (fun batch d₁ happly => ?_) fun _ _ h => h))
  exact Sat.seq (sat_zoom.2 happly)

/-- The bytes of the section are copied before they are relocated. -/
lemma copySection_rule
    (h : Sat (Source.readInto (ram.offset + offset) s.header.offset s.size) (p.mem, d.linker.source)
      (fun _ b => (s.relocations = none → P .zero (⟨d.scratch, b.2, d.linker.cache⟩, { p with mem := b.1 })) ∧
        ∀ t, s.relocations = some t →
          Sat (copySection.relocate c strict s (ram.offset + offset) (Block.address ram offset) t t.count 0
            .zero) (⟨d.scratch, b.2, d.linker.cache⟩, { p with mem := b.1 }) P G)
      fun e b => G e (⟨d.scratch, b.2, d.linker.cache⟩, { p with mem := b.1 })) :
    Sat (copySection c strict ram s offset) (d, p) P G := by
  unfold copySection
  refine Sat.seq (sat_zoom.2 (h.mono ?_ fun _ _ h => h))
  rintro _ b ⟨hnone, hsome⟩
  rcases hr : s.relocations with _ | t <;> dsimp only
  · exact Sat.pure_bind (Sat.note_bind (sat_pure.2 (hnone hr)))
  · exact (hsome t hr).bind (fun _ _ h => Sat.note_bind (sat_pure.2 h)) fun _ _ h => h

end Rules

/-! ### Footprint -/

/-- The bytes of a section at an offset of a block. -/
def Within (ram : RamBlock) (s : SectionInfo) (offset i : Nat) : Prop :=
  ram.offset + offset ≤ i ∧ i < ram.offset + offset + s.size

lemma relocate_changed {J : Nat → Prop} (hJ : ∀ i, start ≤ i → i < start + s.size → J i)
    (t : RelocationTable) (fuel first : Nat) (sum : Tally) (w : Workshop) :
    Sat (copySection.relocate c strict s start base t fuel first sum) w
      (fun _ w' => Pool.Changed J w.2 w'.2) (fun _ w' => Pool.Changed J w.2 w'.2) := by
  induction fuel generalizing first sum w with
  | zero => exact .refl _
  | succ fuel ih =>
    obtain ⟨d, p⟩ := w
    have hchanged : ∀ b : Bytes, b.size = (p.mem.slice start s.size).size →
        Pool.Changed J p { p with mem := p.mem.overwrite start b } := by
      intro b hb
      refine Pool.changed_overwrite fun i h1 h2 => hJ i h1 ?_
      rw [Bytes.size_slice] at hb
      omega
    refine relocate_rule (fun _ => .refl _) fun _ => (sat_any _ d).mono (fun batch d₁ _ => ?_)
      fun _ _ _ => .refl _
    refine (applyChunk_size 0 base strict c.resolve batch _ d₁.linker).mono (fun done b h => ?_)
      fun _ b h => hchanged b.1 h
    exact (ih _ _ _).mono (fun _ _ h' => (hchanged b.1 h).trans h') fun _ _ h' => (hchanged b.1 h).trans h'

/-- Copying a section changes nothing but its own bytes. -/
lemma copySection_changed (c : Scope) (strict : Bool) (ram : RamBlock) (s : SectionInfo)
    (offset : Nat) (w : Workshop) :
    Sat (copySection c strict ram s offset) w
      (fun _ w' => Pool.Changed (Within ram s offset) w.2 w'.2)
      (fun _ w' => Pool.Changed (Within ram s offset) w.2 w'.2) := by
  obtain ⟨d, p⟩ := w
  refine copySection_rule ((Source.readInto_sat (ram.offset + offset) s.header.offset s.size p.mem
    d.linker.source).mono ?_ ?_)
  · rintro _ ⟨mem, src⟩ ⟨-, hmem, -⟩
    dsimp only at hmem
    subst hmem
    have hcopied : Pool.Changed (Within ram s offset) p { p with
        mem := p.mem.overwrite (ram.offset + offset) (d.linker.source.data.slice s.header.offset s.size) } := by
      refine Pool.changed_overwrite fun i h1 h2 => ⟨h1, ?_⟩
      rw [Bytes.size_slice] at h2
      omega
    refine ⟨fun _ => hcopied, fun t _ => ?_⟩
    exact (relocate_changed (fun i h1 h2 => ⟨h1, h2⟩) t _ _ _ _).mono (fun _ _ h => hcopied.trans h)
      fun _ _ h => hcopied.trans h
  · rintro _ ⟨mem, src⟩ ⟨-, -, got, hgot, hmem⟩
    dsimp only at hmem
    subst hmem
    exact Pool.changed_overwrite fun i h1 h2 => ⟨h1, by omega⟩

/-- Copying a block changes nothing but the bytes of its sections. -/
lemma copyAll_changed (c : Scope) (strict : Bool) (ram : RamBlock)
    (offsets : List (SectionInfo × Nat)) (sum : Tally) (w : Workshop) :
    Sat (copyAll c strict ram offsets sum) w
      (fun _ w' => Pool.Changed (fun i => ∃ q ∈ offsets, Within ram q.1 q.2 i) w.2 w'.2)
      (fun _ w' => Pool.Changed (fun i => ∃ q ∈ offsets, Within ram q.1 q.2 i) w.2 w'.2) := by
  induction offsets generalizing sum w with
  | nil => exact .refl _
  | cons q rest ih =>
    have hfirst : ∀ i, Within ram q.1 q.2 i → ∃ q' ∈ q :: rest, Within ram q'.1 q'.2 i :=
      fun i hi => ⟨q, .head _, hi⟩
    have hrest : ∀ i, (∃ q' ∈ rest, Within ram q'.1 q'.2 i) →
        ∃ q' ∈ q :: rest, Within ram q'.1 q'.2 i := fun i ⟨q', hq, hi⟩ => ⟨q', .tail _ hq, hi⟩
    refine Sat.bind (copySection_changed c strict ram q.1 q.2 w) ?_ fun _ _ h => h.mono hfirst
    exact fun done w' h => (ih _ w').mono (fun _ _ h' => (h.mono hfirst).trans (h'.mono hrest))
      fun _ _ h' => (h.mono hfirst).trans (h'.mono hrest)

/-! ### Contents -/

/-- Relocating in place links the bytes of the span, from any entry of the table on. -/
lemma relocate_sat {t : RelocationTable} {fuel first : Nat} {sum : Tally} {d : Desk} {p : Pool}
    (hd : d.Ready chunk c src) (hheld : t.Held src) (hsize : s.size < sizeLimit)
    (hfit : start + s.size ≤ p.mem.size) (hfirst : first ≤ t.count) (hfuel : t.count ≤ first + fuel) :
    Sat (copySection.relocate c strict s start base t fuel first sum) (d, p)
      (fun _ w => w.1.Ready chunk c src ∧
        linkAll 0 base strict (c.rule src) ((t.entries src.data).drop first)
          (p.mem.slice start s.size) = .ok (w.2.mem.slice start s.size))
      (fun _ _ => ¬ ∃ out, linkAll 0 base strict (c.rule src) ((t.entries src.data).drop first)
        (p.mem.slice start s.size) = .ok out) := by
  induction fuel generalizing first sum d p with
  | zero =>
    have hend : (t.entries src.data).drop first = [] := List.drop_of_length_le (by simp; omega)
    rw [hend]
    exact ⟨hd, rfl⟩
  | succ fuel ih =>
    refine relocate_rule (fun hover => ?_) fun hover => ?_
    · have hend : (t.entries src.data).drop first = [] := List.drop_of_length_le (by simp; omega)
      rw [hend]
      exact ⟨hd, rfl⟩
    refine (Desk.readBatch_sat hd.linker.same hd.batch_pos hover).mono ?_ fun _ _ h => absurd hheld h
    rintro batch d' ⟨hre, n, hn, hcount, hbatch, -⟩
    have hd' := hd.reread hre
    have hsplit : (t.entries src.data).drop first =
        batch ++ (t.entries src.data).drop (first + n) := by
      rw [hbatch, ← List.drop_drop, List.take_append_drop]
    have hlen : batch.length = n := by rw [hbatch]; simp; omega
    have hslice := Bytes.size_slice_of_le hfit
    rw [hsplit, linkAll_append]
    refine (applyChunk_sat (fun i l hl => Scope.resolve_yields i hl) hd'.linker (by omega)).mono ?_ ?_
    · rintro done ⟨bytes, l⟩ ⟨hbytes, hl⟩
      have hbsize : bytes.size = s.size := (size_linkAll hbytes).trans hslice
      have hwritten : (p.mem.overwrite start bytes).slice start s.size = bytes :=
        Bytes.slice_overwrite hbsize hfit
      dsimp only at hbytes
      have hfit' : start + s.size ≤ (p.mem.overwrite start bytes).size := by
        rw [Bytes.size_overwrite]
        exact hfit
      have hd'' : Desk.Ready chunk c src ⟨d'.scratch, l⟩ := ⟨hd'.chunk_eq, hd'.batch_pos, hl⟩
      have hrest : Sat (copySection.relocate c strict s start base t fuel (first + n) (sum.add done)) _ _ _ :=
        ih (p := { p with mem := p.mem.overwrite start bytes }) hd'' hfit' hcount (by omega)
      dsimp only at hrest
      rw [hwritten] at hrest
      rw [hbytes, hlen]
      exact hrest
    · rintro e _ ⟨he, -⟩ ⟨out, hout⟩
      rw [he] at hout
      cases hout

/-- A section is copied exactly if it can be linked, and then its bytes are linked. -/
lemma copySection_sat {d : Desk} {p : Pool} (hd : d.Ready chunk c src)
    (hheld : s.TableHeld src) (hpos : 0 < s.size) (hsize : s.size < sizeLimit)
    (hfit : ram.offset + offset + s.size ≤ p.mem.size) :
    Sat (copySection c strict ram s offset) (d, p)
      (fun _ w => w.1.Ready chunk c src ∧ s.Links src (Block.address ram offset) strict (c.rule src) 0
        s.size (w.2.mem.slice (ram.offset + offset) s.size))
      (fun _ _ => ¬ ∃ out, s.Links src (Block.address ram offset) strict (c.rule src) 0 s.size out) := by
  refine copySection_rule ((Source.readInto_holds hd.linker.same (ram.offset + offset) s.header.offset hpos
    p.mem).mono ?_ fun _ _ h h' => h h'.choose_spec.1)
  rintro _ ⟨mem, source⟩ ⟨hholds, rfl, hsame⟩
  set file := src.data.slice s.header.offset s.size
  have hd' : Desk.Ready chunk c src ⟨d.scratch, source, d.linker.cache⟩ :=
    ⟨hd.chunk_eq, hd.batch_pos, hsame, hd.linker.coherent⟩
  have hslice : (p.mem.overwrite (ram.offset + offset) file).slice (ram.offset + offset) s.size = file :=
    Bytes.slice_overwrite (Bytes.size_slice_of_le (hholds hpos)) hfit
  dsimp only
  refine ⟨fun hr => ⟨hd', hholds, ?_⟩, fun t hr => ?_⟩
  · rw [SectionInfo.entries_none hr, hslice]
    rfl
  · have hentries := SectionInfo.entries_some hr src.data
    refine (relocate_sat hd' (hheld t hr) hsize ?_ (Nat.zero_le _) (by omega)).mono ?_ ?_
    · rw [Bytes.size_overwrite]
      exact hfit
    · rintro done w ⟨hw, hlink⟩
      rw [List.drop_zero, hslice, ← hentries] at hlink
      exact ⟨hw, hholds, hlink⟩
    · rintro _ _ h ⟨out, -, hout⟩
      rw [List.drop_zero, hslice, ← hentries] at h
      exact h ⟨out, hout⟩

/-- **Copying** a block succeeds exactly if all its sections can be linked, and leaves each of them
linked as a whole. -/
lemma copyAll_sat {offsets : List (SectionInfo × Nat)} {stop : Nat} {sum : Tally} {d : Desk}
    {p : Pool} (hd : d.Ready chunk c src)
    (hsections : ∀ q ∈ offsets, q.1.TableHeld src ∧ 0 < q.1.size ∧ q.1.size < sizeLimit)
    (hlaid : BlockLayout.Laid start stop offsets) (hfit : ram.offset + stop ≤ p.mem.size) :
    Sat (copyAll c strict ram offsets sum) (d, p)
      (fun _ w => w.1.Ready chunk c src ∧ ∀ q ∈ offsets,
        q.1.Links src (Block.address ram q.2) strict (c.rule src) 0 q.1.size
          (w.2.mem.slice (ram.offset + q.2) q.1.size))
      (fun _ _ => ¬ ∀ q ∈ offsets, ∃ out,
        q.1.Links src (Block.address ram q.2) strict (c.rule src) 0 q.1.size out) := by
  induction offsets generalizing start sum d p with
  | nil => exact ⟨hd, fun q hq => by cases hq⟩
  | cons q rest ih =>
    obtain ⟨s, offset⟩ := q
    obtain ⟨hheld, hpos, hsize⟩ := hsections _ (.head _)
    have hend : offset + s.size ≤ stop := hlaid.2.le
    dsimp only at hpos hsize
    have hcopy : Sat (copySection c strict ram s offset) (d, p) _ _ :=
      copySection_sat hd hheld hpos hsize (by omega)
    refine Sat.bind (hcopy.and (copySection_changed c strict ram s offset (d, p))) ?_
      fun _ _ h h' => h.1 (h' _ (.head _))
    rintro done ⟨d', p'⟩ ⟨⟨hd', hlinks⟩, hchanged⟩
    have hmem : p'.mem.size = p.mem.size := hchanged.size_eq
    refine ((ih hd' (fun q hq => hsections q (.tail _ hq)) hlaid.2 (by omega)).and
      (copyAll_changed c strict ram rest _ (d', p'))).mono ?_ ?_
    · rintro _ ⟨d'', p''⟩ ⟨⟨hd'', hrest⟩, hchanged'⟩
      refine ⟨hd'', fun q hq => ?_⟩
      rcases List.mem_cons.1 hq with rfl | hq
      · -- the later sections lie elsewhere
        have hkeep := hchanged'.slice_eq (s := ram.offset + offset) (n := s.size)
          (by
            rintro i h1 h2 ⟨q', hq', h3, h4⟩
            have := (hlaid.2.mem hq').1
            omega)
        dsimp only at hkeep hlinks ⊢
        rw [hkeep]
        exact hlinks
      · exact hrest q hq
    · exact fun _ _ h h' => h.1 fun q hq => h' q (.tail _ hq)

end Workshop

end FlashLink
