import FlashLink.Proofs.Blocks
import FlashLink.Proofs.GuardedStreaming

/-!
Placing variables with every demand spelled out. Offsets and sizes of a block are words however sections
are aligned, the block is a slice of the pool, each section is a slice of the block, and each field is
one of the section.
-/

namespace FlashLink

open Trial Relocation

namespace Guarded

/-! ### Reserving -/

def layFrom : List SectionInfo → Nat → Nat → Option BlockLayout
  | [], size, align => some ⟨[], size, align⟩
  | s :: rest, size, align => do
    let start ← Word.alignUp? size s.header.align
    let next ← Word.add? start s.size
    let l ← layFrom rest next (max align s.header.align)
    return { l with offsets := (s, start) :: l.offsets }

/-- The offset of the block and, where there is room, its end are words. -/
def reserveRam (size align : Nat) : Trial Pool RamBlock := do
  let p ← get
  let offset ← Word.alignUp? p.used (max align Pool.minAlign)
  if size ≤ p.capacity - offset then
    let _ ← Word.add? offset size
  Pool.reserve size align

def reserveBlock (sections : List SectionInfo) : Trial Pool (Option Block) := do
  if sections.isEmpty then return none
  let l ← layFrom sections 0 1
  let ram ← reserveRam l.size l.align
  Trial.note (.blockPlaced l.size ram.addr)
  return some ⟨ram, l.offsets⟩

/-! ### Copying -/

/-- The bytes of a block. -/
def blockBytes (b : RamBlock) : Trial Pool Bytes := do
  let stop ← Word.add? b.offset b.len
  (← get).mem.span? b.offset stop

/-- The bytes of a section of a block. -/
def sectionBytes (b : RamBlock) (s : SectionInfo) (offset : Nat) : Trial Pool Bytes := do
  let block ← blockBytes b
  let stop ← Word.add? offset s.size
  block.span? offset stop

/-- There are batches until the table ends. -/
def relocateFrom (c : Scope) (strict : Bool) (s : SectionInfo) (start : Nat) (base : Addr)
    (t : RelocationTable) : Nat → Nat → Tally → Trial Workshop Tally
  | 0, first, sum => do
    Trial.check (t.count ≤ first)
    return sum
  | fuel + 1, first, sum => do
    if t.count ≤ first then return sum
    let batch ← Trial.zoom Part.first (readBatch t first)
    let next ← Word.add? first batch.length
    let done ← Trial.zoom (Workshop.spanPart start s.size) (applyChunk 0 base strict c batch)
    relocateFrom c strict s start base t fuel next (← sum.add? done)

def copySection (c : Scope) (strict : Bool) (ram : RamBlock) (s : SectionInfo) (offset : Nat) :
    Trial Workshop Tally := do
  let _ ← Trial.zoom Part.second (sectionBytes ram s offset)
  let start ← Word.add? ram.offset offset
  let base := Block.address ram offset
  Trial.zoom Workshop.fillPart (readInto start s.header.offset s.size)
  let sum ← match s.relocations with
    | none => pure Tally.zero
    | some t => relocateFrom c strict s start base t t.count 0 .zero
  Trial.note (.dataPlaced s.name base s.size sum.patched)
  return sum

/-- Sections are looked up by index. -/
def copyAll (o : Object) (c : Scope) (strict : Bool) (ram : RamBlock) :
    List (SectionInfo × Nat) → Tally → Trial Workshop Tally
  | [], sum => return sum
  | (s, offset) :: rest, sum => do
    let s ← o.sections[s.index]?
    let done ← copySection c strict ram s offset
    copyAll o c strict ram rest (← sum.add? done)

def clear (b : Block) : Trial Pool Unit := do
  let _ ← blockBytes b.ram
  b.clear

end Guarded

/-! ### Reserving -/

namespace BlockLayout

lemma align_lt (h : SectionHeader) : 0 < h.align ∧ h.align < 2 ^ 32 := by
  have := UInt32.toNat_lt h.rawAlign
  rw [SectionHeader.align]
  omega

/-- Whatever its sections ask for, a block is aligned to 32 bits. -/
lemma layFrom_align_lt {sections : List SectionInfo} {size align : Nat} (h : align < 2 ^ 32) :
    (layFrom sections size align).align < 2 ^ 32 := by
  induction sections generalizing size align with
  | nil => exact h
  | cons s rest ih => exact ih (Nat.max_lt.2 ⟨h, (align_lt s.header).2⟩)

end BlockLayout

/-- The pool is in memory, and the next block begins in memory. -/
structure Pool.Addressed (p : Pool) : Prop where
  capacity_le : p.capacity + 2 ^ 32 ≤ sizeLimit
  used_le : p.used + 2 ^ 32 ≤ sizeLimit

lemma Pool.reserve_unbroken {p : Pool} {size align : Nat}
    (h : alignUp p.used (max align minAlign) < sizeLimit) :
    Trial.Unbroken (p.reserve size align).result := by
  unfold reserve
  dsimp only
  rw [if_neg (Nat.not_le.2 h)]
  split_ifs <;> exact nofun

namespace Guarded

/-- Each section takes up less than twice what 32 bits can say. -/
lemma layFrom_eq {sections : List SectionInfo} {size : Nat} (align : Nat)
    (h : size + sections.length * 2 ^ 33 < sizeLimit) :
    layFrom sections size align = some (BlockLayout.layFrom sections size align) := by
  induction sections generalizing size align with
  | nil => rfl
  | cons s rest ih =>
    obtain ⟨hpos, halign⟩ := BlockLayout.align_lt s.header
    have hsize := size_lt s
    have hlt := FlashLink.alignUp_lt size hpos
    rw [List.length_cons, Nat.add_mul] at h
    rw [layFrom, Word.alignUp?_eq hpos (by omega), Option.bind_eq_bind, Option.bind_some,
      Word.add?_eq (by omega), Option.bind_some, ih _ (by omega)]
    rfl

lemma reserveRam_runs {p : Pool} (hp : p.Addressed) (size : Nat) {align : Nat} (halign : align < 2 ^ 32) :
    Runs (reserveRam size align) (Pool.reserve size align) p := by
  have hpos : 0 < max align Pool.minAlign := Nat.lt_of_lt_of_le (by decide) (Nat.le_max_right ..)
  have hmax : max align Pool.minAlign < 2 ^ 32 := Nat.max_lt.2 ⟨halign, by decide⟩
  have hlt := FlashLink.alignUp_lt p.used hpos
  have hcapacity := hp.capacity_le
  have hused := hp.used_le
  unfold reserveRam
  have hoffset : alignUp p.used (max align Pool.minAlign) < sizeLimit := by omega
  refine Runs.peek_bind (Runs.need_bind (Word.alignUp?_eq hpos hoffset) ?_)
  dsimp only
  split_ifs
  · exact Runs.need_bind (Word.add?_eq (by omega)) (runs_lift (Pool.reserve_unbroken hoffset))
  · exact runs_lift (Pool.reserve_unbroken hoffset)

/-- **Reserving a block.** -/
lemma reserveBlock_runs {p : Pool} (hp : p.Addressed) {sections : List SectionInfo}
    (hlength : sections.length < 2 ^ 16) :
    Runs (reserveBlock sections) (Block.reserve sections) p := by
  unfold reserveBlock Block.reserve
  split_ifs
  · exact runs_pure _
  have hlay : layFrom sections 0 1 = some (BlockLayout.layFrom sections 0 1) :=
    layFrom_eq 1 (by rw [sizeLimit, UInt64.size]; omega)
  refine Runs.need_bind hlay ?_
  refine (reserveRam_runs hp _ (BlockLayout.layFrom_align_lt (by decide))).bind_any fun ram _ => ?_
  exact Runs.note_bind (runs_pure _)

/-! ### Copying -/

variable {chunk : Nat} {src : Source} {c : Scope} {strict : Bool} {s : SectionInfo} {ram : RamBlock}
  {offset start : Nat} {base : Addr} {t : RelocationTable} {d e : Desk} {p : Pool}

lemma blockBytes_runs (hcapacity : p.capacity < sizeLimit) {b : RamBlock}
    (hram : b.offset + b.len ≤ p.capacity) :
    Runs (blockBytes b) (pure (p.mem.extract b.offset (b.offset + b.len))) p := by
  unfold blockBytes
  exact Runs.need_bind (Word.add?_eq (by omega)) (Runs.peek_bind
    (runs_need (Bytes.span?_eq (by omega) hram)))

lemma sectionBytes_runs (hcapacity : p.capacity < sizeLimit)
    (hram : ram.offset + ram.len ≤ p.capacity) (hfit : offset + s.size ≤ ram.len) :
    ∃ b, Runs (sectionBytes ram s offset) (pure b) p := by
  refine ⟨_, Runs.met_bind (blockBytes_runs hcapacity hram)
    (Runs.need_bind (Word.add?_eq (by omega)) (runs_need (Bytes.span?_eq (by omega) ?_)))⟩
  rw [Array.size_extract]
  rw [Pool.capacity] at hram
  omega

/-- Batch by batch, what is counted is the entries seen so far. -/
lemma relocateFrom_meets (hs : Linkable src c s) (ht : t.Short) (hcapacity : p.capacity < sizeLimit)
    (hfit : start + s.size ≤ p.capacity) (hlookups : d.linker.lookups + t.count < sizeLimit)
    {fuel first : Nat} {sum : Tally} (he : Counted chunk first src d sum e) (hfirst : first ≤ t.count)
    (hfuel : t.count ≤ first + fuel) :
    Meets (relocateFrom c strict s start base t fuel first sum)
      (Workshop.copySection.relocate c strict s start base t fuel first sum) (e, p)
      (fun sum w => Counted chunk t.count src d sum w.1 ∧ w.2.capacity = p.capacity) := by
  induction fuel generalizing first sum e p with
  | zero => exact Meets.check_bind hfuel (Meets.pure ⟨he.mono hfirst, rfl⟩)
  | succ fuel ih =>
    unfold relocateFrom Workshop.copySection.relocate
    split_ifs with hover
    · exact Meets.pure ⟨he.mono hfirst, rfl⟩
    refine Meets.bind (P := fun batch w => p = w.2 ∧ Counted chunk first src d sum w.1 ∧
        0 < batch.length ∧ first + batch.length ≤ t.count)
      (Meets.zoom ((readBatch_meets ht he.1 (by omega)).mono
        fun _ _ h => ⟨rfl, he.reread h.1, h.2.1, h.2.2.1⟩)) ?_
    rintro batch ⟨e1, _⟩ ⟨rfl, he1, hpos, hcount⟩
    have hle : batch.countP (inside 0 s.size) ≤ batch.length := List.countP_le_length
    have hslice : (p.mem.slice start s.size).size = s.size := Bytes.size_slice_of_le hfit
    have hlookups1 := he1.2.2
    refine Meets.need_bind (Word.add?_eq (by omega)) ?_
    refine Meets.bind (P := fun done w => Counted chunk (first + batch.length) src d (sum.add done) w.1 ∧
        w.2.capacity = p.capacity) (Meets.zoom ?_) ?_
    · change Meets _ _ (p.mem.slice start s.size, e1.linker) _
      refine (applyChunk_meets hs.symbols he1.1.slots_pos (by omega) (by rw [hslice]; omega)).mono ?_
      rw [hslice]
      rintro done ⟨buf, l⟩ ⟨htotal, -, hcounted⟩
      refine ⟨he1.add ⟨⟨he1.1.chunk_eq, he1.1.batch_pos, he1.1.raw_lt, ?_,
        he1.1.same.trans hcounted.same⟩, by omega, ?_⟩, Bytes.size_overwrite ..⟩
      · exact Nat.lt_of_lt_of_eq he1.1.slots_pos hcounted.slots_eq.symm
      · exact Nat.le_trans hcounted.lookups_le (Nat.add_le_add_left hle _)
    · rintro done ⟨e2, p2⟩ ⟨he2, hp2⟩
      have htotal := he2.2.1
      rw [Tally.total_add] at htotal
      refine Meets.need_bind (Tally.add?_eq (by omega)) ?_
      exact (ih (hp2 ▸ hcapacity) (hp2 ▸ hfit) he2 hcount (by omega)).mono
        fun _ _ h => ⟨h.1, h.2.trans hp2⟩

/-- **Copying a section.** -/
lemma copySection_meets (hs : Linkable src c s) (hcapacity : p.capacity < sizeLimit)
    (hram : ram.offset + ram.len ≤ p.capacity) (hfit : offset + s.size ≤ ram.len)
    (hd : d.Able chunk src) (hlookups : d.linker.lookups + (s.entries src.data).length < sizeLimit) :
    Meets (copySection c strict ram s offset) (Workshop.copySection c strict ram s offset) (d, p)
      (fun sum w => Counted chunk (s.entries src.data).length src d sum w.1 ∧
        w.2.capacity = p.capacity) := by
  obtain ⟨b, hbytes⟩ := sectionBytes_runs hcapacity hram hfit
  unfold copySection Workshop.copySection
  refine Meets.met_bind hbytes.peek_second (Meets.need_bind (Word.add?_eq (by omega)) ?_)
  -- the bytes of the section
  refine Meets.bind (P := fun _ w => Counted chunk 0 src d .zero w.1 ∧ w.2.capacity = p.capacity)
    (Meets.zoom ⟨readInto_runs ?_ hcapacity, (Source.readInto_sat (ram.offset + offset) s.header.offset
      s.size p.mem d.linker.source).mono ?_ fun _ _ _ => trivial⟩) ?_
  · change ram.offset + offset + s.size ≤ p.capacity
    omega
  · rintro _ ⟨mem, source⟩ ⟨-, hmem, hsame⟩
    dsimp only at hmem
    subst hmem
    exact ⟨⟨⟨hd.chunk_eq, hd.batch_pos, hd.raw_lt, hd.slots_pos, hd.same.trans hsame⟩,
      Nat.le_refl _, Nat.le_refl _⟩, Bytes.size_overwrite ..⟩
  rintro _ ⟨e, q⟩ ⟨he, hq⟩
  dsimp only at he hq
  rcases hr : s.relocations with _ | t <;> dsimp only
  · exact Meets.bind (Meets.pure (P := fun sum w => Counted chunk 0 src d sum w.1 ∧
      w.2.capacity = p.capacity) ⟨he, hq⟩) fun _ _ h =>
        Meets.note_bind (Meets.pure ⟨h.1.mono (Nat.zero_le _), h.2⟩)
  · have hlength : (s.entries src.data).length = t.count := by simp [SectionInfo.entries_some hr]
    rw [hlength] at hlookups ⊢
    refine (relocateFrom_meets hs (hs.tables t hr) (hq ▸ hcapacity) (by omega) hlookups he
      (Nat.zero_le _) (by omega)).bind ?_
    exact fun sum w h => Meets.note_bind (Meets.pure ⟨h.1, h.2.trans hq⟩)

/-- Entries of all these sections. -/
def weight (src : Source) (sections : List SectionInfo) : Nat :=
  (sections.map fun s => (s.entries src.data).length).sum

lemma weight_cons (src : Source) (s : SectionInfo) (rest : List SectionInfo) :
    weight src (s :: rest) = (s.entries src.data).length + weight src rest := rfl

/-- **Copying a block.** -/
lemma copyAll_meets {o : Object} {offsets : List (SectionInfo × Nat)} {m stop : Nat} {sum : Tally}
    (hlinkable : ∀ q ∈ offsets, Linkable src c q.1 ∧ o.sections[q.1.index]? = some q.1)
    (hcapacity : p.capacity < sizeLimit) (hram : ram.offset + ram.len ≤ p.capacity)
    (hlaid : BlockLayout.Laid start stop offsets) (hstop : stop ≤ ram.len)
    (he : Counted chunk m src d sum e)
    (hroom : d.linker.lookups + (m + weight src (offsets.map (·.1))) < sizeLimit) :
    Meets (copyAll o c strict ram offsets sum) (Workshop.copyAll c strict ram offsets sum) (e, p)
      (fun sum w => Counted chunk (m + weight src (offsets.map (·.1))) src d sum w.1 ∧
        w.2.capacity = p.capacity) := by
  induction offsets generalizing start m sum e p with
  | nil => exact Meets.pure ⟨he, rfl⟩
  | cons q rest ih =>
    obtain ⟨s, offset⟩ := q
    obtain ⟨hs, hindex⟩ : Linkable src c s ∧ o.sections[s.index]? = some s := hlinkable _ (.head _)
    have hend : offset + s.size ≤ stop := hlaid.2.le
    have hlookups := he.2.2
    simp only [List.map_cons, weight_cons, ← Nat.add_assoc m] at hroom ⊢
    unfold copyAll Workshop.copyAll
    refine Meets.need_bind hindex ?_
    refine (copySection_meets hs hcapacity hram (by omega) he.1 (by omega)).bind ?_
    rintro done ⟨e1, q⟩ ⟨he1, hq⟩
    have hnext := he.add he1
    have htotal := hnext.2.1
    rw [Tally.total_add] at htotal
    refine Meets.need_bind (Tally.add?_eq (by omega)) ?_
    exact (ih (fun q hq => hlinkable q (.tail _ hq)) (hq ▸ hcapacity) (hq ▸ hram) hlaid.2 hnext
      hroom).mono fun _ _ h => ⟨h.1, h.2.trans hq⟩

lemma clear_runs (hcapacity : p.capacity < sizeLimit) {b : Block}
    (hram : b.ram.offset + b.ram.len ≤ p.capacity) : Runs (clear b) b.clear p :=
  Runs.met_bind (blockBytes_runs hcapacity hram) (runs_lift nofun)

end Guarded

end FlashLink
