import FlashLink.Proofs.GuardedReading
import FlashLink.Proofs.Reloading

/-!
Relocating with every demand spelled out. Every batch has an entry and fits in its buffer, the search for
a boundary comes to an end, every field lies in the chunk, and all that is counted fits in a word.

Counting needs an argument: a section may have as many chunks as words and each chunk looks at the whole
table, so the product of both bounds is no bound at all. But the field of an entry lies in one chunk at
most. What is counted is therefore bounded by the entries whose fields have been passed.
-/

namespace FlashLink

open Trial Relocation

namespace Tally

def total (t : Tally) : Nat := t.patched + t.skipped

def record? (t : Tally) : Applied → Option Tally
  | .patched => do return { t with patched := ← Word.add? t.patched 1 }
  | .skipped => do return { t with skipped := ← Word.add? t.skipped 1 }
  | .ignored => some t

def add? (t u : Tally) : Option Tally := do
  return ⟨← Word.add? t.patched u.patched, ← Word.add? t.skipped u.skipped⟩

variable {t u : Tally}

lemma record?_eq (h : t.total + 1 < sizeLimit) (a : Applied) : t.record? a = some (t.record a) := by
  rw [total] at h
  cases a with
  | patched => rw [record?, Word.add?_eq (by omega)]; rfl
  | ignored => rfl
  | skipped => rw [record?, Word.add?_eq (by omega)]; rfl

lemma total_record (t : Tally) (a : Applied) : (t.record a).total ≤ t.total + 1 := by
  cases a <;> simp only [record, total] <;> omega

lemma add?_eq (h : t.total + u.total < sizeLimit) : t.add? u = some (t.add u) := by
  rw [total, total] at h
  rw [add?, Word.add?_eq (by omega), Word.add?_eq (by omega)]
  rfl

lemma total_add (t u : Tally) : (t.add u).total = t.total + u.total := by
  simp only [add, total]
  omega

end Tally

namespace Guarded

/-! ### Batches -/

/-- The batch lies in the table and has an entry, and its bytes fit in the buffer. -/
def readBatch (t : RelocationTable) (first : Nat) : Trial Desk (List Relocation) := do
  let left ← Word.sub? t.count first
  let count := min (← get).scratch.batchSize left
  Trial.check (0 < count)
  let len ← Word.mul? count Relocation.width
  let offset ← Word.add? t.offset (← Word.mul? first Relocation.width)
  Trial.zoom Desk.rawPart (readInto 0 offset len)
  modify fun d => { d with scratch.batch := Desk.decodeBatch d.scratch.raw count }
  return (← get).scratch.batch

variable {β : Type}

/-- The fold ends at the end of the table, and not for lack of fuel. -/
def foldFrom (t : RelocationTable) (f : β → List Relocation → Trial Desk β) :
    Nat → Nat → β → Trial Desk β
  | 0, first, b => do
    Trial.check (t.count ≤ first)
    return b
  | fuel + 1, first, b => do
    if t.count ≤ first then return b
    let batch ← readBatch t first
    let next ← Word.add? first batch.length
    foldFrom t f fuel next (← f b batch)

def foldBatches (t : RelocationTable) (init : β) (f : β → List Relocation → Trial Desk β) :
    Trial Desk β :=
  foldFrom t f t.count 0 init

def checkFields (t : RelocationTable) (size : Nat) : Trial Desk Unit :=
  foldBatches t () fun _ batch =>
    match batch.find? fun r => decide (size < r.stop) with
    | some r => fail (.parse (.fieldOutsideSection r.start size))
    | none => return ()

/-! ### Chunk boundaries -/

/-- There is fuel until the boundary is found or known not to exist. -/
def boundaryFrom (t : RelocationTable) (start : Nat) : Nat → Nat → Trial Desk Nat
  | 0, _ => fun _ => none
  | fuel + 1, stop => do
    let low ← foldBatches t stop fun low batch => return Desk.lowest stop low batch
    if low = stop then return stop
    if low ≤ start then fail (.parse (.straddled stop))
    Trial.note (.chunkShortened stop low)
    boundaryFrom t start fuel low

def chunkEnd (s : SectionInfo) (start : Nat) : Trial Desk Nat := do
  let stop := min (← Word.add? start (← get).scratch.staging.size) s.size
  match s.relocations with
  | none => return stop
  | some t => if stop < s.size then boundaryFrom t start (stop - start) stop else return stop

/-! ### Entries -/

/-- The field is a slice of the buffer. -/
def apply (first : Nat) (base : Addr) (strict : Bool) (c : Scope) (r : Relocation) :
    Trial (Bytes × Linker) Applied := do
  let i := r.start - first
  unless first ≤ r.start && i + 4 ≤ (← get).1.size do
    fail (.parse (.fieldOutsideBuffer r.start))
  let _ ← (← get).1.span? i (i + 4)
  match r.kind with
  | .ignore => return .ignored
  | .absolute =>
    let target ← Trial.zoom Part.second (resolve c r.symbol)
    modify fun (buf, s) => (buf.overwrite i (absoluteField (buf.u32 i) target), s)
    return .patched
  | .call =>
    let target ← Trial.zoom Part.second (resolve c r.symbol)
    let buf := (← get).1
    match callField (buf.u16 i) (buf.u16 (i + 2)) target (base + r.offset) with
    | .error d => fail (.relocationRange r.start (Int32.ofInt d))
    | .ok field =>
      modify fun (buf, s) => (buf.overwrite i field, s)
      return .patched
  | .unsupported =>
    if strict then fail (.unsupportedRelocation r.type r.start)
    Trial.note (.relocationSkipped r.type r.start)
    return .skipped

def applyAll (first : Nat) (base : Addr) (strict : Bool) (c : Scope) :
    List Relocation → Tally → Trial (Bytes × Linker) Tally
  | [], t => return t
  | r :: rs, t => do
    if inside first (← get).1.size r then
      let done ← apply first base strict c r
      let sum ← t.record? done
      applyAll first base strict c rs sum
    else applyAll first base strict c rs t

def applyChunk (first : Nat) (base : Addr) (strict : Bool) (c : Scope) (rs : List Relocation) :
    Trial (Bytes × Linker) Tally := do
  let _ ← Word.add? first (← get).1.size
  applyAll first base strict c rs .zero

/-- The chunk is a slice of the chunk buffer. -/
def relocateChunk (c : Scope) (strict : Bool) (t : RelocationTable) (base : Addr) (start len : Nat) :
    Trial Desk Tally :=
  foldBatches t .zero fun sum batch => do
    let _ ← (← get).scratch.staging.span? 0 len
    let done ← Trial.zoom (Desk.chunkPart len) (applyChunk start base strict c batch)
    sum.add? done

/-- The padding is a slice of the chunk buffer. -/
def stageChunk (c : Scope) (strict : Bool) (s : SectionInfo) (base : Addr) (padding : UInt8)
    (start len : Nat) : Trial Desk Tally := do
  let padded ← Word.alignUp? len wordSize
  let _ ← (← get).scratch.staging.span? len padded
  modify fun d => { d with scratch.staging := d.scratch.staging.fill len (padded - len) padding }
  let offset ← Word.add? s.header.offset start
  Trial.zoom Desk.stagingPart (readInto 0 offset len)
  match s.relocations with
  | none => return .zero
  | some t => relocateChunk c strict t base start len

end Guarded

/-! ### Batches -/

/-- A desk at work on `src`: its buffers fit in memory, a batch has an entry, and the cache has slots. -/
structure Desk.Able (chunk : Nat) (src : Source) (d : Desk) : Prop where
  chunk_eq : d.scratch.staging.size = chunk
  batch_pos : 0 < d.scratch.batchSize
  raw_lt : d.scratch.raw.size < sizeLimit
  slots_pos : 0 < d.linker.cache.slots.size
  same : Source.Same src d.linker.source

lemma Desk.Able.reread {chunk : Nat} {src : Source} {d e : Desk} (h : d.Able chunk src)
    (hre : Desk.Reread d e) : e.Able chunk src :=
  ⟨hre.staging_eq ▸ h.1, hre.batchSize_eq ▸ h.2, hre.raw_size_eq ▸ h.3, hre.cache_eq ▸ h.4,
    h.5.trans hre.same⟩

namespace Guarded

variable {chunk : Nat} {src : Source} {t : RelocationTable} {d : Desk}

lemma readBatch_runs (ht : t.Short) (hd : d.Able chunk src) {first : Nat} (hfirst : first < t.count) :
    Runs (readBatch t first) (Desk.readBatch t first) d := by
  obtain ⟨-, hbatch, hraw, -, -⟩ := hd
  obtain ⟨⟨staging, raw, batch⟩, source, cache⟩ := d
  dsimp only at hbatch hraw
  have h1 := ht.offset_lt
  have h2 := ht.bytes_lt
  unfold readBatch Desk.readBatch
  refine Runs.need_bind (Word.sub?_eq (Nat.le_of_lt hfirst)) (Runs.get_bind ?_)
  dsimp only
  set count := min (Scratch.batchSize ⟨staging, raw, batch⟩) (t.count - first) with hcount
  have hlen : count * Relocation.width ≤ raw.size := by
    have h3 : count ≤ raw.size / Relocation.width := Nat.min_le_left ..
    have h4 := Nat.mul_le_mul_right Relocation.width h3
    have h5 := Nat.div_mul_le_self raw.size Relocation.width
    omega
  have hoffset : t.offset + first * Relocation.width < sizeLimit := by
    have := Nat.mul_le_mul_right Relocation.width (Nat.le_of_lt hfirst)
    rw [sizeLimit, UInt64.size]
    omega
  refine Runs.check_bind (by omega) (Runs.need_bind (Word.mul?_eq (by omega)) ?_)
  refine Runs.need_bind (Word.mul?_eq (by omega)) (Runs.need_bind (Word.add?_eq hoffset) ?_)
  refine Runs.bind_any (Runs.zoom (readInto_runs ?_ hraw)) fun _ _ => ?_
  · rwa [Nat.zero_add]
  · exact Runs.modify_bind (Runs.get_bind (runs_pure _))

/-- **Reading a batch.** It has an entry, and no more than are left. -/
lemma readBatch_meets (ht : t.Short) (hd : d.Able chunk src) {first : Nat} (hfirst : first < t.count) :
    Meets (readBatch t first) (Desk.readBatch t first) d (fun batch e => Desk.Reread d e ∧
      0 < batch.length ∧ first + batch.length ≤ t.count ∧
      batch = ((t.entries src.data).drop first).take batch.length) := by
  refine ⟨readBatch_runs ht hd hfirst, (Desk.readBatch_sat hd.same hd.batch_pos hfirst).mono ?_
    fun _ _ _ => trivial⟩
  rintro batch e ⟨hre, n, hpos, hn, rfl, -⟩
  have hlen : (((t.entries src.data).drop first).take n).length = n := by simp; omega
  rw [hlen]
  exact ⟨hre, hpos, hn, rfl⟩

lemma take_entries (t : RelocationTable) (src : Source) {n : Nat} (h : t.count ≤ n) :
    (t.entries src.data).take n = t.entries src.data := List.take_of_length_le (by simp; omega)

/-- The entries of a table can be counted. -/
lemma count_lt (ht : t.Short) : t.count < 2 ^ 29 := by
  have := ht.bytes_lt
  rw [Relocation.width] at this
  omega

variable {β : Type} {init : β} {f' : β → List Relocation → Trial Desk β}
  {f : β → List Relocation → Act Desk β}

/-- **A fold** is never stuck if its steps are not. `Inv` tells of the entries seen so far. -/
lemma foldBatches_meets (ht : t.Short) (Inv : List Relocation → β → Desk → Prop)
    (hable : ∀ seen b e, Inv seen b e → e.Able chunk src)
    (hread : ∀ seen b e e', Inv seen b e → Desk.Reread e e' → Inv seen b e')
    (hstep : ∀ seen batch b e, Inv seen b e → seen ++ batch <+: t.entries src.data →
      Meets (f' b batch) (f b batch) e fun b' e' => Inv (seen ++ batch) b' e')
    (hinit : Inv [] init d) :
    Meets (foldBatches t init f') (Desk.foldBatches t init f) d (Inv (t.entries src.data)) := by
  have hfold : ∀ (fuel first : Nat) (b : β) (e : Desk), first ≤ t.count → t.count ≤ first + fuel →
      Inv ((t.entries src.data).take first) b e →
      Meets (foldFrom t f' fuel first b) (Desk.foldFrom t f fuel first b) e
        (Inv (t.entries src.data)) := by
    intro fuel
    induction fuel with
    | zero =>
      intro first b e _ h2 hb
      rw [take_entries t src (n := first) h2] at hb
      exact Meets.check_bind h2 (Meets.pure hb)
    | succ fuel ih =>
      intro first b e h1 h2 hb
      unfold foldFrom Desk.foldFrom
      split_ifs with hend
      · rw [take_entries t src hend] at hb
        exact Meets.pure hb
      refine (readBatch_meets ht (hable _ _ _ hb) (by omega)).bind ?_
      rintro batch e' ⟨hre, hpos, hn, hbatch⟩
      have htake : (t.entries src.data).take first ++ batch =
          (t.entries src.data).take (first + batch.length) := by
        rw [List.take_add, ← hbatch]
      have hnext : first + batch.length < sizeLimit := by
        have := count_lt ht
        rw [sizeLimit, UInt64.size]
        omega
      refine Meets.need_bind (Word.add?_eq hnext) ?_
      refine (hstep _ _ _ _ (hread _ _ _ _ hb hre) (htake ▸ List.take_prefix ..)).bind ?_
      intro b' e'' hb''
      rw [htake] at hb''
      exact ih _ _ _ hn (by omega) hb''
  exact hfold t.count 0 init d (Nat.zero_le _) (by omega) (by simpa using hinit)

lemma checkFields_runs (ht : t.Short) (hd : d.Able chunk src) (size : Nat) :
    Runs (checkFields t size) (Desk.checkFields t size) d := by
  refine (foldBatches_meets ht (fun _ _ e => e.Able chunk src) (fun _ _ _ h => h)
    (fun _ _ _ _ h hre => h.reread hre) ?_ hd).runs
  intro seen batch b e he _
  generalize (batch.find? fun r => decide (size < r.stop)) = found
  cases found with
  | none => exact Meets.pure he
  | some r => exact Meets.fail nofun

/-! ### Chunk boundaries -/

/-- Each round lowers the boundary and leaves it above the start, so there are fewer rounds than bytes
of the chunk. -/
lemma boundaryFrom_runs (ht : t.Short) {start stop fuel : Nat} (hd : d.Able chunk src)
    (hlt : start < stop) (hfuel : stop - start ≤ fuel) :
    Runs (boundaryFrom t start fuel stop) (Desk.boundaryFrom t start fuel stop) d := by
  induction fuel generalizing stop d with
  | zero => omega
  | succ fuel ih =>
    have hfold : Meets (foldBatches t stop fun low batch => return Desk.lowest stop low batch)
        (Desk.foldBatches t stop fun low batch => return Desk.lowest stop low batch) d
        (fun low e => e.Able chunk src ∧ low ≤ stop) :=
      foldBatches_meets ht (fun _ low e => e.Able chunk src ∧ low ≤ stop) (fun _ _ _ h => h.1)
        (fun _ _ _ _ h hre => ⟨h.1.reread hre, h.2⟩)
        (fun _ batch low e h _ => Meets.pure ⟨h.1, Nat.le_trans (Bench.lowest_le stop low batch) h.2⟩)
        ⟨hd, Nat.le_refl _⟩
    unfold boundaryFrom Desk.boundaryFrom
    refine hfold.runs.bind hfold.sat ?_
    rintro low e ⟨he, hlow⟩
    split_ifs with h1 h2
    · exact runs_pure _
    · exact runs_fail_bind (by simp)
    · exact Runs.note_bind (ih he (by omega) (by omega))

lemma chunkEnd_runs {s : SectionInfo} (hs : ∀ t ∈ s.relocations, t.Short) {start : Nat}
    (hd : d.Able chunk src) (hpos : 0 < chunk) (hreach : start + chunk < sizeLimit) :
    Runs (chunkEnd s start) (Bench.chunkEnd s start) d := by
  have hstaging := hd.chunk_eq
  unfold chunkEnd Bench.chunkEnd
  refine Runs.get_bind (Runs.need_bind (Word.add?_eq (by omega)) ?_)
  dsimp only
  rcases hr : s.relocations with _ | t <;> dsimp only
  · exact runs_pure _
  · split_ifs
    · exact boundaryFrom_runs (hs t hr) hd (by omega) (Nat.le_refl _)
    · exact runs_pure _

/-! ### Entries -/

variable {first : Nat} {base : Addr} {strict : Bool} {c : Scope} {r : Relocation} {buf : Bytes}
  {l : Linker}

/-- **An entry** looks up one symbol at most. -/
lemma apply_meets (hc : c.symbols.Short) (hslots : 0 < l.cache.slots.size)
    (hroom : l.lookups + 1 < sizeLimit) :
    Meets (apply first base strict c r) (r.apply first base strict c.resolve) (buf, l)
      (fun _ u => u.1.size = buf.size ∧ l.Counted 1 u.2) := by
  have hresolve : Meets (Trial.zoom Part.second (resolve c r.symbol))
      (Act.zoom Part.second (c.resolve r.symbol)) (buf, l)
      (fun _ u => u.1 = buf ∧ l.Counted 1 u.2) :=
    Meets.zoom ⟨resolve_runs hc hslots hroom r.symbol, (resolve_counts c r.symbol l).mono
      (fun _ _ h => ⟨rfl, h⟩) fun _ _ _ => trivial⟩
  unfold apply Relocation.apply
  refine Meets.get_bind ?_
  by_cases hin : (decide (first ≤ r.start) && decide (r.start - first + 4 ≤ buf.size)) = true
  swap
  · rw [if_neg hin, if_neg hin]
    exact Meets.fail_bind nofun
  rw [if_pos hin, if_pos hin]
  obtain ⟨-, hfit⟩ : first ≤ r.start ∧ r.start - first + 4 ≤ buf.size := by simpa using hin
  refine Meets.peek_bind (Meets.need_bind (Bytes.span?_eq (by omega) hfit) ?_)
  cases r.kind with
  | ignore => exact Meets.pure ⟨rfl, .refl 1 l⟩
  | absolute =>
    refine hresolve.bind fun a u h => Meets.modify_bind (Meets.pure ⟨?_, h.2⟩)
    exact (Bytes.size_overwrite ..).trans (congrArg Array.size h.1)
  | call =>
    refine hresolve.bind fun target u h => Meets.get_bind ?_
    dsimp only
    cases callField (u.1.u16 (r.start - first)) (u.1.u16 (r.start - first + 2)) target
      (base + r.offset) with
    | error d => exact Meets.fail nofun
    | ok field =>
      exact Meets.modify_bind (Meets.pure
        ⟨(Bytes.size_overwrite ..).trans (congrArg Array.size h.1), h.2⟩)
  | unsupported =>
    dsimp only
    split_ifs
    · exact Meets.fail_bind nofun
    · exact Meets.note_bind (Meets.pure ⟨rfl, .refl 1 l⟩)

/-- Entries are counted by the fields that lie in the chunk. -/
lemma applyAll_meets {rs : List Relocation} {sum : Tally} (hc : c.symbols.Short)
    (hslots : 0 < l.cache.slots.size)
    (hlookups : l.lookups + rs.countP (inside first buf.size) < sizeLimit)
    (hsum : sum.total + rs.countP (inside first buf.size) < sizeLimit) :
    Meets (applyAll first base strict c rs sum) (Relocation.applyAll first base strict c.resolve rs sum)
      (buf, l) (fun t u => t.total ≤ sum.total + rs.countP (inside first buf.size) ∧
        u.1.size = buf.size ∧ l.Counted (rs.countP (inside first buf.size)) u.2) := by
  induction rs generalizing buf l sum with
  | nil => exact Meets.pure ⟨Nat.le_refl _, rfl, .refl 0 l⟩
  | cons r rs ih =>
    unfold applyAll Relocation.applyAll
    refine Meets.get_bind ?_
    dsimp only
    split_ifs with hin
    · rw [List.countP_cons_of_pos hin] at hlookups hsum ⊢
      refine (apply_meets hc hslots (by omega)).bind ?_
      rintro done ⟨buf', l'⟩ ⟨hsize, hcounted⟩
      dsimp only at hsize hcounted
      have hle := hcounted.lookups_le
      have htotal := Tally.total_record sum done
      refine Meets.need_bind (Tally.record?_eq (by omega) done) ?_
      refine (ih (hcounted.slots_eq ▸ hslots) (by rw [hsize]; omega) (by rw [hsize]; omega)).mono ?_
      rw [hsize]
      rintro t u ⟨htotal', hsize', hcounted'⟩
      exact ⟨by omega, hsize', Nat.add_comm 1 _ ▸ hcounted.trans hcounted'⟩
    · rw [List.countP_cons_of_neg hin] at hlookups hsum ⊢
      exact ih hslots hlookups hsum

/-- Relocating a chunk in a buffer counts the entries whose fields lie there. -/
lemma applyChunk_meets {rs : List Relocation} (hc : c.symbols.Short)
    (hslots : 0 < l.cache.slots.size) (hsize : first + buf.size < sizeLimit)
    (hlookups : l.lookups + rs.countP (inside first buf.size) < sizeLimit) :
    Meets (applyChunk first base strict c rs) (Relocation.applyChunk first base strict c.resolve rs)
      (buf, l) (fun t u => t.total ≤ rs.countP (inside first buf.size) ∧ u.1.size = buf.size ∧
        l.Counted (rs.countP (inside first buf.size)) u.2) := by
  unfold applyChunk Relocation.applyChunk
  refine Meets.get_bind (Meets.need_bind (Word.add?_eq hsize) ?_)
  dsimp only
  rw [if_neg (by omega)]
  have hzero : Tally.total .zero = 0 := rfl
  refine (applyAll_meets hc hslots hlookups (by omega)).mono ?_
  rintro t u ⟨htotal, h⟩
  exact ⟨by omega, h⟩

/-! ### Chunks -/

/-- An able desk, which since `d` has counted no more than `n` entries. -/
def Counted (chunk n : Nat) (src : Source) (d : Desk) (sum : Tally) (e : Desk) : Prop :=
  e.Able chunk src ∧ sum.total ≤ n ∧ e.linker.lookups ≤ d.linker.lookups + n

lemma counted_start (hd : d.Able chunk src) : Counted chunk 0 src d .zero d :=
  ⟨hd, Nat.le_refl _, Nat.le_refl _⟩

lemma Counted.reread {n : Nat} {sum : Tally} {e e' : Desk} (h : Counted chunk n src d sum e)
    (hre : Desk.Reread e e') : Counted chunk n src d sum e' := by
  refine ⟨h.1.reread hre, h.2.1, ?_⟩
  rw [Linker.lookups, hre.cache_eq]
  exact h.2.2

lemma Counted.mono {m n : Nat} {sum : Tally} {e : Desk} (h : Counted chunk m src d sum e)
    (hle : m ≤ n) : Counted chunk n src d sum e :=
  ⟨h.1, Nat.le_trans h.2.1 hle, Nat.le_trans h.2.2 (Nat.add_le_add_left hle _)⟩

/-- What has been counted one after the other is summed up. -/
lemma Counted.add {m n : Nat} {sum done : Tally} {e e' : Desk} (h : Counted chunk m src d sum e)
    (h' : Counted chunk n src e done e') : Counted chunk (m + n) src d (sum.add done) e' := by
  obtain ⟨-, h1, h2⟩ := h
  obtain ⟨h3, h4, h5⟩ := h'
  refine ⟨h3, ?_, by omega⟩
  rw [Tally.total_add]
  omega

/-- The next batch is relocated in the part of the desk that holds the chunk, and counted. -/
lemma countBatch {start len : Nat} {seen batch : List Relocation} {sum : Tally} {e : Desk}
    (hc : c.symbols.Short) (hlen : len ≤ chunk) (hsize : start + len < sizeLimit)
    (hroom : d.linker.lookups + (seen ++ batch).countP (inside start len) < sizeLimit)
    (he : Counted chunk (seen.countP (inside start len)) src d sum e) :
    Meets (Trial.zoom (Desk.chunkPart len) (applyChunk start base strict c batch))
      (Act.zoom (Desk.chunkPart len) (Relocation.applyChunk start base strict c.resolve batch)) e
      (fun done e' => Counted chunk (batch.countP (inside start len)) src e done e') := by
  obtain ⟨hable, -, hlookups⟩ := he
  rw [List.countP_append] at hroom
  have hslice : (e.scratch.staging.slice 0 len).size = len :=
    Bytes.size_slice_of_le (by rw [hable.chunk_eq]; omega)
  refine Meets.zoom ?_
  change Meets _ _ (e.scratch.staging.slice 0 len, e.linker) _
  refine (applyChunk_meets hc hable.slots_pos (by rw [hslice]; exact hsize)
    (by rw [hslice]; omega)).mono ?_
  rw [hslice]
  rintro done ⟨buf, l⟩ ⟨htotal, -, hcounted⟩
  refine ⟨⟨?_, hable.batch_pos, hable.raw_lt, ?_, hable.same.trans hcounted.same⟩, htotal,
    hcounted.lookups_le⟩
  · exact (Bytes.size_overwrite ..).trans hable.chunk_eq
  · exact Nat.lt_of_lt_of_eq hable.slots_pos hcounted.slots_eq.symm

/-- A part of the table has no more entries in the chunk than the table. -/
lemma countP_prefix_le {rs qs : List Relocation} (h : rs <+: qs) (start len : Nat) :
    rs.countP (inside start len) ≤ qs.countP (inside start len) := h.sublist.countP_le

/-- **Relocating a chunk** counts the entries whose fields lie in it. -/
lemma relocateChunk_meets {start len : Nat} (hc : c.symbols.Short) (ht : t.Short)
    (hd : d.Able chunk src) (hlen : len ≤ chunk) (hsize : start + len < sizeLimit)
    (hroom : d.linker.lookups + (t.entries src.data).countP (inside start len) < sizeLimit) :
    Meets (relocateChunk c strict t base start len) (Desk.relocateChunk c strict t base start len) d
      (Counted chunk ((t.entries src.data).countP (inside start len)) src d) := by
  refine foldBatches_meets ht
    (fun seen sum e => Counted chunk (seen.countP (inside start len)) src d sum e)
    (fun _ _ _ h => h.1) (fun _ _ _ _ h hre => h.reread hre) ?_ (counted_start hd)
  intro seen batch sum e he hprefix
  have hinner := countP_prefix_le hprefix start len
  have hslice : len ≤ e.scratch.staging.size := he.1.chunk_eq ▸ hlen
  refine Meets.peek_bind (Meets.need_bind (Bytes.span?_eq (Nat.zero_le _) hslice) ?_)
  refine (countBatch hc hlen hsize (by omega) he).bind fun done e' hdone => ?_
  have hsum := he.add hdone
  rw [← List.countP_append] at hsum
  have htotal := hsum.2.1
  rw [Tally.total_add] at htotal
  exact ⟨runs_need (Tally.add?_eq (by omega)), Act.sat_pure.2 hsum⟩

variable {s : SectionInfo} {padding : UInt8} {start len : Nat}

lemma fill_able (hd : d.Able chunk src) (n : Nat) :
    Desk.Able chunk src { d with scratch.staging := d.scratch.staging.fill len n padding } := by
  obtain ⟨hchunk, hbatch, hraw, hslots, hsame⟩ := hd
  exact ⟨(Bytes.size_fill ..).trans hchunk, hbatch, hraw, hslots, hsame⟩

/-- Reading the bytes of a chunk counts nothing. -/
lemma readChunk_meets (hd : d.Able chunk src) (hlen : len ≤ chunk) (hchunk : chunk < sizeLimit)
    (offset : Nat) :
    Meets (Trial.zoom Desk.stagingPart (readInto 0 offset len))
      (Act.zoom Desk.stagingPart (Source.readInto 0 offset len)) d
      (fun _ e => Counted chunk 0 src d .zero e) := by
  obtain ⟨⟨staging, raw, batch⟩, source, cache⟩ := d
  obtain ⟨hsize, hbatch, hraw, hslots, hsame⟩ := hd
  dsimp only at hsize
  refine Meets.zoom ⟨readInto_runs (by omega) (by omega),
    (Source.readInto_sat 0 offset len staging source).mono ?_ fun _ _ _ => trivial⟩
  rintro _ ⟨buf, source'⟩ ⟨-, hbuf, hsame'⟩
  dsimp only at hbuf
  subst hbuf
  exact ⟨⟨(Bytes.size_overwrite ..).trans hsize, hbatch, hraw, hslots, hsame.trans hsame'⟩,
    Nat.le_refl _, Nat.le_refl _⟩

/-- **Staging a chunk.** -/
lemma stageChunk_meets (hc : c.symbols.Short) (hs : ∀ t ∈ s.relocations, t.Short)
    (hd : d.Able chunk src) (hword : chunk % wordSize = 0) (hlen : len ≤ chunk)
    (hstart : start < s.size) (hreach : start + chunk < sizeLimit)
    (hroom : d.linker.lookups + (s.entries src.data).countP (inside start len) < sizeLimit) :
    Meets (stageChunk c strict s base padding start len)
      (Desk.stageChunk c strict s base padding start len) d
      (Counted chunk ((s.entries src.data).countP (inside start len)) src d) := by
  have hpad : alignUp len wordSize ≤ chunk :=
    alignUp_le (by decide) (Nat.dvd_of_mod_eq_zero hword) hlen
  have hle := le_alignUp len (a := wordSize) (by decide)
  have hoffset : s.header.offset + start < sizeLimit := by
    have h1 : s.header.offset < 2 ^ 32 := UInt32.toNat_lt _
    have h2 : s.size < 2 ^ 32 := UInt32.toNat_lt _
    rw [sizeLimit, UInt64.size]
    omega
  unfold stageChunk Desk.stageChunk
  refine Meets.need_bind (Word.alignUp?_eq (by decide) (by omega)) (Meets.peek_bind ?_)
  refine Meets.need_bind (Bytes.span?_eq hle (hd.chunk_eq ▸ hpad)) (Meets.modify_bind ?_)
  refine Meets.need_bind (Word.add?_eq hoffset) ?_
  refine (readChunk_meets (fill_able hd _) hlen (by omega) _).bind ?_
  rintro _ e ⟨he, -, hlookups⟩
  have hkept : e.linker.lookups ≤ d.linker.lookups := hlookups
  rcases hr : s.relocations with _ | t <;> dsimp only
  · exact Meets.pure ⟨he, Nat.zero_le _, Nat.le_trans hkept (Nat.le_add_right ..)⟩
  · rw [SectionInfo.entries_some hr] at hroom ⊢
    refine (relocateChunk_meets hc (hs t hr) he hlen (by omega)
      (Nat.lt_of_le_of_lt (Nat.add_le_add_right hkept _) hroom)).mono ?_
    exact fun sum e' h => ⟨h.1, h.2.1, Nat.le_trans h.2.2 (Nat.add_le_add_right hkept _)⟩

end Guarded

end FlashLink
