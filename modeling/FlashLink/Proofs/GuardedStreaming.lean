import FlashLink.Proofs.GuardedLinking

/-!
Streaming to flash with every demand spelled out. Sizes and places are words, chunks are slices of the
chunk buffer and end after they start, and every write lies in the span of its section.

The device behind the region is asked for whole sectors and words at a place that is a word; what a device
counts besides is its own affair.
-/

namespace FlashLink

open Trial Relocation

namespace Guarded

/-! ### Regions -/

/-- The size in whole sectors, the free space and, where there is room, the end of the span are words. -/
def reserveSpan (size : Nat) : Trial Region FlashSpan := do
  let r ← get
  let len ← Word.alignUp? size r.sector
  let free ← Word.sub? r.partition.size r.nextFree
  if len ≤ free then
    let _ ← Word.add? r.nextFree len
  Region.reserve size

/-- Bytes of the partition have a place in the device, and so has their end. -/
def locate (offset len : Nat) : Trial Region Unit := do
  let r ← get
  if offset + len ≤ r.partition.size then
    let place ← Word.add? r.partition.offset offset
    let _ ← Word.add? place len

/-- There are sectors to erase. -/
def eraseSpan (span : FlashSpan) : Trial Region Unit := do
  Trial.check (0 < (← get).sector)
  locate span.offset span.len
  Trial.act (Act.ofOp (Region.erase span))

/-- What is written `start` bytes into a span ends in the span. -/
def writeSpan (span : FlashSpan) (start : Nat) (data : Bytes) : Trial Region Unit := do
  let offset ← Word.add? span.offset start
  Trial.check (offset + data.size ≤ span.offset + span.len)
  locate offset data.size
  Trial.act (Act.ofOp (Region.write offset data))

/-! ### Sections -/

/-- Chunks end after they start, and there are chunks until the section ends. -/
def streamFrom (c : Scope) (strict : Bool) (s : SectionInfo) (span : FlashSpan) :
    Nat → Nat → Nat → Tally → Trial Bench (Nat × Tally)
  | 0, start, chunks, sum => do
    Trial.check (s.size ≤ start)
    return (chunks, sum)
  | fuel + 1, start, chunks, sum => do
    if s.size ≤ start then return (chunks, sum)
    let stop ← Trial.zoom Part.first (chunkEnd s start)
    Trial.check (start < stop)
    let len ← Word.sub? stop start
    let padding := (← get).2.device.reported
    let done ← Trial.zoom Part.first (stageChunk c strict s span.addr padding start len)
    let staging := (← get).1.scratch.staging
    let padded ← Word.alignUp? len wordSize
    let _ ← staging.span? 0 padded
    Trial.zoom Part.second (writeSpan span start (staging.slice 0 padded))
    let chunks ← Word.add? chunks 1
    streamFrom c strict s span fuel stop chunks (← sum.add? done)

def stream (c : Scope) (strict : Bool) (s : SectionInfo) (span : FlashSpan) : Trial Bench Tally := do
  Trial.zoom Part.second (eraseSpan span)
  let (chunks, sum) ← streamFrom c strict s span s.size 0 0 .zero
  Trial.note (.sectionStreamed s.name span.addr s.size chunks sum.patched)
  return sum

end Guarded

/-! ### Regions -/

namespace Region

/-- A sound region in which every place of the device is a word. -/
structure Addressed (r : Region) : Prop where
  sound : r.Sound
  device_lt : r.device.size < sizeLimit
  sector_lt : r.sector < sizeLimit

variable {F : Nat → Prop} {r r' : Region}

lemma Edited.addressed (h : Edited F r r') (hr : r.Addressed) : r'.Addressed := by
  have hsize : r'.device.size = r.device.size := h.same.size_eq.symm
  exact ⟨h.sound hr.sound, hsize ▸ hr.device_lt, h.sector_eq ▸ hr.sector_lt⟩

/-- A size of 32 bits in whole sectors is a word, however large the sectors are. -/
lemma Addressed.alignUp_lt (hr : r.Addressed) {size : Nat} (hsize : size < 2 ^ 32) :
    alignUp size r.sector < sizeLimit := by
  have hpos := hr.sound.sector_pos
  have hlt := FlashLink.alignUp_lt size hpos
  have hsector := hr.sector_lt
  rw [sizeLimit, UInt64.size] at *
  by_cases h : r.sector < 2 ^ 32
  · omega
  · exact Nat.lt_of_le_of_lt (alignUp_le hpos (Nat.dvd_refl _) (by omega)) hsector

lemma reserve_unbroken {size : Nat} (h : alignUp size r.sector < sizeLimit) :
    Trial.Unbroken (reserve size r).result := by
  unfold reserve
  dsimp only
  rw [if_neg (Nat.not_le.2 h)]
  split_ifs <;> exact nofun

lemma erase_unbroken (s : FlashSpan) (r : Region) : Trial.Unbroken (Act.ofOp (erase s) r).result :=
  Trial.unbroken_of_sat (Act.sat_ofOp.2 ((erase_raises s r).mono (fun _ _ h => h)
    fun _ _ ⟨_, he⟩ => he ▸ nofun))

lemma write_unbroken (offset : Nat) (data : Bytes) (r : Region) :
    Trial.Unbroken (Act.ofOp (write offset data) r).result :=
  Trial.unbroken_of_sat (Act.sat_ofOp.2 ((write_raises offset data r).mono (fun _ _ h => h)
    fun _ _ ⟨_, he⟩ => he ▸ nofun))

end Region

namespace Guarded

variable {r : Region}

/-- Reserving is not stuck where the rounded size is a word. -/
lemma reserveSpan_runs_of_lt (hr : r.Addressed) {size : Nat} (hlt : alignUp size r.sector < sizeLimit) :
    Runs (reserveSpan size) (Region.reserve size) r := by
  have hfree := hr.sound.free_le
  have hfits := hr.sound.fits
  have hdevice := hr.device_lt
  unfold reserveSpan
  refine Runs.peek_bind (Runs.need_bind (Word.alignUp?_eq hr.sound.sector_pos hlt)
    (Runs.need_bind (Word.sub?_eq hfree) ?_))
  dsimp only
  split_ifs
  · exact Runs.need_bind (Word.add?_eq (by omega)) (runs_lift (Region.reserve_unbroken hlt))
  · exact runs_lift (Region.reserve_unbroken hlt)

lemma reserveSpan_runs (hr : r.Addressed) {size : Nat} (hsize : size < 2 ^ 32) :
    Runs (reserveSpan size) (Region.reserve size) r :=
  reserveSpan_runs_of_lt hr (hr.alignUp_lt hsize)

lemma locate_bind (hr : r.Addressed) {offset len : Nat} {y : Act Region Unit}
    {f : Unit → Trial Region Unit} (h : Runs (f ()) y r) : Runs (locate offset len >>= f) y r := by
  have hfits := hr.sound.fits
  have hdevice := hr.device_lt
  refine Runs.met_bind (a := ()) ?_ h
  unfold locate
  refine Runs.peek_bind ?_
  split_ifs
  · exact Runs.need_bind (Word.add?_eq (by omega))
      (Runs.need_bind (Word.add?_eq (by omega)) (runs_pure _))
  · exact runs_pure _

lemma eraseSpan_runs (hr : r.Addressed) (span : FlashSpan) :
    Runs (eraseSpan span) (Act.ofOp (Region.erase span)) r :=
  Runs.peek_bind (Runs.check_bind hr.sound.sector_pos (locate_bind hr
    (runs_act (Region.erase_unbroken span r))))

lemma writeSpan_runs (hr : r.Addressed) {span : FlashSpan} {start : Nat} {data : Bytes}
    (hspan : span.offset + span.len ≤ r.partition.size) (hdata : start + data.size ≤ span.len) :
    Runs (writeSpan span start data) (Act.ofOp (Region.write (span.offset + start) data)) r := by
  have hfits := hr.sound.fits
  have hdevice := hr.device_lt
  unfold writeSpan
  exact Runs.need_bind (Word.add?_eq (by omega))
    (Runs.check_bind (by omega) (locate_bind hr (runs_act (Region.write_unbroken _ data r))))

end Guarded

/-! ### Sections -/

namespace Bench

/-- The span has been reserved for the section. Failures may be armed. -/
structure Houses (s : SectionInfo) (span : FlashSpan) (r : Region) : Prop where
  region : r.Addressed
  len_aligned : span.len % r.sector = 0
  size_le : s.size ≤ span.len
  inside : span.offset + span.len ≤ r.partition.size

variable {s : SectionInfo} {span : FlashSpan} {r r' : Region} {F : Nat → Prop}

lemma Houses.written (h : Houses s span r) (hw : Region.Written F r r') : Houses s span r' :=
  ⟨hw.addressed h.1, hw.sector_eq ▸ h.2, h.3, hw.partition_eq ▸ h.4⟩

/-- The last word of the section can be filled up. -/
lemma Houses.room {start len : Nat} (h : Houses s span r) (hword : start % wordSize = 0)
    (hle : start + len ≤ s.size) : start + alignUp len wordSize ≤ span.len :=
  add_alignUp_le (by decide) hword hle h.size_le (Nat.mod_eq_zero_of_dvd
    (Nat.dvd_trans h.region.sound.word_dvd_sector (Nat.dvd_of_mod_eq_zero h.len_aligned)))

end Bench

/-- Entries whose fields end up to offset `stop` of the section. -/
def SectionInfo.passed (s : SectionInfo) (src : Source) (stop : Nat) : Nat :=
  (s.entries src.data).countP fun r => decide (r.stop ≤ stop)

/-- No field lies in two chunks. -/
lemma SectionInfo.passed_add_le (s : SectionInfo) (src : Source) (start len : Nat) :
    s.passed src start + (s.entries src.data).countP (inside start len) ≤
      s.passed src (start + len) := by
  unfold passed
  induction s.entries src.data with
  | nil => exact Nat.le_refl _
  | cons r rs ih =>
    have hinside : inside start len r = true ↔ start ≤ r.start ∧ r.stop ≤ start + len := by
      simp [inside]
    have hstop : r.stop = r.start + 4 := rfl
    simp only [List.countP_cons, decide_eq_true_eq, hinside]
    split_ifs <;> omega

namespace Guarded

variable {chunk : Nat} {src : Source} {c : Scope} {strict : Bool} {s : SectionInfo}
  {span : FlashSpan} {d : Desk} {r : Region}

/-- What linking asks of a section. -/
structure Linkable (src : Source) (c : Scope) (s : SectionInfo) : Prop where
  symbols : c.symbols.Short
  tables : ∀ t ∈ s.relocations, t.Short
  held : s.TableHeld src

lemma size_lt (s : SectionInfo) : s.size < 2 ^ 32 := UInt32.toNat_lt _

/-- The end of a chunk. -/
lemma chunkEnd_meets (hs : Linkable src c s) {start : Nat} (hd : d.Able chunk src)
    (hword : chunk % wordSize = 0) (hpos : 0 < chunk) (hroom : chunk + 2 ^ 32 ≤ sizeLimit)
    (hstart : start % wordSize = 0) (hlt : start < s.size) :
    Meets (chunkEnd s start) (Bench.chunkEnd s start) d (fun stop e => Desk.Reread d e ∧
      start < stop ∧ stop ≤ s.size ∧ stop ≤ start + chunk ∧ (stop < s.size → stop % wordSize = 0)) := by
  have hsize := size_lt s
  have hchunk := hd.chunk_eq
  refine ⟨chunkEnd_runs hs.tables hd hpos (by omega), ?_⟩
  refine (Bench.chunkEnd_sat hs.held hd.same hd.batch_pos (hchunk ▸ hword) (hchunk ▸ hpos) hstart
    hlt).mono ?_ fun _ _ _ => trivial
  rw [hchunk]
  exact fun stop e ⟨hre, h1, h2, h3, h4, _⟩ => ⟨hre, h1, h2, h3, fun h => (h4 h).2.1⟩

/-- **Streaming** from a chunk on. What is counted is counted since desk `d`. -/
lemma streamFrom_meets (hs : Linkable src c s) (hword : chunk % wordSize = 0) (hpos : 0 < chunk)
    (hroom : chunk + 2 ^ 32 ≤ sizeLimit)
    (hlookups : d.linker.lookups + (s.entries src.data).length < sizeLimit)
    {fuel start chunks : Nat} {sum : Tally} {e : Desk} (he : Counted chunk (s.passed src start) src d sum e)
    (hr : Bench.Houses s span r) (hstart : start < s.size → start % wordSize = 0)
    (hchunks : chunks ≤ start) (hfuel : s.size ≤ start + fuel) :
    Meets (streamFrom c strict s span fuel start chunks sum)
      (Bench.streamFrom c strict s span fuel start chunks sum) (e, r)
      (fun a t => Counted chunk (s.entries src.data).length src d a.2 t.1 ∧
        Region.Written (fun _ => True) r t.2) := by
  have hsize := size_lt s
  induction fuel generalizing start chunks sum e r with
  | zero =>
    exact Meets.check_bind (by omega) (Meets.pure ⟨he.mono List.countP_le_length, .refl _ r⟩)
  | succ fuel ih =>
    unfold streamFrom Bench.streamFrom
    split_ifs with hover
    · exact Meets.pure ⟨he.mono List.countP_le_length, .refl _ r⟩
    -- the end of the chunk
    refine Meets.bind (P := fun stop t => r = t.2 ∧ Desk.Reread e t.1 ∧ start < stop ∧
        stop ≤ s.size ∧ stop ≤ start + chunk ∧ (stop < s.size → stop % wordSize = 0))
      (Meets.zoom ((chunkEnd_meets hs he.1 hword hpos hroom (hstart (by omega)) (by omega)).mono
        fun _ _ h => ⟨rfl, h⟩)) ?_
    rintro stop ⟨e1, _⟩ ⟨rfl, hre, hlt, hle, hreach, hstop⟩
    obtain ⟨len, rfl⟩ : ∃ len, stop = start + len := ⟨stop - start, by omega⟩
    have he1 : Counted chunk (s.passed src start) src d sum e1 := he.reread hre
    have hpassed := s.passed_add_le src start len
    have hall : s.passed src (start + len) ≤ (s.entries src.data).length := List.countP_le_length
    have hcounted := he1.2.2
    refine Meets.check_bind hlt (Meets.need_bind (Word.sub?_eq (by omega)) (Meets.get_bind ?_))
    rw [Nat.add_sub_cancel_left]
    -- its bytes
    refine Meets.bind (P := fun done t => r = t.2 ∧
        Counted chunk (s.passed src (start + len)) src d (sum.add done) t.1)
      (Meets.zoom ((stageChunk_meets hs.symbols hs.tables he1.1 hword (by omega) (by omega) (by omega)
        (by omega)).mono fun _ _ h => ⟨rfl, (he1.add h).mono hpassed⟩)) ?_
    rintro done ⟨e2, _⟩ ⟨rfl, he2⟩
    have hpad : alignUp len wordSize ≤ chunk :=
      alignUp_le (by decide) (Nat.dvd_of_mod_eq_zero hword) (by omega)
    have hdata : (e2.scratch.staging.slice 0 (alignUp len wordSize)).size = alignUp len wordSize :=
      Bytes.size_slice_of_le (by rw [he2.1.chunk_eq]; omega)
    refine Meets.get_bind (Meets.need_bind (Word.alignUp?_eq (by decide) (by omega)) ?_)
    refine Meets.need_bind (Bytes.span?_eq (Nat.zero_le _) (he2.1.chunk_eq ▸ hpad)) ?_
    -- the write
    refine Meets.bind (P := fun _ t => t.1 = e2 ∧ Region.Written (fun _ => True) r t.2)
      (Meets.zoom ⟨writeSpan_runs hr.region hr.inside ?_, Act.sat_ofOp.2
        ((Region.write_written _ (fun _ _ _ => trivial) r).mono (fun _ _ h => ⟨rfl, h⟩)
          fun _ _ _ => trivial)⟩) ?_
    · rw [hdata]
      exact hr.room (hstart (by omega)) hle
    rintro _ ⟨_, r'⟩ ⟨rfl, hw⟩
    have hsum := he2.2.1
    rw [Tally.total_add] at hsum
    refine Meets.need_bind (Word.add?_eq (by omega)) (Meets.need_bind (Tally.add?_eq (by omega)) ?_)
    exact (ih he2 (hr.written hw) hstop (by omega) (by omega)).mono
      fun _ _ h => ⟨h.1, hw.trans h.2⟩

/-- **Streaming a section.** -/
lemma stream_meets (hs : Linkable src c s) (hword : chunk % wordSize = 0) (hpos : 0 < chunk)
    (hroom : chunk + 2 ^ 32 ≤ sizeLimit)
    (hlookups : d.linker.lookups + (s.entries src.data).length < sizeLimit) (hd : d.Able chunk src)
    (hr : Bench.Houses s span r) :
    Meets (stream c strict s span) (Bench.stream c strict s span) (d, r)
      (fun sum t => Counted chunk (s.entries src.data).length src d sum t.1 ∧
        Region.Written (fun _ => True) r t.2) := by
  unfold stream Bench.stream
  refine Meets.bind (P := fun _ t => t.1 = d ∧ Region.Written (fun _ => True) r t.2)
    (Meets.zoom ⟨eraseSpan_runs hr.region span, Act.sat_ofOp.2
      ((Region.erase_written (fun _ _ _ => trivial) r).mono (fun _ _ h => ⟨rfl, h⟩)
        fun _ _ _ => trivial)⟩) ?_
  rintro _ ⟨_, r'⟩ ⟨rfl, hw⟩
  have hstart := (counted_start hd).mono (Nat.zero_le (s.passed src 0))
  refine (streamFrom_meets hs hword hpos hroom hlookups hstart (hr.written hw) (fun _ => rfl)
    (Nat.le_refl 0) (by omega)).bind ?_
  exact fun a t h => Meets.note_bind (Meets.pure ⟨h.1, hw.trans h.2⟩)

end Guarded

end FlashLink
