import FlashLink.Proofs.GuardedCopying
import FlashLink.Proofs.Histories

/-!
Loading with every demand spelled out: `Guarded.load` is the load that stops dead at a sum that does not
fit in a word, a difference below zero, an index or a slice out of bounds, a batch without entries, a chunk
without bytes, a write outside the span of its section, and a loop that does not end in time. It never
does, whatever the bytes are.
-/

namespace FlashLink

open Trial Relocation

namespace Guarded

/-! ### Inspecting -/

def checkTables : List SectionInfo → Trial Job Unit
  | [] => return ()
  | s :: rest => do
    if let some t := s.relocations then
      Trial.zoom Job.deskPart (checkFields t s.size)
    checkTables rest

def inspect (config : LoaderConfig) (name : String) : Trial Job (Object × SymbolTable) := do
  let object ← Trial.zoom Job.sourcePart (parse config)
  object.summary name |>.forM fun e => Trial.note e
  let symbols ← Trial.zoom Job.sourcePart (symbolTable object config)
  checkTables object.sections.toList
  return (object, symbols)

/-! ### Reserving -/

def reserveFlash : List SectionInfo → Trial Job (List (SectionInfo × FlashSpan))
  | [] => return []
  | s :: rest => do
    let span ← Trial.zoom Job.xipPart (reserveSpan s.size)
    return (s, span) :: (← reserveFlash rest)

def reserve (o : Object) : Trial Job Job.Reservation := do
  let flash ← reserveFlash o.inFlash
  let data ← Trial.zoom Job.poolPart (reserveBlock (o.ofClass .data))
  let bss ← Trial.zoom Job.poolPart (reserveBlock (o.ofClass .bss))
  return ⟨flash, data, bss⟩

/-! ### Committing -/

/-- Sections are looked up by index. -/
def streamAll (o : Object) (c : Scope) (strict : Bool) :
    List (SectionInfo × FlashSpan) → Tally → Trial Job Tally
  | [], sum => return sum
  | (s, span) :: rest, sum => do
    let s ← o.sections[s.index]?
    let done ← Trial.zoom Job.benchPart (stream c strict s span)
    streamAll o c strict rest (← sum.add? done)

def commit (o : Object) (c : Scope) (strict : Bool) (r : Job.Reservation) : Trial Job Tally := do
  let sum ← streamAll o c strict r.flash .zero
  let sum ← match r.data with
    | none => pure sum
    | some b => Trial.zoom Job.workshopPart (copyAll o c strict b.ram b.offsets sum)
  if let some b := r.bss then
    Trial.zoom Job.poolPart (clear b)
  return sum

/-! ### Loading -/

/-- The length of all spans. -/
def flashBytes : List (SectionInfo × FlashSpan) → Nat → Option Nat
  | [], n => some n
  | q :: rest, n => do flashBytes rest (← Word.add? n q.2.len)

def run (config : LoaderConfig) (name : String) (exports : Lookup) (entry : String) :
    Trial Job Image := do
  let (object, symbols) ← inspect config name
  let space ← reserve object
  let scope : Scope := ⟨symbols, space.placement object, exports⟩
  let sum ← commit object scope config.strict space
  let entry ← Trial.zoom Job.sourcePart (entryAddress scope entry)
  let sections := Job.placedSections object scope.placement
  let data := space.data.map (·.ram)
  let got := Job.gotBase sections data
  let flash ← flashBytes space.flash 0
  Trial.note (.moduleLoaded name flash sum.patched sum.skipped entry got)
  let cache := (← get).desk.linker.cache
  Trial.note (.cacheUsed cache.hits cache.misses)
  return { name, sections, data, bss := space.bss.map (·.ram), entry, gotBase := got }

/-- Loading a module, with everything demanded on the way. -/
def load (name : String) (exports : Lookup) (entry : String) : Trial Loader.State Image := do
  let config := (← get).loader.config
  Trial.zoom Loader.jobPart (run config name exports entry)

end Guarded

/-- Every place of the region and the pool that modules are loaded to is a word. -/
structure Context.Addressed (c : Context) : Prop where
  xip : c.xip.Addressed
  pool : c.pool.Addressed

/-- The buffers are in memory, with as much as 32 bits can say to spare. -/
structure Scratch.Addressed (s : Scratch) : Prop where
  staging_le : s.staging.size + 2 ^ 32 ≤ sizeLimit
  raw_le : s.raw.size + 2 ^ 32 ≤ sizeLimit

namespace Guarded

/-! ### Inspecting -/

variable {src : Source} {config : LoaderConfig} {chunk : Nat} {j : Job}

lemma notes_runs {σ : Type} (l : List Event) (s : σ) :
    Runs (l.forM fun e => Trial.note e) (l.forM fun e => Act.note e) s := by
  induction l with
  | nil => exact runs_pure _
  | cons e rest ih => exact Runs.note_bind ih

/-- What has been inspected has sizes of 32 bits. -/
lemma inspected_short {o : Object} {symbols : SymbolTable} (h : Job.Inspected config src o symbols) :
    o.Short ∧ symbols.Short := by
  refine ⟨(parse_short (.refl src) config).of_result h.parsed, ?_⟩
  have hsymbols : Act.Sat (o.symbolTable config) src (fun t _ => t.Short) fun _ _ => True := by
    unfold Object.symbolTable
    refine Act.Sat.bind (Object.readStrings_sat (.refl src) _ _) ?_ fun _ _ _ => trivial
    exact fun _ _ _ => ⟨UInt32.toNat_lt _,
      Nat.lt_of_le_of_lt (Nat.div_mul_le_self ..) (UInt32.toNat_lt _)⟩
  exact hsymbols.of_result h.symbols_eq

lemma checkTables_runs {sections : List SectionInfo} (hs : ∀ s ∈ sections, ∀ t ∈ s.relocations, t.Short)
    (hd : j.desk.Able chunk src) : Runs (checkTables sections) (Job.checkTables sections) j := by
  induction sections generalizing j with
  | nil => exact runs_pure _
  | cons s rest ih =>
    have hrest : ∀ j' : Job, j'.desk.Able chunk src →
        Runs (checkTables rest) (Job.checkTables rest) j' := fun j' =>
      ih fun q hq => hs q (.tail _ hq)
    unfold checkTables Job.checkTables
    rcases hr : s.relocations with _ | t <;> dsimp only
    · exact hrest j hd
    · refine (Runs.zoom (checkFields_runs (hs s (.head _) t hr) hd s.size)).bind
        (P := fun _ j' => j'.desk.Able chunk src) (E := fun _ _ => True) ?_ fun _ j' => hrest j'
      rw [Act.sat_zoom]
      exact (Desk.checkFields_sat hd.same hd.batch_pos).mono (fun _ _ h => hd.reread h.1)
        fun _ _ _ => trivial

/-- **Inspecting** is never stuck. -/
lemma inspect_runs (config : LoaderConfig) (name : String) (hd : j.desk.Able chunk src) :
    Runs (inspect config name) (Job.inspect config name) j := by
  unfold inspect Job.inspect
  refine (Runs.zoom (parse_runs config)).bind (Job.read_sat (Object.parse_steady config) hd.same) ?_
  rintro o j1 ⟨hparsed, hre1, -⟩
  have hshort := (parse_short (.refl src) config).of_result hparsed
  have hdescribes := ((Object.parse_sat (.refl src) config).of_result hparsed).2
  have hd1 := hd.reread hre1
  refine (notes_runs _ j1).bind
    (Job.notes_sat (P := fun _ j' => j' = j1) (E := fun _ _ => False) _ _ rfl) ?_
  rintro _ _ rfl
  refine (Runs.zoom (symbolTable_runs hdescribes)).bind
    (Job.read_sat (Object.symbolTable_steady o config) hd1.same) ?_
  rintro symbols j2 ⟨-, hre2, -⟩
  exact (checkTables_runs hshort.tables (hd1.reread hre2)).bind_any fun _ _ => runs_pure _

/-! ### Reserving -/

lemma reserveFlash_runs {sections : List SectionInfo} (hr : j.context.xip.Addressed) :
    Runs (reserveFlash sections) (Job.reserveFlash sections) j := by
  induction sections generalizing j with
  | nil => exact runs_pure _
  | cons s rest ih =>
    unfold reserveFlash Job.reserveFlash
    refine (Runs.zoom (reserveSpan_runs hr (size_lt s))).bind
      (P := fun _ j' => j'.context.xip.Addressed) (E := fun _ _ => True) ?_
      fun _ j' hr' => (ih hr').bind_any fun _ _ => runs_pure _
    refine Act.sat_zoom.2 ((Region.reserve_sat s.size _).mono ?_ fun _ _ _ => trivial)
    rintro span _ ⟨rfl, hle, rfl⟩
    exact (Region.grown_reserved 0 hle).addressed hr

/-- The pool stays in memory when a block has been reserved. -/
lemma given_addressed {sections : List SectionInfo} {p p' : Pool} {b : Option Block}
    (h : Block.Given sections p p' b) (hp : p.Addressed) (hpos : ∀ s ∈ sections, 0 < s.size) :
    p'.Addressed := by
  cases b with
  | none => exact h.2 ▸ hp
  | some b =>
    have hfits := h.fits hpos
    have hcapacity := hp.capacity_le
    obtain ⟨-, -, -, -, -, -, rfl⟩ := h
    exact ⟨hp.capacity_le, by dsimp only; omega⟩

lemma length_filter_lt {o : Object} (ho : o.Short) (f : SectionInfo → Bool) :
    (o.sections.toList.filter f).length < 2 ^ 16 := by
  refine Nat.lt_of_le_of_lt (List.length_filter_le ..) ?_
  rw [Array.length_toList]
  exact ho.sections_lt

/-- **Reserving** is never stuck. -/
lemma reserve_runs {o : Object} (ho : o.Short) (hr : j.context.xip.Addressed)
    (hp : j.context.pool.Addressed)
    (hpos : ∀ s ∈ o.sections.toList, s.cls.isSome → 0 < s.size) :
    Runs (reserve o) (Job.reserve o) j := by
  unfold reserve Job.reserve
  refine (reserveFlash_runs hr).bind (Job.reserveFlash_sat o.inFlash j) ?_
  rintro flash j1 ⟨-, -, -, hj1⟩
  have hp1 : j1.context.pool.Addressed := by
    rw [hj1]
    exact ⟨hp.capacity_le, hp.used_le⟩
  refine (Runs.zoom (reserveBlock_runs hp1 (length_filter_lt ho _))).bind
    (P := fun _ j' => j'.context.pool.Addressed) (E := fun _ _ => True) ?_ ?_
  · refine Act.sat_zoom.2 ((Block.reserve_given _ _).mono ?_ fun _ _ _ => trivial)
    intro b p' hgiven
    refine given_addressed hgiven hp1 fun s hs => ?_
    obtain ⟨hmem, hcls⟩ := List.mem_filter.1 hs
    exact hpos s hmem (by rw [eq_of_beq hcls]; rfl)
  · intro data j2 hp2
    exact (Runs.zoom (reserveBlock_runs hp2 (length_filter_lt ho _))).bind_any fun _ _ => runs_pure _

/-! ### Committing -/

variable {c : Scope} {strict : Bool} {o : Object} {d : Desk}

/-- **Streaming** all sections. -/
lemma streamAll_meets {flash : List (SectionInfo × FlashSpan)} {k n m : Nat} {sum : Tally}
    (hlinkable : ∀ q ∈ flash, Linkable src c q.1 ∧ o.sections[q.1.index]? = some q.1)
    (hword : chunk % wordSize = 0) (hpos : 0 < chunk) (hreach : chunk + 2 ^ 32 ≤ sizeLimit)
    (hr : j.context.xip.Addressed) (hspans : j.context.xip.Spans k n flash)
    (hn : n ≤ j.context.xip.partition.size) (he : Counted chunk m src d sum j.desk)
    (hroom : d.linker.lookups + (m + weight src (flash.map (·.1))) < sizeLimit) :
    Meets (streamAll o c strict flash sum) (Job.streamAll c strict flash sum) j
      (fun sum j' => Counted chunk (m + weight src (flash.map (·.1))) src d sum j'.desk ∧
        j'.context.pool = j.context.pool) := by
  induction flash generalizing k m sum j with
  | nil => exact Meets.pure ⟨he, rfl⟩
  | cons q rest ih =>
    obtain ⟨s, span⟩ := q
    obtain ⟨hs, hindex⟩ : Linkable src c s ∧ o.sections[s.index]? = some s := hlinkable _ (.head _)
    obtain ⟨hspan, hrest⟩ := hspans
    have hend := hrest.le
    have hhouses : Bench.Houses s span j.context.xip := by
      refine ⟨hr, ?_, ?_, ?_⟩ <;> rw [hspan] at *
      · exact Nat.mod_eq_zero_of_dvd (dvd_alignUp _ _ hr.sound.sector_pos)
      · exact le_alignUp _ hr.sound.sector_pos
      · exact Nat.le_trans hend hn
    have hlookups := he.2.2
    simp only [List.map_cons, weight_cons, ← Nat.add_assoc m] at hroom ⊢
    unfold streamAll Job.streamAll
    refine Meets.need_bind hindex ?_
    refine Meets.bind (P := fun done j' => Counted chunk (s.entries src.data).length src j.desk done
        j'.desk ∧ Region.Written (fun _ => True) j.context.xip j'.context.xip ∧
        j'.context.pool = j.context.pool) (Meets.zoom ?_) ?_
    · exact (stream_meets hs hword hpos hreach (by omega) he.1 hhouses).mono
        fun _ _ h => ⟨h.1, h.2, rfl⟩
    rintro done j1 ⟨hdone, hw, hpool⟩
    have hnext := he.add hdone
    have htotal := hnext.2.1
    rw [Tally.total_add] at htotal
    refine Meets.need_bind (Tally.add?_eq (by omega)) ?_
    refine (ih (fun q hq => hlinkable q (.tail _ hq)) (hw.addressed hr)
      (hrest.congr hw.sector_eq hw.partition_eq) (hw.partition_eq ▸ hn) hnext hroom).mono ?_
    exact fun _ _ h => ⟨h.1, h.2.trans hpool⟩

/-- Every section has fewer entries than 29 bits can say. -/
lemma weight_le {sections : List SectionInfo} (h : ∀ s ∈ sections, ∀ t ∈ s.relocations, t.Short) :
    weight src sections ≤ sections.length * 2 ^ 29 := by
  induction sections with
  | nil => exact Nat.zero_le _
  | cons s rest ih =>
    have hentries : (s.entries src.data).length ≤ 2 ^ 29 := by
      rw [SectionInfo.entries]
      rcases hr : s.relocations with _ | t
      · exact Nat.zero_le _
      · simpa using Nat.le_of_lt (count_lt (h s (.head _) t hr))
    have hrest := ih fun q hq => h q (.tail _ hq)
    rw [weight_cons, List.length_cons, Nat.add_mul]
    omega

/-- What has been inspected can be linked, and its sections are found by index. -/
lemma inspected_linkable {symbols : SymbolTable} (h : Job.Inspected config src o symbols)
    (hc : c.symbols = symbols) {s : SectionInfo} (hs : s ∈ o.sections.toList) :
    Linkable src c s ∧ o.sections[s.index]? = some s := by
  obtain ⟨hshort, hsymbols⟩ := inspected_short h
  refine ⟨⟨hc ▸ hsymbols, hshort.tables s hs, (h.tables s hs).held⟩, ?_⟩
  obtain ⟨i, hi⟩ := List.mem_iff_getElem?.1 hs
  rw [Array.getElem?_toList] at hi
  rwa [h.describes.index_eq i s hi]

/-- All sections of an object have fewer entries than 45 bits can say. -/
lemma weight_filter_le (ho : o.Short) (f : SectionInfo → Bool) :
    weight src (o.sections.toList.filter f) ≤ 2 ^ 45 := by
  have hweight : weight src (o.sections.toList.filter f) ≤ _ :=
    weight_le fun s hs => ho.tables s (List.mem_filter.1 hs).1
  have hlength := Nat.mul_le_mul_right (2 ^ 29) (Nat.le_of_lt (length_filter_lt ho f))
  exact Nat.le_trans hweight (Nat.le_trans hlength (by decide))

/-- Clearing the last block, if there is one, is never stuck. -/
lemma clearLast_runs (space : Job.Reservation) (hp : j.context.pool.capacity < sizeLimit)
    (hbss : ∀ b ∈ space.bss, b.ram.offset + b.ram.len ≤ j.context.pool.capacity) (sum : Tally) :
    Runs (do
      if let some b := space.bss then
        Trial.zoom Job.poolPart (clear b)
      return sum) (Job.clearLast space sum) j := by
  unfold Job.clearLast
  rcases hb : space.bss with _ | b <;> dsimp only
  · exact runs_pure _
  · exact (Runs.zoom (clear_runs (p := j.context.pool) hp (hbss b hb))).bind_any fun _ _ => runs_pure _

/-- **Committing** is never stuck. -/
lemma commit_runs {space : Job.Reservation} {symbols : SymbolTable} {e : Context}
    (hinspected : Job.Inspected config src o symbols) (hc : c.symbols = symbols)
    (hreserved : Job.Reserved e o space j.context) (hword : chunk % wordSize = 0) (hpos : 0 < chunk)
    (hreach : chunk + 2 ^ 32 ≤ sizeLimit) (hr : e.xip.Addressed) (hp : e.pool.capacity < sizeLimit)
    (hd : j.desk.Able chunk src) (hfresh : j.desk.linker.lookups = 0) :
    Runs (commit o c strict space) (Job.commit c strict space) j := by
  have hshort := (inspected_short hinspected).1
  have hr' : j.context.xip.Addressed :=
    ⟨hreserved.sound hr.sound, hreserved.xip_eq ▸ hr.device_lt, hreserved.sector_eq ▸ hr.sector_lt⟩
  obtain ⟨hdata, hbss, -⟩ := hreserved.housed
  have hposs : ∀ cls, ∀ s ∈ o.ofClass cls, 0 < s.size := fun cls s hs => by
    obtain ⟨hmem, hcls⟩ := List.mem_filter.1 hs
    exact hinspected.describes.size_pos hmem (by rw [eq_of_beq hcls]; rfl)
  have hlinkable : ∀ {f : SectionInfo → Bool}, ∀ s ∈ o.sections.toList.filter f,
      Linkable src c s ∧ o.sections[s.index]? = some s := fun s hs =>
    inspected_linkable hinspected hc (List.mem_filter.1 hs).1
  have hflash : weight src (space.flash.map (·.1)) ≤ 2 ^ 45 := by
    rw [hreserved.sections_eq]
    exact weight_filter_le hshort _
  have hroom : j.desk.linker.lookups + (0 + weight src (space.flash.map (·.1))) < sizeLimit := by
    rw [hfresh, sizeLimit, UInt64.size]
    omega
  have hstream : Meets (streamAll o c strict space.flash .zero)
      (Job.streamAll c strict space.flash .zero) j _ :=
    streamAll_meets (fun q hq => hlinkable q.1 (hreserved.sections_eq ▸ List.mem_map_of_mem hq)) hword
      hpos hreach hr' (hreserved.spans.congr hreserved.sector_eq hreserved.partition_eq)
      (hreserved.partition_eq ▸ hreserved.room hr.sound.free_le) (counted_start hd) hroom
  have hclear := fun (sum : Tally) (j' : Job) (hj' : j'.context.pool.capacity = e.pool.capacity) =>
    clearLast_runs space (hj' ▸ hp) (fun b hb => hj' ▸ (hbss b hb).fits (hposs _)) sum
  unfold commit Job.commit
  refine hstream.runs.bind hstream.sat ?_
  rintro sum j1 ⟨hsum, hpool⟩
  have hcapacity1 : j1.context.pool.capacity = e.pool.capacity := by rw [hpool, hreserved.capacity_eq]
  rcases hd : space.data with _ | b <;> dsimp only
  · exact Runs.pure_bind (hclear sum j1 hcapacity1)
  · have hhoused := hdata b hd
    have hweight : weight src (b.offsets.map (·.1)) ≤ 2 ^ 45 := by
      rw [hhoused.sections_eq]
      exact weight_filter_le hshort _
    have hcopy : Meets (Trial.zoom Job.workshopPart (copyAll o c strict b.ram b.offsets sum))
        (Act.zoom Job.workshopPart (Workshop.copyAll c strict b.ram b.offsets sum)) j1
        (fun _ j' => j'.context.pool.capacity = e.pool.capacity) := by
      refine Meets.zoom ((copyAll_meets (p := j1.context.pool) (e := j1.desk) ?_ (hcapacity1 ▸ hp)
        (hcapacity1 ▸ hhoused.fits (hposs _)) hhoused.laid (Nat.le_refl _) hsum ?_).mono ?_)
      · exact fun q hq => hlinkable q.1 (hhoused.sections_eq ▸ List.mem_map_of_mem hq)
      · rw [hfresh, sizeLimit, UInt64.size]
        omega
      · exact fun _ _ h => h.2.trans hcapacity1
    exact hcopy.runs.bind hcopy.sat hclear

/-! ### Loading -/

/-- All spans together are no longer than the partition. -/
lemma flashBytes_eq {r : Region} {k n m : Nat} {flash : List (SectionInfo × FlashSpan)}
    (h : r.Spans k n flash) (hm : m + (n - k) < sizeLimit) :
    flashBytes flash m = some (flash.foldl (fun n q => n + q.2.len) m) := by
  induction flash generalizing k m with
  | nil => rfl
  | cons q rest ih =>
    have hle := h.2.le
    rw [flashBytes, Word.add?_eq (by omega), Option.bind_eq_bind, Option.bind_some]
    exact ih h.2 (by omega)

lemma run_runs {name entry : String} {exports : Lookup}
    (hword : chunk % wordSize = 0) (hpos : 0 < chunk)
    (hreach : chunk + 2 ^ 32 ≤ sizeLimit) (hd : j.desk.Able chunk src)
    (hfresh : j.desk.linker.lookups = 0) (hc : j.context.Addressed) :
    Runs (run config name exports entry) (Job.run config name exports entry) j := by
  unfold run Job.run
  refine (inspect_runs config name hd).bind (Job.inspect_sat name hd.same hd.batch_pos) ?_
  rintro ⟨o, symbols⟩ j1 ⟨hinspected, hre, hc1⟩
  obtain ⟨hshort, hsymbols⟩ := inspected_short hinspected
  dsimp only
  refine (reserve_runs hshort (hc1 ▸ hc.xip) (hc1 ▸ hc.pool) fun s hs hcls =>
    hinspected.describes.size_pos hs hcls).bind (Job.reserve_sat o j1) ?_
  rintro space j2 ⟨hreserved, hdesk⟩
  have hlookups : j2.desk.linker.lookups = 0 := by
    rw [hdesk, Linker.lookups, hre.cache_eq]
    exact hfresh
  refine (commit_runs hinspected rfl hreserved hword hpos hreach (hc1 ▸ hc.xip) ?_
    (hdesk ▸ hd.reread hre) hlookups).bind_any fun sum j3 => ?_
  · have := hc.pool.capacity_le
    rw [hc1]
    omega
  refine (Runs.zoom (entryAddress_runs hsymbols entry)).bind_any fun a j4 => ?_
  have hbytes : flashBytes space.flash 0 = some (space.flash.foldl (fun n q => n + q.2.len) 0) := by
    have hxip : j1.context.xip.Addressed := hc1 ▸ hc.xip
    have hroom := hreserved.room hxip.sound.free_le
    have hfits := hxip.sound.fits
    have hdevice := hxip.device_lt
    exact flashBytes_eq hreserved.spans (by omega)
  exact Runs.need_bind hbytes (Runs.note_bind (Runs.get_bind (Runs.note_bind (runs_pure _))))

/-- **Loading** is never stuck. -/
lemma load_runs {name entry : String} {exports : Lookup} {s : Loader.State} (hl : s.loader.Sized)
    (hbuffers : s.loader.scratch.Addressed) (hc : s.context.Addressed) :
    Runs (load name exports entry) (Loader.load name exports entry) s := by
  obtain ⟨⟨config, scratch⟩, source, context⟩ := s
  have hstaging : scratch.staging.size = config.chunkSize := hl.staging_size
  have hreach : config.chunkSize + 2 ^ 32 ≤ sizeLimit := hstaging ▸ hbuffers.staging_le
  have hraw := hbuffers.raw_le
  unfold load Loader.load
  have hable : Desk.Able config.chunkSize source ⟨scratch, ⟨source, .create config.cacheSlots⟩⟩ := by
    refine ⟨hstaging, hl.batch, ?_, ?_, .refl _⟩
    · change scratch.raw.size < sizeLimit
      dsimp only at hraw
      omega
    · change 0 < (SymbolCache.create config.cacheSlots).slots.size
      rw [SymbolCache.create, Array.size_replicate]
      omega
  exact Runs.get_bind (Runs.zoom (run_runs hl.chunk.1 hl.chunk.2 hreach hable rfl hc))

end Guarded

end FlashLink
