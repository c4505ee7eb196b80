import FlashLink.Proofs.Boundaries
import FlashLink.Proofs.Regions

/-!
Streaming a section to flash. What ends up in flash is the section linked as a whole, whatever the size
of the chunks; and streaming succeeds exactly if the source holds the section, the whole section can be
linked, and every chunk finds a cut within reach.
-/

namespace FlashLink

open Act Relocation

/-- Sections can be cut into chunks of that size: from every cut the next one, or the end, is within
reach. -/
def Relocation.Divisible (rs : List Relocation) (chunk size start : Nat) : Prop :=
  ∀ a, start ≤ a → Cut rs a → a + chunk < size → ∃ b, Cut rs b ∧ a < b ∧ b ≤ a + chunk

/-- The first chunk leaves a section that is cut into the same further chunks. -/
lemma Relocation.divisible_step {rs : List Relocation} {chunk size start stop : Nat}
    (hlt : start < stop) (hreach : stop ≤ start + chunk) (hcut : stop < size → Cut rs stop) :
    Divisible rs chunk size start ↔ Divisible rs chunk size stop := by
  constructor
  · exact fun h a ha => h a (by omega)
  · intro h a ha hacut hshort
    rcases Nat.lt_or_ge a stop with hlt | hge
    · exact ⟨stop, hcut (by omega), hlt, by omega⟩
    · exact h a hge hacut hshort

/-- The `len` bytes of the section from `start` on, as the source has them, are `out` once linked. -/
def SectionInfo.Links (s : SectionInfo) (src : Source) (base : Addr) (strict : Bool) (rule : Rule)
    (start len : Nat) (out : Bytes) : Prop :=
  src.Holds (s.header.offset + start) len ∧
    linkAll start base strict rule (s.entries src.data)
      (src.data.slice (s.header.offset + start) len) = .ok out

/-- The chunk buffer has `chunk` bytes, a batch has an entry, and the linker is ready. -/
structure Desk.Ready (chunk : Nat) (c : Scope) (src : Source) (d : Desk) : Prop where
  chunk_eq : d.scratch.staging.size = chunk
  batch_pos : 0 < d.scratch.batchSize
  linker : d.linker.Ready c src

/-- An empty cache is coherent with any scope. -/
lemma Desk.ready_of_empty {chunk : Nat} {c : Scope} {src : Source} {d : Desk}
    (hchunk : d.scratch.staging.size = chunk) (hbatch : 0 < d.scratch.batchSize)
    (hsrc : Source.Same src d.linker.source) (hempty : ∀ i, d.linker.cache.find? i = none) :
    d.Ready chunk c src := by
  refine ⟨hchunk, hbatch, hsrc, fun i a hi => ?_⟩
  rw [hempty] at hi
  cases hi

lemma Desk.Ready.reread {chunk : Nat} {c : Scope} {src : Source} {d e : Desk}
    (h : d.Ready chunk c src) (hre : Desk.Reread d e) : e.Ready chunk c src :=
  ⟨hre.staging_eq ▸ h.chunk_eq, hre.batchSize_eq ▸ h.batch_pos, hre.ready h.linker⟩

namespace SectionInfo

variable {s : SectionInfo} {src : Source} {base : Addr} {strict : Bool} {rule : Rule}
  {start m n : Nat} {out : Bytes}

lemma Links.size_eq (h : s.Links src base strict rule start m out) : out.size = m := by
  rw [size_linkAll h.2]
  rcases Nat.eq_zero_or_pos m with rfl | hm
  · simp
  · exact Bytes.size_slice_of_le (h.1 hm)

lemma Links.unique {out' : Bytes} (h : s.Links src base strict rule start m out)
    (h' : s.Links src base strict rule start m out') : out = out' := by
  have := h.2.symm.trans h'.2
  cases this
  rfl

lemma links_empty : s.Links src base strict rule start 0 #[] := by
  refine ⟨fun h => by omega, ?_⟩
  rw [Bytes.slice_zero_size]
  exact linkAll_empty

/-- Both sides of a cut are linked by themselves. The end of the section need not be a cut. -/
lemma links_split (hm : 0 < m) (hcut : 0 < n → Cut (s.entries src.data) (start + m)) :
    s.Links src base strict rule start (m + n) out ↔
      ∃ l r, s.Links src base strict rule start m l ∧
        s.Links src base strict rule (start + m) n r ∧ out = l ++ r := by
  rcases Nat.eq_zero_or_pos n with rfl | hn
  · -- nothing follows
    constructor
    · exact fun h => ⟨out, #[], h, links_empty, by simp⟩
    · rintro ⟨l, r, hl, hr, rfl⟩
      have hr0 := Array.eq_empty_of_size_eq_zero hr.size_eq
      simpa [hr0] using hl
  have hstraddle := (hcut hn).2
  have hholds : src.Holds (s.header.offset + start) (m + n) ↔
      src.Holds (s.header.offset + start) m ∧ src.Holds (s.header.offset + (start + m)) n := by
    simp only [Source.Holds]
    omega
  constructor
  · rintro ⟨h, hlink⟩
    obtain ⟨hl, hr⟩ := hholds.1 h
    have hsize := Bytes.size_slice_of_le (hl hm)
    rw [← Bytes.slice_append_slice (hl hm)] at hlink
    obtain ⟨l, r, h1, h2, h3⟩ := (linkAll_split (by rw [hsize]; exact hstraddle)).1 hlink
    rw [hsize, Nat.add_assoc] at h2
    exact ⟨l, r, ⟨hl, h1⟩, ⟨hr, h2⟩, h3⟩
  · rintro ⟨l, r, ⟨hl, h1⟩, ⟨hr, h2⟩, rfl⟩
    have hsize := Bytes.size_slice_of_le (hl hm)
    refine ⟨hholds.2 ⟨hl, hr⟩, ?_⟩
    rw [← Bytes.slice_append_slice (hl hm)]
    refine (linkAll_split (by rw [hsize]; exact hstraddle)).2 ⟨l, r, h1, ?_, rfl⟩
    rw [hsize, Nat.add_assoc]
    exact h2

end SectionInfo

namespace Desk

variable {chunk : Nat} {c : Scope} {src : Source} {d : Desk} {strict : Bool} {base : Addr}
  {start len : Nat}

/-- A batch of relocations links the bytes in the chunk buffer. -/
lemma applyChunk_links (hd : d.Ready chunk c src) (hlen : len ≤ chunk) (hsize : start + len < sizeLimit)
    (batch : List Relocation) :
    Sat (zoom (chunkPart len) (Relocation.applyChunk start base strict c.resolve batch)) d
      (fun _ e => e.Ready chunk c src ∧ ∃ out,
        linkAll start base strict (c.rule src) batch (d.scratch.staging.slice 0 len) = .ok out ∧
        e.scratch.staging = d.scratch.staging.overwrite 0 out)
      (fun _ _ => ∃ err,
        linkAll start base strict (c.rule src) batch (d.scratch.staging.slice 0 len) = .error err) := by
  have hslice : (d.scratch.staging.slice 0 len).size = len :=
    Bytes.size_slice_of_le (by rw [hd.chunk_eq]; omega)
  rw [sat_zoom]
  refine (applyChunk_sat (fun i l hl => Scope.resolve_yields i hl) hd.linker
    (show start + (d.scratch.staging.slice 0 len).size < sizeLimit by omega)).mono ?_ ?_
  · rintro _ ⟨buf, l⟩ ⟨hbuf, hl⟩
    exact ⟨⟨(Bytes.size_overwrite ..).trans hd.chunk_eq, hd.batch_pos, hl⟩, buf, hbuf, rfl⟩
  · rintro err _ ⟨hbuf, -⟩
    exact ⟨err, hbuf⟩

/-- Relocating a chunk batch by batch links the bytes in the chunk buffer. -/
lemma relocateChunk_sat {t : RelocationTable} (hd : d.Ready chunk c src) (hheld : t.Held src)
    (hlen : len ≤ chunk) (hsize : start + len < sizeLimit) :
    Sat (relocateChunk c strict t base start len) d
      (fun _ e => e.Ready chunk c src ∧ ∃ out,
        linkAll start base strict (c.rule src) (t.entries src.data)
          (d.scratch.staging.slice 0 len) = .ok out ∧
        e.scratch.staging = d.scratch.staging.overwrite 0 out)
      (fun _ _ => ¬ ∃ out, linkAll start base strict (c.rule src) (t.entries src.data)
        (d.scratch.staging.slice 0 len) = .ok out) := by
  have hfit : 0 + len ≤ d.scratch.staging.size := by rw [hd.chunk_eq]; omega
  have hslice := Bytes.size_slice_of_le hfit
  refine (foldBatches_sat src
    (fun seen _ e => e.Ready chunk c src ∧ ∃ out,
      linkAll start base strict (c.rule src) seen (d.scratch.staging.slice 0 len) = .ok out ∧
      e.scratch.staging = d.scratch.staging.overwrite 0 out) ?_ ?_ ?_ ?_ ?_).mono
    (fun _ _ h => h.1) fun _ _ h => h
  · exact fun seen _ e h => ⟨h.1.batch_pos, h.1.linker.same⟩
  · rintro seen _ e e' ⟨he, out, hout, hstaging⟩ hre
    exact ⟨he.reread hre, out, hout, hre.staging_eq.trans hstaging⟩
  · exact fun h => absurd hheld h
  · rintro seen batch sum e ⟨he, out, hout, hstaging⟩ hprefix
    have hosize : out.size = len := (size_linkAll hout).trans hslice
    have hchunk : e.scratch.staging.slice 0 len = out := by
      rw [hstaging]
      exact Bytes.slice_overwrite hosize hfit
    have happend : linkAll start base strict (c.rule src) (seen ++ batch)
        (d.scratch.staging.slice 0 len) = linkAll start base strict (c.rule src) batch out := by
      rw [linkAll_append, hout]
      rfl
    refine (applyChunk_links he hlen hsize batch).bind ?_ ?_ <;> rw [hchunk]
    · rintro _ e' ⟨he', out', hout', hstaging'⟩
      refine ⟨he', out', happend.trans hout', ?_⟩
      rw [hstaging', hstaging, Bytes.overwrite_overwrite _ _ (size_linkAll hout').symm]
    · rintro _ _ ⟨err, herr⟩ ⟨whole, hwhole⟩
      obtain ⟨b, hb⟩ := linkAll_of_prefix hprefix hwhole
      rw [happend, herr] at hb
      cases hb
  · exact ⟨hd, _, linkAll_nil, (Bytes.overwrite_slice _ hfit).symm⟩

/-- A staged chunk is the linked bytes of the section, followed by padding up to the next word. -/
lemma stageChunk_sat {s : SectionInfo} {padding : UInt8} (hd : d.Ready chunk c src)
    (hheld : s.TableHeld src) (hword : chunk % wordSize = 0) (hpos : 0 < len) (hlen : len ≤ chunk)
    (hsize : start + len < sizeLimit) :
    Sat (stageChunk c strict s base padding start len) d
      (fun _ e => e.Ready chunk c src ∧ ∃ out,
        s.Links src base strict (c.rule src) start len out ∧
        e.scratch.staging.slice 0 (alignUp len wordSize) =
          out ++ Array.replicate (alignUp len wordSize - len) padding)
      (fun _ _ => ¬ ∃ out, s.Links src base strict (c.rule src) start len out) := by
  obtain ⟨⟨staging, raw, batch⟩, source, cache⟩ := d
  have hchunk : staging.size = chunk := hd.chunk_eq
  have halign : alignUp len wordSize ≤ chunk :=
    alignUp_le (by decide) (Nat.dvd_of_mod_eq_zero hword) hlen
  have hle := le_alignUp len (a := wordSize) (by decide)
  unfold stageChunk
  refine Sat.modify_bind ?_
  set filled := staging.fill len (alignUp len wordSize - len) padding with hfilled
  have hfsize : filled.size = chunk := (Bytes.size_fill ..).trans hchunk
  set file := src.data.slice (s.header.offset + start) len with hfile
  refine Sat.bind (P := fun _ e => e.Ready chunk c src ∧
      src.Holds (s.header.offset + start) len ∧ e.scratch.staging = filled.overwrite 0 file)
    (G := fun _ _ => ¬ src.Holds (s.header.offset + start) len) ?_ ?_ fun _ _ h h' => h h'.choose_spec.1
  · rw [sat_zoom]
    refine (Source.readInto_holds hd.linker.same 0 _ hpos filled).mono ?_ fun _ _ h => h
    rintro _ ⟨buf, source'⟩ ⟨hholds, rfl, hsame⟩
    exact ⟨⟨(Bytes.size_overwrite ..).trans hfsize, hd.batch_pos, hsame, hd.linker.coherent⟩, hholds, rfl⟩
  rintro _ e ⟨he, hholds, hstaging⟩
  have hfilesize : file.size = len := Bytes.size_slice_of_le (hholds hpos)
  have hfit : 0 + len ≤ filled.size := by omega
  have hfirst : e.scratch.staging.slice 0 len = file := by
    rw [hstaging]
    exact Bytes.slice_overwrite hfilesize hfit
  -- whatever is linked goes over the file bytes and leaves the padding
  have hpadded : ∀ out : Bytes, out.size = len →
      (e.scratch.staging.overwrite 0 out).slice 0 (alignUp len wordSize) =
        out ++ Array.replicate (alignUp len wordSize - len) padding := by
    intro out hout
    rw [hstaging, Bytes.overwrite_overwrite _ _ (hfilesize.trans hout.symm), hfilled]
    exact Bytes.slice_padded hout hle (by omega)
  rcases hr : s.relocations with _ | t <;> dsimp only
  · refine sat_pure.2 ⟨he, file, ⟨hholds, by rw [SectionInfo.entries_none hr]; rfl⟩, ?_⟩
    rw [← hpadded file hfilesize]
    congr 1
    rw [hstaging, Bytes.overwrite_overwrite _ _ rfl]
  · have hentries := SectionInfo.entries_some hr src.data
    refine (relocateChunk_sat he (hheld t hr) hlen hsize).mono ?_ ?_
    · rintro _ e' ⟨he', out, hout, hstaging'⟩
      rw [hfirst] at hout
      refine ⟨he', out, ⟨hholds, hentries ▸ hout⟩, ?_⟩
      rw [hstaging']
      exact hpadded out ((size_linkAll hout).trans hfilesize)
    · rintro _ _ h ⟨out, -, hout⟩
      rw [hentries] at hout
      exact h ⟨out, by rw [hfirst]; exact hout⟩

end Desk

namespace Bench

variable {chunk : Nat} {c : Scope} {src : Source} {strict : Bool} {s : SectionInfo} {span : FlashSpan}

/-! ### One chunk after the other -/

section Rules

variable {scope : Scope} {d : Desk} {r : Region} {G : Error → Bench → Prop}

/-- From `start` on there is nothing left to do, or one chunk is prepared and written, and then the rest. Only
the write has to do with the region. -/
lemma streamFrom_rule {fuel start chunks : Nat} {sum : Tally} {P : Nat × Tally → Bench → Prop}
    (hover : s.size ≤ start → P (chunks, sum) (d, r))
    (hchunk : start < s.size → Sat (chunkEnd s start) d
      (fun stop d₁ => Sat (Desk.stageChunk scope strict s span.addr r.device.reported start (stop - start)) d₁
        (fun done d₂ => Op.Sat (Region.write (span.offset + start)
            (d₂.scratch.staging.slice 0 (alignUp (stop - start) wordSize))) r
          (fun _ r' => Sat (streamFrom scope strict s span fuel stop (chunks + 1) (sum.add done)) (d₂, r') P G)
          fun e r' => G e (d₂, r'))
        fun e d₂ => G e (d₂, r))
      fun e d₁ => G e (d₁, r)) :
    Sat (streamFrom scope strict s span (fuel + 1) start chunks sum) (d, r) P G := by
  unfold streamFrom
  split_ifs with hle
  · exact sat_pure.2 (hover hle)
  refine Sat.seq (sat_zoom.2 ((hchunk (Nat.not_le.1 hle)).mono (fun stop d₁ hstage => ?_) fun _ _ h => h))
  refine Sat.get_bind (Sat.seq (sat_zoom.2 (hstage.mono (fun done d₂ hwrite => ?_) fun _ _ h => h)))
  exact Sat.get_bind (Sat.seq (sat_zoom.2 (sat_ofOp.2 hwrite)))

/-- The span is erased before the first chunk. -/
lemma stream_rule {P : Tally → Bench → Prop}
    (h : Op.Sat (Region.erase span) r
      (fun _ r' => Sat (streamFrom scope strict s span s.size 0 0 .zero) (d, r') (fun p => P p.2) G)
      fun e r' => G e (d, r')) :
    Sat (stream scope strict s span) (d, r) P G := by
  unfold stream
  refine Sat.seq (sat_zoom.2 (sat_ofOp.2 (h.mono (fun _ r' hfrom => ?_) fun _ _ h => h)))
  exact hfrom.bind (fun _ _ h => Sat.note_bind (sat_pure.2 h)) fun _ _ h => h

end Rules

/-! ### Spans -/

/-- A span that whole sectors have been reserved for, large enough for the section. -/
structure Fits (s : SectionInfo) (span : FlashSpan) (r : Region) : Prop where
  sound : r.Sound
  unarmed : r.Unarmed
  start_aligned : span.offset % r.sector = 0
  len_aligned : span.len % r.sector = 0
  size_le : s.size ≤ span.len
  inside : span.offset + span.len ≤ r.partition.size

lemma Fits.touched {k : Nat} {r r' : Region} (h : Fits s span r) (ht : Region.Touched k r r') :
    Fits s span r' :=
  ⟨ht.sound h.1, ht.unarmed h.2, ht.sector_eq ▸ h.3, ht.sector_eq ▸ h.4, h.5,
    ht.partition_eq ▸ h.6⟩

/-- Words of the section are at words of the partition. -/
lemma Fits.word {r : Region} {start : Nat} (h : Fits s span r) (hword : start % wordSize = 0) :
    (span.offset + start) % wordSize = 0 := by
  have := Nat.mod_eq_zero_of_dvd (Nat.dvd_trans h.sound.word_dvd_sector
    (Nat.dvd_of_mod_eq_zero h.start_aligned))
  rw [wordSize] at *
  omega

/-- There is room to fill up the last word of the section. -/
lemma Fits.room {r : Region} {start len : Nat} (h : Fits s span r) (hword : start % wordSize = 0)
    (hle : start + len ≤ s.size) : start + alignUp len wordSize ≤ span.len := by
  exact add_alignUp_le (by decide) hword hle h.size_le (Nat.mod_eq_zero_of_dvd
    (Nat.dvd_trans h.sound.word_dvd_sector (Nat.dvd_of_mod_eq_zero h.len_aligned)))

/-- The bytes of the span from section offset `start` on are erased. -/
def ErasedFrom (span : FlashSpan) (start : Nat) (r : Region) : Prop :=
  ∀ i, span.offset + start ≤ i → i < span.offset + span.len →
    r.device.contents[r.partition.offset + i]? = some erasedByte

/-- Erasing a span of whole sectors succeeds and leaves all of it erased. -/
lemma eraseSpan_sat {r : Region} (hr : r.Sound) (hu : r.Unarmed) (hoff : span.offset % r.sector = 0)
    (hlen : span.len % r.sector = 0) (hle : span.offset + span.len ≤ r.partition.size) :
    Op.Sat (Region.erase span) r
      (fun _ r' => Region.Touched span.offset r r' ∧ ErasedFrom span 0 r') (fun _ _ => False) := by
  refine (Region.erase_sat hr hu hoff hlen hle).mono ?_ fun _ _ h => h
  rintro _ r' ⟨stats, rfl⟩
  refine ⟨Region.written_updateSpan (fun _ h _ => h) hle, fun i h1 h2 => ?_⟩
  have hdev : r.partition.offset + r.partition.size ≤ r.device.contents.size := hr.fits
  change (r.device.contents.fill _ _ _)[r.partition.offset + i]? = _
  rw [Bytes.getElem?_fill, if_pos (by omega), Array.getElem?_eq_getElem (by omega)]
  rfl

/-- Words are written where the span is erased; past them the span stays erased. -/
lemma writeWords_sat {r : Region} {data : Bytes} {start : Nat} (hr : r.Sound) (hu : r.Unarmed)
    (hoff : (span.offset + start) % wordSize = 0) (hlen : data.size % wordSize = 0)
    (hle : start + data.size ≤ span.len) (hin : span.offset + span.len ≤ r.partition.size)
    (herased : ErasedFrom span start r) :
    Op.Sat (Region.write (span.offset + start) data) r
      (fun _ r' => Region.Touched (span.offset + start) r r' ∧
        r'.bytes (span.offset + start) data.size = data ∧ ErasedFrom span (start + data.size) r')
      (fun _ _ => False) := by
  refine (Region.write_sat hr hu hoff hlen (by omega) fun i h1 h2 => herased i h1 (by omega)).mono ?_
    fun _ _ h => h
  rintro _ r' ⟨stats, rfl⟩
  refine ⟨Region.written_updateSpan (fun _ h _ => h) (by omega), ?_, fun i h1 h2 => ?_⟩
  · have hdev : r.partition.offset + r.partition.size ≤ r.device.contents.size := hr.fits
    exact Bytes.slice_overwrite rfl (by omega)
  · change (r.device.contents.overwrite _ data)[r.partition.offset + i]? = _
    rw [Bytes.getElem?_overwrite, if_neg (by omega)]
    exact herased i (by omega) h2

/-- A padded chunk is written where the span is erased; past a cut the span stays erased. -/
lemma writeChunk_sat {r : Region} {out : Bytes} {start len : Nat} {padding : UInt8}
    (hfits : Fits s span r) (hword : start % wordSize = 0) (herased : ErasedFrom span start r)
    (hsize : out.size = len) (hle : start + len ≤ s.size) :
    Op.Sat (Region.write (span.offset + start)
        (out ++ Array.replicate (alignUp len wordSize - len) padding)) r
      (fun _ r' => Region.Touched (span.offset + start) r r' ∧
        r'.bytes (span.offset + start) len = out ∧
        (len % wordSize = 0 → ErasedFrom span (start + len) r'))
      (fun _ _ => False) := by
  set data := out ++ Array.replicate (alignUp len wordSize - len) padding with hdata
  have halign := le_alignUp len (a := wordSize) (by decide)
  have hdsize : data.size = alignUp len wordSize := by
    rw [hdata, Array.size_append, Array.size_replicate]
    omega
  refine (writeWords_sat hfits.sound hfits.unarmed (hfits.word hword) ?_ ?_ hfits.inside
    herased).mono ?_ fun _ _ h => h
  · rw [hdsize]
    exact Nat.mod_eq_zero_of_dvd (dvd_alignUp len wordSize (by decide))
  · rw [hdsize]
    exact hfits.room hword hle
  rintro _ r' ⟨htouched, hbytes, hrest⟩
  refine ⟨htouched, ?_, fun hlen => ?_⟩
  · have hfirst : data.slice 0 len = out := by
      rw [hdata, Bytes.slice_append_left (by omega), ← hsize, Bytes.slice_whole]
    have hslice := Bytes.slice_slice r'.device.contents
      (s := r'.partition.offset + (span.offset + start)) (show 0 + len ≤ data.size by omega)
    rw [Region.bytes] at hbytes
    rw [hbytes, hfirst] at hslice
    exact hslice.symm
  · rw [hdsize, alignUp_eq (by decide) hlen] at hrest
    exact hrest

/-- Where streaming from section offset `start` on may end. -/
def Streamed (chunk : Nat) (c : Scope) (src : Source) (strict : Bool) (s : SectionInfo)
    (span : FlashSpan) (start : Nat) (r : Region) (t : Bench) : Prop :=
  t.1.Ready chunk c src ∧ Region.Touched (span.offset + start) r t.2 ∧
    Divisible (s.entries src.data) chunk s.size start ∧
    s.Links src span.addr strict (c.rule src) start (s.size - start)
      (t.2.bytes (span.offset + start) (s.size - start))

/-- At the end of the section there is nothing left to do. -/
lemma streamed_end {start : Nat} {d : Desk} {r : Region} (hd : d.Ready chunk c src)
    (hend : start = s.size) : Streamed chunk c src strict s span start r (d, r) := by
  refine ⟨hd, .refl _ r, fun a h _ h' => by omega, ?_⟩
  rw [hend, Nat.sub_self, Region.bytes, Bytes.slice_zero_size]
  exact SectionInfo.links_empty

/-- A chunk in front of what is streamed after it. -/
lemma Streamed.before {start len : Nat} {r r' : Region} {t : Bench} {out : Bytes}
    (h : Streamed chunk c src strict s span (start + len) r' t) (hfits : Fits s span r)
    (htouch : Region.Touched (span.offset + start) r r')
    (hlinks : s.Links src span.addr strict (c.rule src) start len out)
    (hbytes : r'.bytes (span.offset + start) len = out) (hlen : 0 < len)
    (hle : start + len ≤ s.size) (hreach : start + len ≤ start + chunk)
    (hcut : start + len < s.size → Cut (s.entries src.data) (start + len)) :
    Streamed chunk c src strict s span start r t := by
  obtain ⟨hd, htouch', hdiv, hrest⟩ := h
  rw [← Nat.add_assoc] at htouch' hrest
  have hsplit : s.size - start = len + (s.size - (start + len)) := by omega
  refine ⟨hd, htouch.trans (htouch'.mono fun _ h => by omega),
    (divisible_step (by omega) hreach hcut).2 hdiv, ?_⟩
  rw [hsplit]
  refine (SectionInfo.links_split hlen fun hn => hcut (by omega)).2 ⟨out, _, hlinks, hrest, ?_⟩
  have hfit := (hfits.touched htouch).touched htouch'
  have hinside := hfit.inside
  have hdevice := hfit.sound.fits
  have hsize := hfit.size_le
  rw [← hbytes, ← htouch'.bytes_eq fun k _ h => Nat.not_le.2 h, Region.bytes_append (by omega)]

/-- The chunk from a cut on ends at a cut within reach, or at the end of the section. -/
lemma chunkEnd_cut {start : Nat} {d : Desk} (hd : d.Ready chunk c src) (hheld : s.TableHeld src)
    (hword : chunk % wordSize = 0) (hpos : 0 < chunk) (hcut : Cut (s.entries src.data) start)
    (hlt : start < s.size) :
    Sat (chunkEnd s start) d
      (fun stop d' => d'.Ready chunk c src ∧ start < stop ∧ stop ≤ s.size ∧ stop ≤ start + chunk ∧
        (stop < s.size → Cut (s.entries src.data) stop))
      (fun _ _ => ¬ Divisible (s.entries src.data) chunk s.size start) := by
  have hstaging : d.scratch.staging.size = chunk := hd.chunk_eq
  refine (chunkEnd_sat hheld hd.linker.same hd.batch_pos (hstaging ▸ hword) (hstaging ▸ hpos) hcut.1
    hlt).mono ?_ ?_ <;> rw [hstaging]
  · rintro stop d' ⟨hre, h1, h2, h3, h4, -⟩
    exact ⟨hd.reread hre, h1, h2, h3, fun h => (h4 h).2⟩
  · rintro _ _ ⟨hshort, hnone⟩ hdiv
    obtain ⟨b, hb, h1, h2⟩ := hdiv start (Nat.le_refl _) hcut hshort
    have := hnone b hb h2
    omega

/-- Streaming from a cut on: the bytes from there on are linked and written, if that can be done. -/
lemma streamFrom_sat {fuel start chunks : Nat} {sum : Tally} {d : Desk} {r : Region}
    (hd : d.Ready chunk c src) (hheld : s.TableHeld src) (hword : chunk % wordSize = 0)
    (hpos : 0 < chunk) (hsize : s.size < sizeLimit) (hfits : Fits s span r)
    (hstart : start < s.size → Cut (s.entries src.data) start ∧ ErasedFrom span start r)
    (hend : start ≤ s.size) (hfuel : s.size - start ≤ fuel) :
    Sat (streamFrom c strict s span fuel start chunks sum) (d, r)
      (fun _ t => Streamed chunk c src strict s span start r t)
      (fun _ _ => ¬ (Divisible (s.entries src.data) chunk s.size start ∧
        ∃ out, s.Links src span.addr strict (c.rule src) start (s.size - start) out)) := by
  induction fuel generalizing start chunks sum d r with
  | zero => exact streamed_end hd (by omega)
  | succ fuel ih =>
    refine streamFrom_rule (fun _ => streamed_end hd (by omega)) fun hover => ?_
    obtain ⟨hcut, herased⟩ := hstart hover
    -- the end of the chunk
    refine (chunkEnd_cut hd hheld hword hpos hcut hover).mono ?_ fun _ _ h h' => h h'.1
    rintro stop d' ⟨hd', hlt, hle, hreach, hstop⟩
    obtain ⟨len, rfl⟩ : ∃ len, stop = start + len := ⟨stop - start, by omega⟩
    have hsplit : ∀ out, s.Links src span.addr strict (c.rule src) start (s.size - start) out ↔
        ∃ l q, s.Links src span.addr strict (c.rule src) start len l ∧
          s.Links src span.addr strict (c.rule src) (start + len) (s.size - (start + len)) q ∧
          out = l ++ q := by
      rw [show s.size - start = len + (s.size - (start + len)) by omega]
      exact fun out => SectionInfo.links_split (by omega) fun h => hstop (by omega)
    rw [Nat.add_sub_cancel_left]
    -- the bytes of the chunk
    refine (Desk.stageChunk_sat hd' hheld hword (by omega) (by omega) (by omega)).mono ?_ ?_
    swap
    · rintro _ _ h ⟨-, out, hout⟩
      obtain ⟨l, -, hl, -⟩ := (hsplit out).1 hout
      exact h ⟨l, hl⟩
    rintro done d'' ⟨hd'', out, hout, hpad⟩
    rw [hpad]
    -- the write
    refine (writeChunk_sat hfits hcut.1 herased hout.size_eq hle).mono ?_ fun _ _ h => h.elim
    rintro _ r' ⟨htouch, hwritten, hbeyond⟩
    -- the rest
    refine (ih hd'' (hfits.touched htouch) ?_ hle (by omega)).mono ?_ ?_
    · refine fun hlast => ⟨hstop hlast, hbeyond ?_⟩
      have h1 := hcut.1
      have h2 := (hstop hlast).1
      rw [wordSize] at *
      omega
    · exact fun _ t ht => ht.before hfits htouch hout hwritten (by omega) hle hreach hstop
    · rintro _ _ h ⟨hdiv, whole, hwhole⟩
      obtain ⟨-, q, -, hq, -⟩ := (hsplit whole).1 hwhole
      exact h ⟨(divisible_step hlt hreach hstop).1 hdiv, q, hq⟩

/-- Before a section is streamed, its span is erased. -/
lemma Fits.erase_sat {r : Region} (h : Fits s span r) :
    Op.Sat (Region.erase span) r (fun _ r' => Region.Touched span.offset r r' ∧ ErasedFrom span 0 r')
      fun _ _ => False :=
  eraseSpan_sat h.sound h.unarmed h.start_aligned h.len_aligned h.inside

/-- **Streaming** a section succeeds exactly if the section can be linked and cut into chunks, and
leaves the section in its span, linked as a whole. -/
lemma stream_sat {d : Desk} {r : Region} (hd : d.Ready chunk c src) (hheld : s.TableHeld src)
    (hword : chunk % wordSize = 0) (hpos : 0 < chunk) (hsize : s.size < sizeLimit)
    (hfits : Fits s span r) :
    Sat (stream c strict s span) (d, r)
      (fun _ t => t.1.Ready chunk c src ∧ Region.Touched span.offset r t.2 ∧
        Divisible (s.entries src.data) chunk s.size 0 ∧
        s.Links src span.addr strict (c.rule src) 0 s.size (t.2.bytes span.offset s.size))
      (fun _ _ => ¬ (Divisible (s.entries src.data) chunk s.size 0 ∧
        ∃ out, s.Links src span.addr strict (c.rule src) 0 s.size out)) := by
  refine stream_rule (hfits.erase_sat.mono ?_ fun _ _ h => h.elim)
  rintro _ r' ⟨htouch, herased⟩
  have hfirst : Cut (s.entries src.data) 0 := ⟨rfl, fun _ _ h => Nat.not_lt_zero _ h.1⟩
  refine (streamFrom_sat hd hheld hword hpos hsize (hfits.touched htouch) (fun _ => ⟨hfirst, herased⟩)
    (Nat.zero_le _) (Nat.le_refl _)).mono ?_ fun _ _ h => h
  rintro _ t ⟨ht, ht', hdiv, hlinks⟩
  exact ⟨ht, htouch.trans ht', hdiv, hlinks⟩

/-! ### Footprint -/

/-- Streaming a section writes from the start of its span on, and nowhere else. -/
lemma stream_touched {k : Nat} {span : FlashSpan} (hk : k ≤ span.offset) (scope : Scope)
    (strict : Bool) (s : SectionInfo) (w : Bench) :
    Sat (stream scope strict s span) w (fun _ w' => Region.Touched k w.2 w'.2)
      (fun _ w' => Region.Touched k w.2 w'.2) := by
  obtain ⟨d, r⟩ := w
  have hfrom : ∀ (fuel start chunks : Nat) (sum : Tally) (d : Desk) (r : Region),
      Sat (streamFrom scope strict s span fuel start chunks sum) (d, r)
        (fun _ w' => Region.Touched k r w'.2) (fun _ w' => Region.Touched k r w'.2) := by
    intro fuel
    induction fuel with
    | zero => exact fun _ _ _ _ _ => .refl _ _
    | succ fuel ih =>
      intro start chunks sum d r
      refine streamFrom_rule (fun _ => .refl _ _) fun _ => (sat_any _ d).mono (fun stop d₁ _ => ?_)
        fun _ _ _ => .refl _ _
      refine (sat_any _ d₁).mono (fun done d₂ _ => ?_) fun _ _ _ => .refl _ _
      refine (Region.write_written (F := (k ≤ ·)) _ (fun _ h _ => by omega) r).mono (fun _ r' h => ?_)
        fun _ _ h => h
      exact (ih stop _ _ d₂ r').mono (fun _ _ h' => h.trans h') fun _ _ h' => h.trans h'
  refine stream_rule ((Region.erase_written (fun _ h _ => Nat.le_trans hk h) r).mono (fun _ r' h => ?_)
    fun _ _ h => h)
  exact (hfrom _ _ _ _ d r').mono (fun _ _ h' => h.trans h') fun _ _ h' => h.trans h'

end Bench

end FlashLink
