import FlashLink.Proofs.OneShot
import FlashLink.Proofs.ReadLogs

/-!
How much a load reads at a time, and how often.

Reads for tables keep within limits. A section that goes to flash is read in chunks, each from where the
one before ended, so that a load that succeeds has read every byte of it once. A section of variables is
read at one go, to its place in the pool.
-/

namespace FlashLink

open Act

/-! ### Tilings -/

/-- One after another, and none of them empty, the reads make up the bytes from `a` up to `b`. -/
def Tiles : Nat → Nat → List ReadRequest → Prop
  | a, b, [] => a = b
  | a, b, r :: rest => r.offset = a ∧ 0 < r.len ∧ Tiles (a + r.len) b rest

namespace Tiles

variable {a b c : Nat} {l m : List ReadRequest}

lemma le (h : Tiles a b l) : a ≤ b := by
  induction l generalizing a with
  | nil => exact Nat.le_of_eq h
  | cons r rest ih =>
    have := ih h.2.2
    omega

lemma append (h : Tiles a b l) (h' : Tiles b c m) : Tiles a c (l ++ m) := by
  induction l generalizing a with
  | nil =>
    obtain rfl : a = b := h
    exact h'
  | cons r rest ih => exact ⟨h.1, h.2.1, ih h.2.2⟩

/-- Every byte from `a` up to `b` is in one of the reads, and all others are in none. -/
lemma once (h : Tiles a b l) (i : Nat) :
    l.countP (fun r => r.offset ≤ i ∧ i < r.offset + r.len) = if a ≤ i ∧ i < b then 1 else 0 := by
  induction l generalizing a with
  | nil =>
    obtain rfl : a = b := h
    rw [List.countP_nil, if_neg (by omega)]
  | cons r rest ih =>
    obtain ⟨rfl, hpos, hrest⟩ := h
    have hle := hrest.le
    rw [List.countP_cons, ih hrest]
    simp only [decide_eq_true_eq]
    split_ifs <;> omega

end Tiles

/-! ### Turns -/

namespace Source

variable {config : LoaderConfig} {data : Bytes} {R R' R'' : Purpose → List ReadRequest → Prop}
  {l l' : List Purpose} {p : Purpose} {s t u : Source}

/-- Tables aside, all that has been read since is for the purposes in `l`, and for each as `R` says. -/
def Served (config : LoaderConfig) (data : Bytes) (R : Purpose → List ReadRequest → Prop)
    (l : List Purpose) (s t : Source) : Prop :=
  ∃ log, Logged log s t ∧
    (∀ r ∈ log, r.purpose.Asks config data r.request ∧ (r.purpose.isTable ∨ r.purpose ∈ l)) ∧
    ∀ p ∈ l, p.isTable = false ∧ R p (requestsFor p log)

lemma Browsed.served (h : Browsed config s t) (hdata : s.data = data) : Served config data R [] s t := by
  obtain ⟨log, hlog, hall⟩ := h
  exact ⟨log, hlog, fun r hr => ⟨hdata ▸ (hall r hr).2, .inl (hall r hr).1⟩, nofun⟩

/-- One read. -/
lemma Logged.served {r : ReadRequest} (h : Logged [⟨p, r⟩] s t) (hp : p.isTable = false)
    (hasks : p.Asks config data r) (hR : R p [r]) : Served config data R [p] s t := by
  refine ⟨_, h, List.forall_mem_singleton.2 ⟨hasks, .inr (.head _)⟩,
    List.forall_mem_singleton.2 ⟨hp, ?_⟩⟩
  rwa [requestsFor_singleton]

namespace Served

lemma mono (h : Served config data R l s t) (hR : ∀ p ∈ l, ∀ m, R p m → R' p m) :
    Served config data R' l s t := by
  obtain ⟨log, hlog, hall, hl⟩ := h
  exact ⟨log, hlog, hall, fun p hp => ⟨(hl p hp).1, hR p hp _ (hl p hp).2⟩⟩

lemma same (h : Served config data R l s t) : Same s t := h.choose_spec.1.same

/-- Nothing has been read yet. -/
lemma idle (s : Source) (hl : ∀ p ∈ l, p.isTable = false ∧ R p []) : Served config data R l s s :=
  ⟨[], .refl s, nofun, hl⟩

/-- Going on with other purposes. -/
lemma append (h : Served config data R l s t) (h' : Served config data R l' t u)
    (hdisjoint : ∀ p ∈ l, p ∉ l') : Served config data R (l ++ l') s u := by
  obtain ⟨log, hlog, hall, hl⟩ := h
  obtain ⟨log', hlog', hall', hl'⟩ := h'
  refine ⟨log ++ log', hlog.trans hlog', List.forall_mem_append.2 ⟨fun r hr => ?_, fun r hr => ?_⟩,
    List.forall_mem_append.2 ⟨fun p hp => ⟨(hl p hp).1, ?_⟩, fun p hp => ⟨(hl' p hp).1, ?_⟩⟩⟩
  · exact ⟨(hall r hr).1, (hall r hr).2.imp_right (List.mem_append_left _)⟩
  · exact ⟨(hall' r hr).1, (hall' r hr).2.imp_right (List.mem_append_right _)⟩
  · have hnone : requestsFor p log' = [] := requestsFor_eq_nil fun r hr hrp => by
      rcases (hall' r hr).2 with h | h
      · rw [hrp, (hl p hp).1] at h
        cases h
      · exact hdisjoint p hp (hrp ▸ h)
    rw [requestsFor_append, hnone, List.append_nil]
    exact (hl p hp).2
  · have hnone : requestsFor p log = [] := requestsFor_eq_nil fun r hr hrp => by
      rcases (hall r hr).2 with h | h
      · rw [hrp, (hl' p hp).1] at h
        cases h
      · exact hdisjoint p (hrp ▸ h) hp
    rw [requestsFor_append, hnone, List.nil_append]
    exact (hl' p hp).2

/-- Going on with the same purpose. -/
lemma join (h : Served config data R [p] s t) (h' : Served config data R' [p] t u)
    (hR : ∀ l m, R p l → R' p m → R'' p (l ++ m)) : Served config data R'' [p] s u := by
  obtain ⟨log, hlog, hall, hl⟩ := h
  obtain ⟨log', hlog', hall', hl'⟩ := h'
  obtain ⟨hp, hlog₁⟩ := hl p (.head _)
  refine ⟨log ++ log', hlog.trans hlog', List.forall_mem_append.2 ⟨hall, hall'⟩,
    List.forall_mem_singleton.2 ⟨hp, ?_⟩⟩
  rw [requestsFor_append]
  exact hR _ _ hlog₁ (hl' p (.head _)).2

/-- Lookups come before and after. -/
lemma browsed (h : Served config data R l s t) (hu : Browsed config t u) (hdata : t.data = data) :
    Served config data R l s u := by
  have happend : Served config data R (l ++ []) s u :=
    h.append (hu.served hdata) fun _ _ => List.not_mem_nil
  rwa [List.append_nil] at happend

end Served

end Source

open Source (Served Browsed)

/-- Bytes that are in no field are those of the file. -/
lemma Relocation.linkAll_getElem? {first : Nat} {base : Addr} {strict : Bool} {rule : Rule}
    {rs : List Relocation} {buf out : Bytes} (h : linkAll first base strict rule rs buf = .ok out) {i : Nat}
    (hi : ∀ r ∈ rs, first + i < r.start ∨ r.stop ≤ first + i) : out[i]? = buf[i]? := by
  induction rs generalizing buf with
  | nil =>
    cases h
    rfl
  | cons r rs ih =>
    obtain ⟨hr, hrs⟩ := List.forall_mem_cons.1 hi
    rw [linkAll_cons] at h
    obtain ⟨b, hb, h⟩ := ok_of_bind h
    rw [ih h hrs]
    unfold link at hb
    split_ifs at hb with hin
    · obtain ⟨h1, h2⟩ := inside_iff.1 hin
      rw [stop] at h2 hr
      rcases hf : field base strict rule r (buf.slice (r.start - first) 4) with e | new <;>
        rw [hf] at hb <;> cases hb
      have hnew := size_field (Bytes.size_slice_of_le (by omega)) hf
      rw [Bytes.getElem?_overwrite, if_neg (by omega)]
    · cases hb
      rfl

namespace Purpose

/-- What may have been read for a purpose when a load ends: a part of a section that goes to flash from its
first byte on, and all of another or nothing. -/
def Begun (data : Bytes) : Purpose → List ReadRequest → Prop
  | chunk index, l => ∀ h, (Object.rawHeaders data)[index]? = some h →
      ∃ stop ≤ h.size, Tiles h.offset (h.offset + stop) l
  | whole index, l => ∀ h, (Object.rawHeaders data)[index]? = some h → l <+: [⟨h.offset, h.size⟩]
  | _, _ => True

/-- What has been read when a load succeeds. -/
def Done (data : Bytes) : Purpose → List ReadRequest → Prop
  | chunk index, l => ∀ h, (Object.rawHeaders data)[index]? = some h →
      Tiles h.offset (h.offset + h.size) l
  | whole index, l => ∀ h, (Object.rawHeaders data)[index]? = some h → l = [⟨h.offset, h.size⟩]
  | _, _ => True

variable {data : Bytes} {l : List ReadRequest}

lemma begun_nil (p : Purpose) : p.Begun data [] := by
  cases p with
  | chunk index => exact fun h _ => ⟨0, Nat.zero_le _, rfl⟩
  | whole index => exact fun h _ => List.nil_prefix
  | _ => trivial

lemma Done.begun {p : Purpose} (h : p.Done data l) : p.Begun data l := by
  cases p with
  | chunk index => exact fun q hq => ⟨q.size, Nat.le_refl _, h q hq⟩
  | whole index => exact fun q hq => h q hq ▸ List.prefix_refl _
  | _ => trivial

end Purpose

section Turns

variable {config : LoaderConfig} {data : Bytes} {R : Purpose → List ReadRequest → Prop}
  {of : Nat → Purpose} {q : SectionInfo} {rest : List SectionInfo} {s t u : Source}

/-- One section has its turn after another. -/
lemma Source.Served.cons (h : Served config data R [of q.index] s t)
    (h' : Served config data R (rest.map fun q => of q.index) t u) (hof : Function.Injective of)
    (hnew : q.index ∉ rest.map (·.index)) :
    Served config data R ((q :: rest).map fun q => of q.index) s u := by
  refine h.append h' (List.forall_mem_singleton.2 fun hmem => hnew ?_)
  obtain ⟨q', hq', heq⟩ := List.mem_map.1 hmem
  exact List.mem_map.2 ⟨q', hq', hof heq⟩

/-- No section has had its turn yet. -/
lemma Source.served_waiting (hof : ∀ i, (of i).isTable = false) (sections : List SectionInfo) (s : Source) :
    Served config data (Purpose.Begun data) (sections.map fun q => of q.index) s s := by
  refine .idle s fun p hp => ?_
  obtain ⟨q, -, rfl⟩ := List.mem_map.1 hp
  exact ⟨hof _, Purpose.begun_nil _⟩

lemma Source.Served.begun {l : List Purpose} (h : Served config data (Purpose.Done data) l s t) :
    Served config data (Purpose.Begun data) l s t :=
  h.mono fun _ _ _ => Purpose.Done.begun

end Turns

/-! ### Desks -/

/-- Symbols are those of the object, and chunks are of whole words. -/
structure Scope.Reads (config : LoaderConfig) (src : Source) (c : Scope) : Prop where
  symbols : Object.HasSymbols src.data c.symbols
  word : config.chunkSize % wordSize = 0
  pos : 0 < config.chunkSize

/-- The section is the one in the header of its index, and the source holds its relocations. -/
structure SectionInfo.Known (src : Source) (q : SectionInfo) : Prop where
  header_eq : (Object.rawHeaders src.data)[q.index]? = some q.header
  tables : ∀ t ∈ q.relocations, Object.HasTable src.data t
  held : q.TableHeld src

/-- The desk is ready, and its batches are within the limit. -/
structure Desk.Equipped (config : LoaderConfig) (c : Scope) (src : Source) (d : Desk) : Prop where
  ready : d.Ready config.chunkSize c src
  batch : d.scratch.batchSize ≤ config.batchSize

section Desks

variable {config : LoaderConfig} {src : Source} {c : Scope} {q : SectionInfo} {d : Desk} {strict : Bool}
  {base : Addr} {start len : Nat}

lemma Desk.Equipped.data_eq (h : d.Equipped config c src) : d.linker.source.data = src.data :=
  h.ready.linker.same.data_eq

lemma Desk.Equipped.browses (h : d.Equipped config c src) : d.Browses config d.linker.source :=
  ⟨.refl _, h.batch⟩

/-- The request for a chunk. -/
lemma Purpose.asks_chunk (hq : q.Known src) (hcls : q.header.class?.any SectionClass.isFlash)
    (hle : start + len ≤ q.size) (hlen : len ≤ config.chunkSize) :
    (Purpose.chunk q.index).Asks config src.data ⟨q.header.offset + start, len⟩ := by
  refine ⟨q.header, hq.header_eq, hcls, Nat.le_add_right .., ?_, hlen⟩
  have hsize : start + len ≤ q.header.size := hle
  dsimp only
  omega

/-- Of the section, the bytes from `a` up to `b` have been read since, in chunks. -/
def SectionInfo.Chunked (config : LoaderConfig) (src : Source) (q : SectionInfo) (a b : Nat) :
    Source → Source → Prop :=
  Served config src.data (fun _ => Tiles (q.header.offset + a) (q.header.offset + b)) [.chunk q.index]

lemma SectionInfo.chunked_refl (s : Source) : q.Chunked config src start start s s :=
  .idle s (List.forall_mem_singleton.2 ⟨rfl, rfl⟩)

lemma SectionInfo.Chunked.trans {a b e : Nat} {s t u : Source} (h : q.Chunked config src a b s t)
    (h' : q.Chunked config src b e t u) : q.Chunked config src a e s u :=
  Served.join h h' fun _ _ => Tiles.append

/-- A chunk is read at one go. All else that staging it reads is looked up. -/
lemma Desk.stageChunk_reads {padding : UInt8} (hc : c.Reads config src) (hd : d.Equipped config c src)
    (hq : q.Known src) (hcls : q.header.class?.any SectionClass.isFlash) (hpos : 0 < len)
    (hle : start + len ≤ q.size) (hlen : len ≤ config.chunkSize) :
    Sat (stageChunk c strict q base padding start len) d
      (fun _ e => e.scratch.batchSize ≤ config.batchSize ∧
        q.Chunked config src start (start + len) d.linker.source e.linker.source)
      (fun _ e => q.Chunked config src start (start + len) d.linker.source e.linker.source) := by
  have hone : ∀ t, Source.Logged [⟨.chunk q.index, q.header.offset + start, len⟩] d.linker.source t →
      q.Chunked config src start (start + len) d.linker.source t := fun t h =>
    h.served rfl (Purpose.asks_chunk hq hcls hle hlen) ⟨rfl, hpos, Nat.add_assoc ..⟩
  unfold stageChunk
  refine Sat.modify_bind (Sat.bind (P := fun _ e => e.scratch.batchSize ≤ config.batchSize ∧
      q.Chunked config src start (start + len) d.linker.source e.linker.source)
    (G := fun _ e => q.Chunked config src start (start + len) d.linker.source e.linker.source)
    ?_ ?_ fun _ _ h => h)
  · rw [sat_zoom]
    exact (Source.readInto_logged (.chunk q.index) 0 _ _ _ _).mono
      (fun _ _ h => ⟨hd.batch, hone _ h⟩) fun _ _ h => hone _ h
  rintro _ e ⟨hbatch, hchunked⟩
  have hdata := (hd.ready.linker.same.trans hchunked.same).data_eq
  rcases hr : q.relocations with _ | t <;> dsimp only
  · exact ⟨hbatch, hchunked⟩
  · exact (relocateChunk_browses (hdata ▸ hc.symbols) (hdata ▸ hq.tables t hr) strict base start len e
      ⟨.refl _, hbatch⟩).mono (fun _ _ h => ⟨h.2, hchunked.browsed h.1 hdata⟩)
      fun _ _ h => hchunked.browsed h.1 hdata

end Desks

/-! ### Streaming -/

section Streaming

variable {config : LoaderConfig} {src : Source} {c : Scope} {q : SectionInfo} {strict : Bool}

namespace Bench

open Relocation

variable {span : FlashSpan}

/-- From a cut on, each chunk is read from where the last one ended, up to the end of the section. -/
lemma streamFrom_reads {fuel start chunks : Nat} {sum : Tally} {d : Desk} {r : Region}
    (hc : c.Reads config src) (hd : d.Equipped config c src) (hq : q.Known src)
    (hcls : q.header.class?.any SectionClass.isFlash)
    (hcut : start < q.size → Cut (q.entries src.data) start) (hend : start ≤ q.size)
    (hfuel : q.size ≤ start + fuel) :
    Sat (streamFrom c strict q span fuel start chunks sum) (d, r)
      (fun _ w => w.1.Equipped config c src ∧
        q.Chunked config src start q.size d.linker.source w.1.linker.source)
      (fun _ w => ∃ stop ≤ q.size,
        q.Chunked config src start stop d.linker.source w.1.linker.source) := by
  induction fuel generalizing start chunks sum d r with
  | zero =>
    obtain rfl : start = q.size := by omega
    exact ⟨hd, SectionInfo.chunked_refl _⟩
  | succ fuel ih =>
    refine streamFrom_rule (fun hover => ?_) fun hover => ?_
    · obtain rfl : start = q.size := by omega
      exact ⟨hd, SectionInfo.chunked_refl _⟩
    -- where the chunk ends
    have hfirst : ∀ t, Browsed config d.linker.source t →
        q.Chunked config src start start d.linker.source t := fun t ht =>
      (SectionInfo.chunked_refl _).browsed ht hd.data_eq
    refine ((chunkEnd_cut hd.ready hq.held hc.word hc.pos (hcut hover) hover).and
      (Desk.chunkEnd_browses (fun t ht => hd.data_eq ▸ hq.tables t ht) start d hd.browses)).mono ?_
      fun _ _ h => ⟨start, hend, hfirst _ h.2.1⟩
    rintro stop d' ⟨⟨hready, hlt, hle, hreach, hstop⟩, hbrowsed, hbatch⟩
    have hsource := hfirst _ hbrowsed
    obtain ⟨len, rfl⟩ : ∃ len, stop = start + len := ⟨stop - start, by omega⟩
    rw [Nat.add_sub_cancel_left]
    have hsize := q.size_lt
    -- the chunk
    refine ((Desk.stageChunk_sat hready hq.held hc.word (by omega) (by omega) (by omega)).and
      (Desk.stageChunk_reads hc ⟨hready, hbatch⟩ hq hcls (by omega) hle (by omega))).mono ?_
      fun _ _ h => ⟨_, hle, hsource.trans h.2⟩
    rintro done d'' ⟨⟨hready, -⟩, hbatch, hread⟩
    have hchunk := hsource.trans hread
    -- writing reads nothing
    refine (Op.sat_any _ r).mono (fun _ r' _ => ?_) fun _ _ _ => ⟨_, hle, hchunk⟩
    refine (ih ⟨hready, hbatch⟩ hstop hle (by omega)).mono ?_ ?_
    · exact fun _ _ h => ⟨h.1, hchunk.trans h.2⟩
    · rintro _ _ ⟨stop, hstop, h⟩
      exact ⟨stop, hstop, hchunk.trans h⟩

lemma stream_reads {d : Desk} {r : Region} (hc : c.Reads config src) (hd : d.Equipped config c src)
    (hq : q.Known src) (hcls : q.header.class?.any SectionClass.isFlash) :
    Sat (stream c strict q span) (d, r)
      (fun _ w => w.1.Equipped config c src ∧ Served config src.data (Purpose.Done src.data)
        [.chunk q.index] d.linker.source w.1.linker.source)
      (fun _ w => Served config src.data (Purpose.Begun src.data) [.chunk q.index] d.linker.source
        w.1.linker.source) := by
  have hbegun : ∀ stop ≤ q.size, ∀ t, q.Chunked config src 0 stop d.linker.source t →
      Served config src.data (Purpose.Begun src.data) [.chunk q.index] d.linker.source t := by
    refine fun stop hstop t h => Served.mono h (List.forall_mem_singleton.2 fun l hl header hheader => ?_)
    obtain rfl : q.header = header := Option.some.inj (hq.header_eq.symm.trans hheader)
    exact ⟨stop, hstop, hl⟩
  have hdone : ∀ t, q.Chunked config src 0 q.size d.linker.source t →
      Served config src.data (Purpose.Done src.data) [.chunk q.index] d.linker.source t := by
    refine fun t h => Served.mono h (List.forall_mem_singleton.2 fun l hl header hheader => ?_)
    obtain rfl : q.header = header := Option.some.inj (hq.header_eq.symm.trans hheader)
    exact hl
  refine stream_rule ((Op.sat_any _ r).mono (fun _ r' _ => ?_) fun _ _ _ =>
    hbegun 0 (Nat.zero_le _) _ (SectionInfo.chunked_refl _))
  have hcut : Cut (q.entries src.data) 0 := ⟨rfl, fun _ _ h => Nat.not_lt_zero _ h.1⟩
  refine (streamFrom_reads hc hd hq hcls (fun _ => hcut) (Nat.zero_le _) (by omega)).mono ?_ ?_
  · exact fun _ _ h => ⟨h.1, hdone _ h.2⟩
  · rintro _ _ ⟨stop, hstop, h⟩
    exact hbegun stop hstop _ h

end Bench

/-- Every section has its turn, and no index comes twice. -/
lemma Job.streamAll_reads {flash : List (SectionInfo × FlashSpan)} {sum : Tally} {j : Job}
    (hc : c.Reads config src) (hd : j.desk.Equipped config c src)
    (hflash : ∀ q ∈ flash.map (·.1), q.Known src ∧ q.header.class?.any SectionClass.isFlash)
    (hnodup : (flash.map (·.1)).map (·.index) |>.Nodup) :
    Sat (streamAll c strict flash sum) j
      (fun _ j' => j'.desk.Equipped config c src ∧ j'.context.pool = j.context.pool ∧
        Served config src.data (Purpose.Done src.data) ((flash.map (·.1)).map fun q => .chunk q.index)
          j.desk.linker.source j'.desk.linker.source)
      (fun _ j' => Served config src.data (Purpose.Begun src.data)
        ((flash.map (·.1)).map fun q => .chunk q.index) j.desk.linker.source j'.desk.linker.source) := by
  induction flash generalizing sum j with
  | nil => exact ⟨hd, rfl, .idle _ nofun⟩
  | cons q rest ih =>
    obtain ⟨⟨hq, hcls⟩, hrest⟩ := List.forall_mem_cons.1 hflash
    obtain ⟨hnew, hnodup⟩ := List.nodup_cons.1 hnodup
    have hof : Function.Injective Purpose.chunk := fun _ _ => Purpose.chunk.inj
    refine streamAll_rule ((Bench.stream_reads hc hd hq hcls).mono ?_
      fun _ _ h => h.cons (Source.served_waiting (fun _ => rfl) _ _) hof hnew)
    rintro done w ⟨hd', hdone⟩
    refine (ih hd' hrest hnodup).mono ?_ ?_
    · rintro _ j'' ⟨hd'', hpool, hdone'⟩
      exact ⟨hd'', hpool, hdone.cons hdone' hof hnew⟩
    · exact fun _ _ h => hdone.begun.cons h hof hnew

end Streaming

/-! ### Copying -/

section Copying

variable {config : LoaderConfig} {src : Source} {c : Scope} {strict : Bool}

/-- A section of variables is read at one go, whatever becomes of its relocations. -/
lemma Workshop.copySection_reads {q : SectionInfo} {ram : RamBlock} {offset : Nat} {w : Workshop}
    (hsymbols : Object.HasSymbols src.data c.symbols) (hsame : Source.Same src w.1.linker.source)
    (hbatch : w.1.scratch.batchSize ≤ config.batchSize) (hq : q.Known src)
    (hcls : q.header.class? = some .data) :
    Sat (copySection c strict ram q offset) w
      (fun _ w' => w'.1.scratch.batchSize ≤ config.batchSize ∧ Served config src.data
        (Purpose.Done src.data) [.whole q.index] w.1.linker.source w'.1.linker.source)
      (fun _ w' => Served config src.data (Purpose.Done src.data) [.whole q.index] w.1.linker.source
        w'.1.linker.source) := by
  have hone : ∀ t, Source.Logged [⟨.whole q.index, q.header.offset, q.size⟩] w.1.linker.source t →
      Served config src.data (Purpose.Done src.data) [.whole q.index] w.1.linker.source t := by
    refine fun t h => h.served rfl ⟨q.header, hq.header_eq, hcls, rfl⟩ fun header hheader => ?_
    obtain rfl : q.header = header := Option.some.inj (hq.header_eq.symm.trans hheader)
    rfl
  obtain ⟨d, p⟩ := w
  refine copySection_rule ((Source.readInto_logged (.whole q.index) _ _ _ _ _).mono ?_ fun _ _ h => hone _ h)
  rintro _ ⟨mem, source⟩ h
  have hserved := hone _ h
  have hdata : source.data = src.data := (hsame.trans hserved.same).data_eq
  have hbegun : Desk.Browses config source ⟨d.scratch, source, d.linker.cache⟩ := ⟨.refl _, hbatch⟩
  refine ⟨fun _ => ⟨hbatch, hserved⟩, fun t hr => ?_⟩
  exact (relocate_browses (hdata ▸ hsymbols) (hdata ▸ hq.tables t hr) strict q _ _ _ _ _ _ hbegun).mono
    (fun _ _ h => ⟨h.2, hserved.browsed h.1 hdata⟩) fun _ _ h => hserved.browsed h.1 hdata

lemma Workshop.copyAll_reads {offsets : List (SectionInfo × Nat)} {ram : RamBlock} {sum : Tally}
    {w : Workshop} (hsymbols : Object.HasSymbols src.data c.symbols)
    (hsame : Source.Same src w.1.linker.source) (hbatch : w.1.scratch.batchSize ≤ config.batchSize)
    (hoffsets : ∀ q ∈ offsets.map (·.1), q.Known src ∧ q.header.class? = some .data)
    (hnodup : (offsets.map (·.1)).map (·.index) |>.Nodup) :
    Sat (copyAll c strict ram offsets sum) w
      (fun _ w' => w'.1.scratch.batchSize ≤ config.batchSize ∧ Served config src.data
        (Purpose.Done src.data) ((offsets.map (·.1)).map fun q => .whole q.index) w.1.linker.source
        w'.1.linker.source)
      (fun _ w' => Served config src.data (Purpose.Begun src.data)
        ((offsets.map (·.1)).map fun q => .whole q.index) w.1.linker.source w'.1.linker.source) := by
  induction offsets generalizing sum w with
  | nil => exact ⟨hbatch, .idle _ nofun⟩
  | cons q rest ih =>
    obtain ⟨⟨hq, hcls⟩, hrest⟩ := List.forall_mem_cons.1 hoffsets
    obtain ⟨hnew, hnodup⟩ := List.nodup_cons.1 hnodup
    have hof : Function.Injective Purpose.whole := fun _ _ => Purpose.whole.inj
    unfold copyAll
    refine Sat.bind (copySection_reads hsymbols hsame hbatch hq hcls) ?_ fun _ _ h =>
      h.begun.cons (Source.served_waiting (fun _ => rfl) _ _) hof hnew
    rintro done w' ⟨hbatch', hdone⟩
    refine (ih (hsame.trans hdone.same) hbatch' hrest hnodup).mono ?_ ?_
    · exact fun _ _ h => ⟨h.1, hdone.cons h.2 hof hnew⟩
    · exact fun _ _ h => hdone.begun.cons h hof hnew

end Copying

/-! ### Loading -/

/-- What is read section by section if the object is loaded. -/
def Object.turns (o : Object) : List Purpose :=
  (o.inFlash.map fun q => .chunk q.index) ++ (o.ofClass .data).map fun q => .whole q.index

namespace Job

variable {config : LoaderConfig} {src : Source} {c : Scope} {o : Object} {symbols : SymbolTable} {j : Job}

lemma Inspected.known (h : Inspected config src o symbols) {q : SectionInfo}
    (hq : q ∈ o.sections.toList) : q.Known src :=
  ⟨h.describes.header_eq _ q (index_lt h.describes hq).2,
    (Object.parse_tables (.refl src) config).of_result h.parsed q hq, (h.tables q hq).held⟩

lemma Inspected.hasSymbols (h : Inspected config src o symbols) : Object.HasSymbols src.data symbols := by
  obtain ⟨-, rfl⟩ := (Object.symbolTable_sat (.refl src) o config).of_result h.symbols_eq
  exact ⟨o.symtab, h.describes.symtab_eq, rfl, rfl⟩

lemma Inspected.class_eq (h : Inspected config src o symbols) {q : SectionInfo}
    (hq : q ∈ o.sections.toList) : q.cls = q.header.class? :=
  h.describes.cls_eq _ q (index_lt h.describes hq).2

lemma Inspected.flash_known (h : Inspected config src o symbols) {q : SectionInfo} (hq : q ∈ o.inFlash) :
    q.Known src ∧ q.header.class?.any SectionClass.isFlash := by
  obtain ⟨hmem, hcls⟩ := List.mem_filter.1 hq
  exact ⟨h.known hmem, h.class_eq hmem ▸ hcls⟩

lemma Inspected.data_known (h : Inspected config src o symbols) {q : SectionInfo}
    (hq : q ∈ o.ofClass .data) : q.Known src ∧ q.header.class? = some .data := by
  obtain ⟨hmem, hcls⟩ := List.mem_filter.1 hq
  exact ⟨h.known hmem, h.class_eq hmem ▸ eq_of_beq hcls⟩

lemma Inspected.filter_nodup (h : Inspected config src o symbols) (p : SectionInfo → Bool) :
    ((o.sections.toList.filter p).map (·.index)).Nodup :=
  (indices_nodup h.describes).sublist (List.filter_sublist.map _)

/-- No chunk is a whole section. -/
lemma chunks_apart (flash data : List SectionInfo) :
    ∀ p ∈ flash.map fun q => Purpose.chunk q.index, p ∉ data.map fun q => Purpose.whole q.index := by
  intro p hp hp'
  obtain ⟨q, -, rfl⟩ := List.mem_map.1 hp
  obtain ⟨q', -, heq⟩ := List.mem_map.1 hp'
  cases heq

section Committing

variable {space : Reservation} {e e' : Context} {strict : Bool}

/-- All sections have been read since, and the copied block is linked. -/
structure Gathered (config : LoaderConfig) (src : Source) (c : Scope) (strict : Bool) (space : Reservation)
    (o : Object) (s : Source) (j : Job) : Prop where
  batch : j.desk.scratch.batchSize ≤ config.batchSize
  linked : DataLinked c src strict space j.context.pool.mem
  served : Served config src.data (Purpose.Done src.data) o.turns s j.desk.linker.source

/-- Clearing reads nothing, and leaves the copied block as it is. -/
lemma Gathered.clearLast {s : Source} (h : Gathered config src c strict space o s j)
    (hinspected : Inspected config src o symbols) (hreserved : Reserved e o space e')
    (hcapacity : j.context.pool.mem.size = e.pool.capacity) (sum : Tally) :
    Sat (clearLast space sum) j (fun _ => Gathered config src c strict space o s) fun _ _ => False := by
  have hsections : ∀ q ∈ o.sections.toList, q.TableHeld src ∧ (q.cls.isSome → 0 < q.size) :=
    fun q hq => ⟨(hinspected.known hq).held, hinspected.describes.size_pos hq⟩
  refine (clearLast_linked hreserved hsections hcapacity h.linked sum).mono ?_ fun _ _ h => h
  rintro _ j' ⟨hdesk, -, hlinked, -⟩
  exact ⟨hdesk ▸ h.batch, hlinked, hdesk ▸ h.served⟩

/-- Copying reads the sections of the block. -/
lemma copyBlock_reads {b : Block} (hb : space.data = some b) (hc : c.Reads config src)
    (hd : j.desk.Equipped config c src) (hinspected : Inspected config src o symbols)
    (hreserved : Reserved e o space e') (hcapacity : j.context.pool.mem.size = e.pool.capacity)
    (sum : Tally) :
    Sat (zoom workshopPart (Workshop.copyAll c strict b.ram b.offsets sum)) j
      (fun _ j' => j'.desk.scratch.batchSize ≤ config.batchSize ∧
        j'.context.pool.mem.size = e.pool.capacity ∧ DataLinked c src strict space j'.context.pool.mem ∧
        Served config src.data (Purpose.Done src.data) ((o.ofClass .data).map fun q => .whole q.index)
          j.desk.linker.source j'.desk.linker.source)
      (fun _ j' => Served config src.data (Purpose.Begun src.data)
        ((o.ofClass .data).map fun q => .whole q.index) j.desk.linker.source j'.desk.linker.source) := by
  have hsections : ∀ q ∈ o.sections.toList, q.TableHeld src ∧ (q.cls.isSome → 0 < q.size) :=
    fun q hq => ⟨(hinspected.known hq).held, hinspected.describes.size_pos hq⟩
  have hoffsets : b.offsets.map (·.1) = o.ofClass .data := (hreserved.housed.1 b hb).sections_eq
  have hread : Sat (zoom workshopPart (Workshop.copyAll c strict b.ram b.offsets sum)) j
      (fun _ j' => j'.desk.scratch.batchSize ≤ config.batchSize ∧
        Served config src.data (Purpose.Done src.data) ((b.offsets.map (·.1)).map fun q => .whole q.index)
          j.desk.linker.source j'.desk.linker.source)
      (fun _ j' => Served config src.data (Purpose.Begun src.data)
        ((b.offsets.map (·.1)).map fun q => .whole q.index) j.desk.linker.source
        j'.desk.linker.source) := by
    rw [sat_zoom]
    refine Workshop.copyAll_reads hc.symbols hd.ready.linker.same hd.batch ?_ ?_ <;> rw [hoffsets]
    · exact fun q hq => hinspected.data_known hq
    · exact hinspected.filter_nodup _
  rw [hoffsets] at hread
  refine ((copyBlock_sat hb hd.ready hreserved hsections hcapacity sum).and hread).mono ?_
    fun _ _ h => h.2
  rintro _ _ ⟨⟨d, p, rfl, -, hsize, hlinked⟩, hbatch, hserved⟩
  exact ⟨hbatch, hsize, hlinked, hserved⟩

/-- Committing reads what is reserved, in the order of the spans and then of the block. -/
lemma commit_reads (hc : c.Reads config src) (hd : j.desk.Equipped config c src)
    (hinspected : Inspected config src o symbols) (hreserved : Reserved e o space j.context) :
    Sat (commit c strict space) j
      (fun _ => Gathered config src c strict space o j.desk.linker.source)
      (fun _ j' => Served config src.data (Purpose.Begun src.data) o.turns j.desk.linker.source
        j'.desk.linker.source) := by
  have hflash : ∀ q ∈ space.flash.map (·.1), q.Known src ∧ q.header.class?.any SectionClass.isFlash :=
    fun q hq => hinspected.flash_known (hreserved.sections_eq ▸ hq)
  have hnodup : ((space.flash.map (·.1)).map (·.index)).Nodup :=
    hreserved.sections_eq ▸ hinspected.filter_nodup _
  unfold commit
  refine Sat.bind (streamAll_reads hc hd hflash hnodup) ?_ fun _ _ h => ?_
  swap
  · rw [hreserved.sections_eq] at h
    exact h.append (Source.served_waiting (fun _ => rfl) _ _) (chunks_apart _ _)
  rintro sum j1 ⟨hd1, hpool, hdone⟩
  rw [hreserved.sections_eq] at hdone
  have hcapacity : j1.context.pool.mem.size = e.pool.capacity := by
    rw [hpool]
    exact hreserved.capacity_eq
  rcases hb : space.data with _ | b <;> dsimp only
  · -- there is nothing to copy
    have hdata := hreserved.data
    rw [hb] at hdata
    obtain ⟨pool, hdata, -⟩ := hdata
    have hgathered : Gathered config src c strict space o j.desk.linker.source j1 := by
      refine ⟨hd1.batch, fun b hb' => ?_, ?_⟩
      · rw [hb] at hb'
        cases hb'
      · rw [Object.turns, hdata.1, List.map_nil, List.append_nil]
        exact hdone
    exact Sat.pure_bind ((hgathered.clearLast hinspected hreserved hcapacity sum).mono (fun _ _ h => h)
      fun _ _ h => h.elim)
  · refine Sat.bind (copyBlock_reads hb hc hd1 hinspected hreserved hcapacity sum) ?_
      fun _ _ h => hdone.begun.append h (chunks_apart _ _)
    rintro sum' j2 ⟨hbatch, hsize, hlinked, hcopied⟩
    have hgathered : Gathered config src c strict space o j.desk.linker.source j2 :=
      ⟨hbatch, hlinked, hdone.append hcopied (chunks_apart _ _)⟩
    exact (hgathered.clearLast hinspected hreserved hsize sum').mono (fun _ _ h => h) fun _ _ h => h.elim

end Committing

/-- Reserving reads nothing. -/
lemma reserve_desk (o : Object) : Keeps Job.desk (Job.reserve o) := by
  have hflash : ∀ sections, Keeps Job.desk (reserveFlash sections) := by
    intro sections
    induction sections with
    | nil => exact .pure _
    | cons s rest ih => exact (Keeps.zoom_other _ fun _ _ => rfl).bind fun _ => ih.bind fun _ => .pure _
  exact (hflash _).bind fun _ => (Keeps.zoom_other _ fun _ _ => rfl).bind fun _ =>
    (Keeps.zoom_other _ fun _ _ => rfl).bind fun _ => .pure _

/-- A load reads its tables, then section by section what it commits, and then symbols. -/
lemma run_reads {name entry : String} {exports : Lookup} (hl : (Loader.mk config j.desk.scratch).Sized)
    (hsrc : Source.Same src j.desk.linker.source) (hempty : ∀ i, j.desk.linker.cache.find? i = none) :
    Sat (run config name exports entry) j
      (fun image j' => ∃ p e, Plan.Settled config src j.context e p ∧ image = p.image name image.entry ∧
        DataLinked (p.scope exports) src config.strict p.space j'.context.pool.mem ∧
        Served config src.data (Purpose.Done src.data) p.object.turns j.desk.linker.source
          j'.desk.linker.source)
      (fun _ j' => ∃ l, Served config src.data (Purpose.Begun src.data) l j.desk.linker.source
        j'.desk.linker.source) := by
  have hbatch : j.desk.scratch.batchSize ≤ config.batchSize := by
    rw [Scratch.batchSize, hl.raw_size]
    exact Nat.le_of_eq (Nat.mul_div_cancel _ (by decide))
  unfold run
  refine Sat.bind ((inspect_sat name hsrc hl.batch).and
    (inspect_browses config j.desk.linker.source name j ⟨.refl _, hbatch⟩)) ?_
    fun _ _ h => ⟨[], h.2.1.served hsrc.data_eq⟩
  rintro ⟨o, symbols⟩ j1 ⟨⟨hinspected, hre, hcontext⟩, hbrowsed, hbatch1⟩
  refine Sat.bind ((reserve_granted o j1).and (reserve_desk o j1)) ?_
    fun _ _ h => ⟨[], by rw [h.2]; exact hbrowsed.served hsrc.data_eq⟩
  rintro space j2 ⟨⟨hgranted, hdesk⟩, -⟩
  rw [hcontext] at hgranted
  rw [← hdesk] at hbrowsed hbatch1 hre
  have hsettled : Plan.Settled config src j.context j2.context ⟨o, symbols, space⟩ :=
    ⟨hinspected, hgranted⟩
  dsimp only
  set scope : Scope := ⟨symbols, space.placement o, exports⟩ with hscope
  have hreads : scope.Reads config src := ⟨hinspected.hasSymbols, hl.chunk.1, hl.chunk.2⟩
  have hequipped : j2.desk.Equipped config scope src :=
    ⟨(Desk.ready_of_empty hl.staging_size hl.batch hsrc hempty).reread hre, hbatch1⟩
  refine Sat.bind (commit_reads hreads hequipped hinspected (hgranted.reserved j.desk)) ?_
    fun _ _ h => ⟨_, (hbrowsed.served hsrc.data_eq).append h (List.forall_mem_nil _)⟩
  rintro sum j3 ⟨hbatch3, hlinked, hdone⟩
  replace hdone := (hbrowsed.served hsrc.data_eq).append hdone (List.forall_mem_nil _)
  have hdata := (hsrc.trans hdone.same).data_eq
  -- the entry symbol
  refine Sat.bind ((browses_source (scope.entryAddress_browses (hdata ▸ hreads.symbols) entry) j3
    ⟨.refl _, hbatch3⟩).and (zoom_keeps _ j3 Job.context fun _ => rfl)) ?_
    fun _ _ h => ⟨_, hdone.begun.browsed h.1.1 hdata⟩
  rintro a j4 ⟨⟨hentry, -⟩, hcontext4⟩
  refine Sat.note_bind (Sat.get_bind (Sat.note_bind (sat_pure.2 ?_)))
  exact ⟨_, _, hsettled, rfl, by rw [hcontext4]; exact hlinked, hdone.browsed hentry hdata⟩

namespace Plan.Settled

variable {p : Plan} {exports : Lookup} {context e : Context} {name : String} {a : Addr} {mem : Bytes}
  {i : Nat} {h : SectionHeader}

/-- Every header is that of a section. -/
lemma exists_section (hp : p.Settled config src context e)
    (hi : (Object.rawHeaders src.data)[i]? = some h) :
    ∃ q ∈ p.object.sections.toList, q.index = i ∧ q.header = h ∧ q.cls = h.class? := by
  have hd := hp.inspected.describes
  obtain ⟨hlt, -⟩ := List.getElem?_eq_some_iff.1 hi
  obtain ⟨q, hq⟩ : ∃ q, p.object.sections[i]? = some q :=
    ⟨_, Array.getElem?_eq_getElem (hd.size_eq ▸ hlt)⟩
  obtain rfl : q.header = h := Option.some.inj ((hd.header_eq i q hq).symm.trans hi)
  exact ⟨q, List.mem_of_getElem? (Array.getElem?_toList.trans hq), hd.index_eq i q hq, rfl, hd.cls_eq i q hq⟩

/-- A section that goes to flash has its turn. -/
lemma chunk_mem_turns (hp : p.Settled config src context e)
    (hi : (Object.rawHeaders src.data)[i]? = some h) (hcls : h.class?.any SectionClass.isFlash) :
    Purpose.chunk i ∈ p.object.turns := by
  obtain ⟨q, hq, rfl, -, hqcls⟩ := hp.exists_section hi
  exact List.mem_append_left _ (List.mem_map.2 ⟨q, List.mem_filter.2 ⟨hq, hqcls ▸ hcls⟩, rfl⟩)

/-- So has a section of variables. -/
lemma whole_mem_turns (hp : p.Settled config src context e)
    (hi : (Object.rawHeaders src.data)[i]? = some h) (hcls : h.class? = some .data) :
    Purpose.whole i ∈ p.object.turns := by
  obtain ⟨q, hq, rfl, -, hqcls⟩ := hp.exists_section hi
  refine List.mem_append_right _ (List.mem_map.2 ⟨q, List.mem_filter.2 ⟨hq, ?_⟩, rfl⟩)
  rw [hqcls, hcls]
  exact beq_self_eq_true _

/-- A section of variables fills its part of the block. -/
lemma data_filled (hp : p.Settled config src context e)
    (hlinked : DataLinked (p.scope exports) src config.strict p.space mem)
    (hi : (Object.rawHeaders src.data)[i]? = some h) (hcls : h.class? = some .data) :
    ∃ b start, (p.image name a).data = some b ∧ start + h.size ≤ b.len ∧
      (∃ q ∈ (p.image name a).sections, q.index = i ∧ q.cls = .data ∧ q.size = h.size ∧
        q.addr = b.addr + UInt32.ofNat start) ∧
      ∀ k < h.size, (∀ r ∈ Object.rawEntries src.data i, k < r.start ∨ r.stop ≤ k) →
        mem[b.offset + start + k]? = src.data[h.offset + k]? := by
  obtain ⟨q, hq, rfl, rfl, hqcls⟩ := hp.exists_section hi
  rw [hcls] at hqcls
  obtain ⟨pool, hdata, -⟩ := hp.reserved.data
  have hmem : q ∈ p.object.ofClass .data :=
    List.mem_filter.2 ⟨hq, by rw [hqcls]; exact beq_self_eq_true _⟩
  obtain ⟨b, hb, start, hstart⟩ := given_mem hdata hmem
  have hspot : (q.index, Block.address b.ram start) ∈ p.space.spots := by
    rw [Reservation.spots, hb]
    exact List.mem_append_right _ (List.mem_append_left _ (List.mem_map.2 ⟨_, hstart, rfl⟩))
  have ha := hp.reserved.get?_spot hp.inspected.describes hq hspot
  refine ⟨b.ram, start, congrArg (Option.map Block.ram) hb, ((hp.reserved.housed.1 b hb).laid.mem hstart).2,
    ⟨⟨q.index, q.name, .data, q.size, _⟩, mem_placedSections.2 ⟨q, hq, ⟨hqcls, rfl, rfl, rfl⟩, ha⟩, rfl, rfl,
      rfl, rfl⟩, fun k hk hfields => ?_⟩
  -- what the section is linked to is the file, apart from the fields
  have hentries := hp.inspected.describes.entries_eq _ q (index_lt hp.inspected.describes hq).2
    (by rw [hqcls]; rfl)
  obtain ⟨-, hlink⟩ := hlinked b hb _ hstart
  have hkeep := Relocation.linkAll_getElem? hlink (i := k) fun r hr => by
    rw [Nat.zero_add]
    exact hfields r (hentries ▸ hr)
  have hsize : k < q.size := hk
  rwa [Bytes.getElem?_slice, Bytes.getElem?_slice, if_pos hsize, if_pos hsize] at hkeep

end Plan.Settled

end Job

namespace Source.Served

variable {config : LoaderConfig} {data : Bytes} {R : Purpose → List ReadRequest → Prop} {l : List Purpose}
  {s t : Source}

/-- What all loads have in common, whatever they come to. -/
lemma limits (h : Served config data R l s t) (hR : ∀ p m, R p m → p.Begun data m) :
    ∃ log : List LoggedRead, Logged log s t ∧
      (∀ r ∈ log, r.purpose.Asks config data r.request ∧
        ((∃ i, r.purpose = .whole i) ∨ r.request.len ≤ config.readLimit data)) ∧
      (∀ i h, (Object.rawHeaders data)[i]? = some h →
        requestsFor (.whole i) log <+: [⟨h.offset, h.size⟩] ∧
        ∃ stop ≤ h.size, Tiles h.offset (h.offset + stop) (requestsFor (.chunk i) log)) ∧
      ∀ p ∈ l, R p (requestsFor p log) := by
  obtain ⟨log, hlog, hall, hl⟩ := h
  have hbegun : ∀ p : Purpose, p.isTable = false → p.Begun data (requestsFor p log) := by
    intro p hp
    by_cases hmem : p ∈ l
    · exact hR p _ (hl p hmem).2
    · have hnone : requestsFor p log = [] := requestsFor_eq_nil fun r hr hrp => by
        rcases (hall r hr).2 with h | h
        · rw [hrp, hp] at h
          cases h
        · exact hmem (hrp ▸ h)
      exact hnone ▸ Purpose.begun_nil p
  refine ⟨log, hlog, fun r hr => ⟨(hall r hr).1, ?_⟩, fun i h hi => ?_, fun p hp => (hl p hp).2⟩
  · by_cases hwhole : ∃ i, r.purpose = .whole i
    · exact .inl hwhole
    · exact .inr ((hall r hr).1.len_le fun i hi => hwhole ⟨i, hi⟩)
  · exact ⟨hbegun (.whole i) rfl h hi, hbegun (.chunk i) rfl h hi⟩

end Source.Served

namespace Loader

open Job

variable {s : State} {name entry : String} {exports : Lookup}

/-- **Reads are bounded, and sections are read once.** However a load ends, every read is one that its
purpose asks for, and none is longer than the limit but those of whole sections of variables, one for each
at most. Of a section that goes to flash the bytes read are the first ones, in consecutive reads. If the
load succeeds these are all of its bytes, each of them in exactly one read. A section of variables then fills
its part of the block with the one read of it, but for the fields that are relocated. -/
theorem load_reads (hl : s.loader.Sized) :
    let config := s.loader.config
    let data := s.source.data
    let o := load name exports entry s
    ∃ log : List LoggedRead, Source.Logged log s.source o.state.source ∧
      (∀ r ∈ log, r.purpose.Asks config data r.request ∧
        ((∃ i, r.purpose = .whole i) ∨ r.request.len ≤ config.readLimit data)) ∧
      (∀ i h, (Object.rawHeaders data)[i]? = some h →
        requestsFor (.whole i) log <+: [⟨h.offset, h.size⟩] ∧
        ∃ stop ≤ h.size, Tiles h.offset (h.offset + stop) (requestsFor (.chunk i) log)) ∧
      ∀ image, o.result = .ok image → ∀ i h, (Object.rawHeaders data)[i]? = some h →
        (h.class? = some .text ∨ h.class? = some .readOnly →
          Tiles h.offset (h.offset + h.size) (requestsFor (.chunk i) log) ∧
          ∀ k, (requestsFor (.chunk i) log).countP (fun r => r.offset ≤ k ∧ k < r.offset + r.len) =
            if h.offset ≤ k ∧ k < h.offset + h.size then 1 else 0) ∧
        (h.class? = some .data →
          requestsFor (.whole i) log = [⟨h.offset, h.size⟩] ∧
          ∃ b start, image.data = some b ∧ start + h.size ≤ b.len ∧
            (∃ q ∈ image.sections, q.index = i ∧ q.cls = .data ∧ q.size = h.size ∧
              q.addr = b.addr + UInt32.ofNat start) ∧
            ∀ k < h.size, (∀ r ∈ Object.rawEntries data i, k < r.start ∨ r.stop ≤ k) →
              o.state.context.pool.mem[b.offset + start + k]? = data[h.offset + k]?) := by
  intro config data o
  have hrun : Sat (load name exports entry) s
      (fun image s' => ∃ p e, Plan.Settled config s.source s.context e p ∧
        image = p.image name image.entry ∧
        DataLinked (p.scope exports) s.source config.strict p.space s'.context.pool.mem ∧
        Served config data (Purpose.Done data) p.object.turns s.source s'.source)
      (fun _ s' => ∃ l, Served config data (Purpose.Begun data) l s.source s'.source) := by
    obtain ⟨⟨_, scratch⟩, source, context⟩ := s
    unfold load
    refine Sat.get_bind (sat_zoom.2 ?_)
    exact (run_reads hl (.refl _) (SymbolCache.find?_create _)).mono (fun _ _ h => h) fun _ _ h => h
  rcases hresult : o.result with e | image
  · obtain ⟨l, hserved⟩ := hrun.of_failure hresult
    obtain ⟨log, hlog, hall, hsections, -⟩ := hserved.limits fun _ _ h => h
    exact ⟨log, hlog, hall, hsections, nofun⟩
  obtain ⟨p, e, hp, himage, hlinked, hserved⟩ := hrun.of_result hresult
  obtain ⟨log, hlog, hall, hsections, hdone⟩ := hserved.limits fun _ _ => Purpose.Done.begun
  refine ⟨log, hlog, hall, hsections, ?_⟩
  rintro _ ⟨⟩ i h hi
  refine ⟨fun hcls => ?_, fun hcls => ⟨hdone _ (hp.whole_mem_turns hi hcls) h hi, ?_⟩⟩
  · have hflash : h.class?.any SectionClass.isFlash := by
      rcases hcls with hcls | hcls <;> rw [hcls] <;> rfl
    have htiles := hdone _ (hp.chunk_mem_turns hi hflash) h hi
    exact ⟨htiles, htiles.once⟩
  · rw [himage]
    exact hp.data_filled hlinked hi hcls

/-- Code with an address across the sixteenth byte, and two variables. -/
def seamObject : Bytes := Small.object
  (Small.ofWords [0x4770, 0, 0, 0, 0, 0, 0, 1, 2, 14, 0x102, 0, 0, 0, 0, 1, 1, 0, 0x10012] ++
    (Bytes.ofText "\x00e\x00.text\x00.data\x00").toList)
  [.replicate 10 0, [3, 1, 6, 0, 52, 28, 0, 0, 4, 0], [9, 1, 3, 0, 80, 8, 0, 0, 4, 0],
    [0, 9, 0, 0, 88, 8, 4, 1, 4, 8], [0, 2, 0, 0, 96, 32, 5, 1, 4, 16], [0, 3, 0, 0, 128, 15, 0, 0, 1, 0]]

/-- With chunks of 16 bytes the first one ends before the address. -/
theorem load_reads_seamObject :
    ∃ image s' es, Small.load 16 seamObject Small.context = ⟨.ok image, s', es⟩ ∧
      (s'.source.reads.reverse.filter fun r => 52 ≤ r.offset ∧ r.offset < 88) =
        [⟨52, 12⟩, ⟨64, 16⟩, ⟨80, 8⟩] ∧
      ∃ log, Source.Logged log (.ofBytes "m" seamObject) s'.source ∧
        (∀ r ∈ log, (∃ i, r.purpose = .whole i) ∨ r.request.len ≤ 52) ∧
        Tiles 52 80 (requestsFor (.chunk 1) log) ∧ requestsFor (.whole 2) log = [⟨80, 8⟩] := by
  have hread : (Small.load 16 seamObject Small.context).result.toOption.isSome ∧
      ((Small.load 16 seamObject Small.context).state.source.reads.reverse.filter fun r =>
        52 ≤ r.offset ∧ r.offset < 88) = [⟨52, 12⟩, ⟨64, 16⟩, ⟨80, 8⟩] := by decide +kernel
  have hlimit : (Small.loader 16).config.readLimit seamObject = 52 := by decide +kernel
  have hheaders : (Object.rawHeaders seamObject)[1]?.any (fun h =>
        h.class? = some .text ∧ h.offset = 52 ∧ h.size = 28) ∧
      (Object.rawHeaders seamObject)[2]?.any fun h =>
        h.class? = some .data ∧ h.offset = 80 ∧ h.size = 8 := by decide +kernel
  obtain ⟨t, ht, htext⟩ := (Option.any_eq_true _ _).1 hheaders.1
  obtain ⟨d, hd, hdata⟩ := (Option.any_eq_true _ _).1 hheaders.2
  replace htext := of_decide_eq_true htext
  replace hdata := of_decide_eq_true hdata
  obtain ⟨image, s', es, hload⟩ := exists_ok hread.1
  have hreads := @load_reads ⟨Small.loader 16, .ofBytes "m" seamObject, Small.context⟩ "m" "e"
    (fun _ => none) (Small.loader_sized (by decide) rfl)
  have hrun : load "m" (fun _ => none) "e" ⟨Small.loader 16, .ofBytes "m" seamObject, Small.context⟩ =
      ⟨.ok image, s', es⟩ := hload
  rw [hrun] at hreads
  obtain ⟨log, hlog, hall, -, hok⟩ := hreads
  rw [hload] at hread
  obtain ⟨htiles, -⟩ := (hok image rfl 1 t ht).1 (.inl htext.1)
  obtain ⟨hwhole, -⟩ := (hok image rfl 2 d hd).2 hdata.1
  refine ⟨image, s', es, hload, hread.2, log, hlog, fun r hr => (hall r hr).2.imp_right fun h => ?_, ?_, ?_⟩
  · exact hlimit ▸ h
  · rwa [htext.2.1, htext.2.2] at htiles
  · rwa [hdata.2.1, hdata.2.2] at hwhole

end Loader

end FlashLink
