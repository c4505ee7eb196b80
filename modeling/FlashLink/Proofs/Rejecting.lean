import FlashLink.Proofs.ChunkSizes
import FlashLink.Proofs.Failures
import FlashLink.Proofs.Footprints

/-!
What a load leaves behind that a fault of the object ends.

Whatever can be told from headers and tables shows while the object is inspected, before anything is
allocated, and leaves the context as it was. One fault shows only while a section is streamed: no chunk
can end between its fields. By then there has been allocated and erased, and the context is never as it
was.
-/

namespace FlashLink

open Act Relocation

/-! ### Faults that show late -/

/-- If this is a fault of the object, then that no chunk can end between its fields, and the object is
not divisible. -/
def Error.Uncut (divisible : Prop) (e : Error) : Prop :=
  ∀ why, e = .parse why → (∃ b, why = .straddled b) ∧ ¬ divisible

namespace Error

variable {p q : Prop} {e : Error}

lemma Uncut.mono (h : e.Uncut p) (hpq : q → p) : e.Uncut q := fun why hwhy =>
  ⟨(h why hwhy).1, fun hq => (h why hwhy).2 (hpq hq)⟩

lemma OfLinking.uncut (h : e.OfLinking) : e.Uncut p := by
  rintro why rfl
  exact h.elim

lemma OfSpace.not_parse (h : e.OfSpace) (why : ObjectFault) : e ≠ .parse why := by
  rintro rfl
  exact h

lemma uncut_of_flash (h : ∃ why, e = .flash why) : e.Uncut p := by
  obtain ⟨_, rfl⟩ := h
  exact nofun

end Error

namespace Bench

variable {chunk : Nat} {c : Scope} {src : Source} {strict : Bool} {s : SectionInfo} {span : FlashSpan}

/-- The end of a chunk is not found only if the section cannot be cut from there on. -/
lemma chunkEnd_uncut {start : Nat} {d : Desk} (hd : d.Ready chunk c src) (hheld : s.TableHeld src)
    (hword : chunk % wordSize = 0) (hpos : 0 < chunk) (hcut : Cut (s.entries src.data) start)
    (hlt : start < s.size) :
    Sat (chunkEnd s start) d
      (fun stop d' => d'.Ready chunk c src ∧ start < stop ∧ stop ≤ s.size ∧ stop ≤ start + chunk ∧
        (stop < s.size → Cut (s.entries src.data) stop))
      (fun e _ => e.Uncut (Divisible (s.entries src.data) chunk s.size start)) := by
  have hraises : Raises (fun e => ∀ why, e = .parse why → ∃ b, why = .straddled b)
      (chunkEnd s start) := by
    refine chunkEnd_raises (fun _ => nofun) (fun b => ?_) s start
    rintro _ ⟨⟩
    exact ⟨b, rfl⟩
  exact (hraises.sat (chunkEnd_cut hd hheld hword hpos hcut hlt)).mono (fun _ _ h => h)
    fun _ _ h why hwhy => ⟨h.1 why hwhy, h.2⟩

/-- Streaming from a cut on. Flash may fail; it is not read, so the desk does not depend on it. -/
lemma streamFrom_uncut {fuel start chunks : Nat} {sum : Tally} {d : Desk} {r : Region}
    (hd : d.Ready chunk c src) (hheld : s.TableHeld src) (hword : chunk % wordSize = 0)
    (hpos : 0 < chunk) (hstart : start < s.size → Cut (s.entries src.data) start) :
    Sat (streamFrom c strict s span fuel start chunks sum) (d, r)
      (fun _ t => t.1.Ready chunk c src)
      (fun e _ => e.Uncut (Divisible (s.entries src.data) chunk s.size start)) := by
  induction fuel generalizing start chunks sum d r with
  | zero => exact hd
  | succ fuel ih =>
    refine streamFrom_rule (fun _ => hd) fun hover => ?_
    refine (chunkEnd_uncut hd hheld hword hpos (hstart hover) hover).mono ?_ fun _ _ h => h
    rintro stop d₁ ⟨hd₁, hlt, hle, hreach, hstop⟩
    have hsize := s.size_lt
    refine ((Desk.stageChunk_raises _ _ _ _ _ _ _).sat (Desk.stageChunk_sat hd₁ hheld hword (by omega)
      (by omega) (by omega))).mono ?_ fun _ _ h => h.1.uncut
    rintro done d₂ ⟨hd₂, -⟩
    refine (Region.write_raises _ _ _).mono (fun _ r' _ => ?_) fun _ _ h => Error.uncut_of_flash h
    exact (ih hd₂ hstop).mono (fun _ _ h => h) fun _ _ h => h.mono (divisible_step hlt hreach hstop).1

/-- Streaming a section. -/
lemma stream_uncut {d : Desk} {r : Region} (hd : d.Ready chunk c src) (hheld : s.TableHeld src)
    (hword : chunk % wordSize = 0) (hpos : 0 < chunk) :
    Sat (stream c strict s span) (d, r) (fun _ t => t.1.Ready chunk c src)
      (fun e _ => e.Uncut (Divisible (s.entries src.data) chunk s.size 0)) := by
  refine stream_rule ((Region.erase_raises _ _).mono (fun _ r' _ => ?_) fun _ _ h => Error.uncut_of_flash h)
  refine streamFrom_uncut hd hheld hword hpos fun _ => ⟨rfl, fun _ _ h => ?_⟩
  exact Nat.not_lt_zero _ h.1

end Bench

/-! ### Loads -/

namespace Job

variable {src : Source} {config : LoaderConfig} {j : Job} {chunk : Nat} {c : Scope} {strict : Bool}

lemma streamAll_uncut {flash : List (SectionInfo × FlashSpan)} {sum : Tally}
    (hd : j.desk.Ready chunk c src) (hword : chunk % wordSize = 0) (hpos : 0 < chunk)
    (hheld : ∀ q ∈ flash, q.1.TableHeld src) :
    Sat (streamAll c strict flash sum) j (fun _ _ => True)
      (fun e _ => e.Uncut (∀ q ∈ flash, Divisible (q.1.entries src.data) chunk q.1.size 0)) := by
  induction flash generalizing sum j with
  | nil => trivial
  | cons q rest ih =>
    refine streamAll_rule ((Bench.stream_uncut hd (hheld q (.head _)) hword hpos).mono (fun done w hd' => ?_)
      fun _ _ h => h.mono fun h' => h' q (.head _))
    exact (ih hd' fun q hq => hheld q (.tail _ hq)).mono (fun _ _ _ => trivial)
      fun _ _ h => h.mono fun h' q hq => h' q (.tail _ hq)

/-- Committing is where an object can show that it cannot be cut. -/
lemma commit_uncut {space : Reservation} (hd : j.desk.Ready chunk c src)
    (hword : chunk % wordSize = 0) (hpos : 0 < chunk)
    (hheld : ∀ q ∈ space.flash, q.1.TableHeld src) :
    Sat (commit c strict space) j (fun _ _ => True)
      (fun e _ => e.Uncut (∀ q ∈ space.flash, Divisible (q.1.entries src.data) chunk q.1.size 0)) := by
  unfold commit
  refine Sat.bind (streamAll_uncut hd hword hpos hheld) (fun sum j1 _ => ?_) fun _ _ h => h
  refine raised_iff_sat.1 (Raises.mono (K := Error.OfLinking) ?_ (fun _ h => h.uncut) j1)
  rcases space.data with _ | b <;> dsimp only
  · exact (Raises.pure _).bind fun _ => clearLast_raises space _
  · exact (Workshop.copyAll_raises _ _ _ _ _).zoom.bind fun _ => clearLast_raises space _

/-- A load that got stuck. Space had been reserved, which made the context `c` another one; of that
nothing but the reserved space has been written since, and one of the sections there cannot be cut. -/
def Stuck (config : LoaderConfig) (src : Source) (c c' : Context) : Prop :=
  ∃ p e, Plan.Settled config src c e p ∧ Wrote p.space c.xip.nextFree e c' ∧
    ∃ q ∈ p.space.flash, ¬ Divisible (q.1.entries src.data) config.chunkSize q.1.size 0

/-- A section that is streamed takes space, of which there is less then. -/
lemma Stuck.advanced {c c' : Context} (h : Stuck config src c c') :
    c.xip.nextFree < c'.xip.nextFree := by
  obtain ⟨p, e, hsettled, hwrote, ⟨s, span⟩, hq, -⟩ := h
  have hreserved := hsettled.reserved
  obtain ⟨h1, h2, h3⟩ := hreserved.spans.mem hq
  have hlen : 0 < span.len := by
    have hs : s ∈ p.object.inFlash := hreserved.sections_eq ▸ List.mem_map_of_mem hq
    obtain ⟨hmem, hcls⟩ := List.mem_filter.1 hs
    have hsize := hsettled.inspected.describes.size_pos hmem (by
      rcases hc : s.cls with _ | cls
      · rw [hc] at hcls
        cases hcls
      · rfl)
    rw [h3]
    dsimp only
    rcases Nat.eq_zero_or_pos c.xip.sector with h0 | h0
    · rw [alignUp, if_pos h0]
      exact hsize
    · exact Nat.lt_of_lt_of_le hsize (le_alignUp _ h0)
  rw [hwrote.xip.free_eq]
  omega

/-- A fault of the object is found before the load has done anything, or it gets stuck on it. -/
lemma run_rejects {name entry : String} {exports : Lookup}
    (hchunk : j.desk.scratch.staging.size = config.chunkSize)
    (hbatch : 0 < j.desk.scratch.batchSize) (hword : config.chunkSize % wordSize = 0)
    (hpos : 0 < config.chunkSize) (hsrc : Source.Same src j.desk.linker.source)
    (hempty : ∀ i, j.desk.linker.cache.find? i = none) :
    Sat (run config name exports entry) j (fun _ _ => True)
      (fun e j' => ∀ why, e = .parse why →
        (j'.context = j.context ∧ ∀ b, why ≠ .straddled b) ∨
          (∃ b, why = .straddled b) ∧ Stuck config src j.context j'.context) := by
  unfold run
  refine Sat.bind ((inspect_raises config name).sat ((inspect_sat name hsrc hbatch).and
    (inspect_context config name j))) ?_ ?_
  swap
  · rintro e j' ⟨hobject, -, hcontext⟩ why rfl
    refine .inl ⟨hcontext, ?_⟩
    rintro b rfl
    exact hobject
  rintro ⟨o, symbols⟩ j1 ⟨⟨hinspected, hre, -⟩, hc1⟩
  refine Sat.bind ((reserve_raises o).sat (reserve_granted o j1)) ?_
    fun _ _ h why hwhy => (h.1.not_parse why hwhy).elim
  rintro space j2 ⟨hgranted, hdesk⟩
  rw [hc1] at hgranted
  have hsettled : Plan.Settled config src j.context j2.context ⟨o, symbols, space⟩ :=
    ⟨hinspected, hgranted⟩
  have hreserved := hsettled.reserved
  dsimp only
  set scope : Scope := ⟨symbols, space.placement o, exports⟩
  have hready : j2.desk.Ready config.chunkSize scope src := by
    rw [hdesk]
    exact (Desk.ready_of_empty hchunk hbatch hsrc hempty).reread hre
  have hheld : ∀ q ∈ space.flash, q.1.TableHeld src := fun q hq => by
    have hs : q.1 ∈ o.inFlash := hreserved.sections_eq ▸ List.mem_map_of_mem hq
    exact (hinspected.tables q.1 (List.mem_filter.1 hs).1).held
  refine Sat.bind ((commit_uncut hready hword hpos hheld).and
    (commit_wrote (fun q hq => (hreserved.spans.mem hq).1) j2)) ?_ ?_
  swap
  · rintro e j3 ⟨huncut, hwrote⟩ why hwhy
    obtain ⟨hstraddled, hnot⟩ := huncut why hwhy
    simp only [not_forall] at hnot
    obtain ⟨q, hq, hnot⟩ := hnot
    exact .inr ⟨hstraddled, _, _, hsettled, hwrote, q, hq, hnot⟩
  rintro sum j3 -
  refine Sat.mono (E := fun e _ => e.OfLinking) (raised_iff_sat.1 (Raises.bind
    (Scope.entryAddress_raises scope entry).zoom (fun _ => (Raises.note _).bind fun _ =>
      Raises.get.bind fun _ => (Raises.note _).bind fun _ => .pure _) j3)) (fun _ _ h => h) ?_
  rintro _ _ h why rfl
  exact h.elim

end Job

namespace Loader

variable {s s' : State} {name entry : String} {exports : Lookup} {es : List Event}

/-- **Faults of the object.** A load that ends with one leaves the context exactly as it was, unless
no chunk could end between the fields of a section. That fault it leaves with space allocated, and with
nothing else written. Failures of flash may be armed. -/
theorem load_parse_error (hl : s.loader.Sized) {why : ObjectFault}
    (hload : load name exports entry s = ⟨.error (.parse why), s', es⟩) :
    (s'.context = s.context ↔ ∀ b, why ≠ .straddled b) ∧
      ∀ b, why = .straddled b → Job.Stuck s.loader.config s.source s.context s'.context := by
  have hrejects : (s'.context = s.context ∧ ∀ b, why ≠ .straddled b) ∨
      (∃ b, why = .straddled b) ∧ Job.Stuck s.loader.config s.source s.context s'.context := by
    obtain ⟨⟨config, scratch⟩, source, context⟩ := s
    have hrun : Sat (load name exports entry) ⟨⟨config, scratch⟩, source, context⟩ (fun _ _ => True)
        fun e t => ∀ why, e = .parse why → (t.context = context ∧ ∀ b, why ≠ .straddled b) ∨
          (∃ b, why = .straddled b) ∧ Job.Stuck config source context t.context := by
      unfold load
      refine Sat.get_bind (sat_zoom.2 ?_)
      exact (Job.run_rejects hl.staging_size hl.batch hl.chunk.1 hl.chunk.2 (.refl _)
        (SymbolCache.find?_create _)).mono (fun _ _ h => h) fun _ _ h => h
    exact hrun.of_error hload why rfl
  rcases hrejects with ⟨hsame, hnot⟩ | ⟨⟨b, rfl⟩, hstuck⟩
  · exact ⟨⟨fun _ => hnot, fun _ => hsame⟩, fun b hb => (hnot b hb).elim⟩
  · refine ⟨⟨fun hsame => ?_, fun hnot => (hnot b rfl).elim⟩, fun _ _ => hstuck⟩
    have := hstuck.advanced
    rw [hsame] at this
    omega

/-- The fields of the packed module do not overlap, yet with chunks of 16 bytes no chunk can end
between them. The load fails with its flash reserved. -/
theorem load_parse_error_packedObject :
    ∃ s' es, Small.load 16 packedObject Small.context = ⟨.error (.parse (.straddled 4)), s', es⟩ ∧
      s'.context ≠ Small.context ∧ Job.Stuck (Small.loader 16).config (.ofBytes "m" packedObject)
        Small.context s'.context := by
  have hfails : (Small.load 16 packedObject Small.context).result =
      .error (.parse (.straddled 4)) := by decide +kernel
  rcases hload : Small.load 16 packedObject Small.context with ⟨r, s', es⟩
  rw [hload] at hfails
  cases hfails
  obtain ⟨hiff, hstuck⟩ := load_parse_error
    (s := ⟨Small.loader 16, .ofBytes "m" packedObject, Small.context⟩)
    (Small.loader_sized (by decide) rfl) hload
  exact ⟨s', es, rfl, fun h => hiff.1 h 4 rfl, hstuck 4 rfl⟩

end Loader

end FlashLink
