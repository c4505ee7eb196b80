import FlashLink.Proofs.Buffers
import FlashLink.Proofs.Untouched

/-!
A load over different remains. Streaming erases a span before it writes there, and copying fills a
section before it relocates it, so a load answers the same in twin contexts and leaves twins behind.
These agree on all flash that has been allocated, and in the pool wherever the load has written.
-/

namespace FlashLink

open Act

/-! ### Streaming -/

namespace Bench

variable {F : Nat → Prop} {d e : Desk} {r r' : Region} {scope : Scope} {strict : Bool}
  {s : SectionInfo} {span : FlashSpan}

/-- The span is whole words from a word boundary on, and has room for the section. -/
structure Roomy (s : SectionInfo) (span : FlashSpan) : Prop where
  start_word : span.offset % wordSize = 0
  len_word : span.len % wordSize = 0
  size_le : s.size ≤ span.len

/-- Benches at the same point. -/
structure Twin (F : Nat → Prop) (w w' : Bench) : Prop where
  desk : w.1.Twin (fun _ => False) w'.1
  region : w.2.Twin F w'.2

/-- A section stays in a span that is roomy. -/
lemma Roomy.takes (hroom : Roomy s span)
    (hF : ∀ k, span.offset ≤ k → k < span.offset + span.len → ¬ F k) :
    Takes (Region.Twin F) s span where
  reported _ _ hr := hr.reported_eq
  write r r' start len data hr hlen hdata := by
    refine hr.write_sim fun hword k h1 h2 => hF k (by omega) ?_
    -- whole words from a word boundary in the span on stay in the span
    obtain ⟨h3, h4, h5⟩ := hroom
    have hle : alignUp len wordSize ≤ span.len - start := by
      refine alignUp_le (by decide) ?_ (by omega)
      refine Nat.dvd_of_mod_eq_zero ?_
      rw [wordSize] at *
      omega
    omega

lemma streamFrom_sim (hroom : Roomy s span)
    (hF : ∀ k, span.offset ≤ k → k < span.offset + span.len → ¬ F k)
    (fuel start chunks : Nat) (sum : Tally) (hd : d.Twin (fun _ => False) e)
    (hr : r.Twin F r') :
    Sim (streamFrom scope strict s span fuel start chunks sum)
      (streamFrom scope strict s span fuel start chunks sum) (d, r) (e, r')
      (fun _ => Twin F) (fun _ => Twin F) :=
  (streamFrom_over (hroom.takes hF) fuel start chunks sum hd hr).mono
    (fun _ _ _ h => ⟨h.desk, h.rest⟩) fun _ _ _ h => ⟨h.desk, h.rest⟩

/-- Streaming settles its span. -/
lemma stream_sim (hroom : Roomy s span) (hd : d.Twin (fun _ => False) e) (hr : r.Twin F r') :
    Sim (stream scope strict s span) (stream scope strict s span) (d, r) (e, r')
      (fun _ => Twin fun k => F k ∧ ¬ (span.offset ≤ k ∧ k < span.offset + span.len))
      (fun _ => Twin F) := by
  unfold stream
  refine Sim.bind (S := fun _ => Twin fun k => F k ∧ ¬ (span.offset ≤ k ∧ k < span.offset + span.len))
    (G := fun _ => Twin F) ?_ ?_ fun _ _ _ h => h
  · rw [sim_zoom, sim_ofOp]
    exact (hr.erase_sim span).mono (fun _ _ _ h => ⟨hd, h⟩) fun _ _ _ h => ⟨hd, h⟩
  · rintro _ ⟨d1, r1⟩ ⟨e1, r1'⟩ ⟨hd1, hr1⟩
    refine Sim.bind (streamFrom_sim hroom (fun k h1 h2 h => h.2 ⟨h1, h2⟩) _ _ _ _ hd1 hr1) ?_ ?_
    · exact fun _ _ _ h => Sim.note_bind (sim_pure.2 h)
    · exact fun _ _ _ h => ⟨h.desk, h.region.mono fun _ hk _ => hk.1⟩

end Bench

/-! ### Copying -/

namespace Workshop

variable {G : Nat → Prop} {d e : Desk} {p q : Pool} {scope : Scope} {strict : Bool}
  {ram : RamBlock} {s : SectionInfo}

/-- Workshops at the same point. -/
structure Twin (G : Nat → Prop) (w w' : Workshop) : Prop where
  desk : w.1.Twin (fun _ => False) w'.1
  pool : w.2.Twin G w'.2

lemma relocate_sim {start : Nat} (hG : ∀ i, start ≤ i → i < start + s.size → ¬ G i) (base : Addr)
    (t : RelocationTable) (fuel first : Nat) (sum : Tally) (hd : d.Twin (fun _ => False) e)
    (hp : p.Twin G q) :
    Sim (copySection.relocate scope strict s start base t fuel first sum)
      (copySection.relocate scope strict s start base t fuel first sum) (d, p) (e, q)
      (fun _ => Twin G) (fun _ => Twin G) := by
  have hshares : Shares (Pool.Twin G) s start :=
    ⟨fun _ _ h => (h.same.slice_eq hG).symm,
      fun _ _ _ h => h.withMem (h.same.overwrite fun _ hi => .inl hi)⟩
  exact (relocate_over hshares base t fuel first sum hd hp).mono
    (fun _ _ _ h => ⟨h.desk, h.rest⟩) fun _ _ _ h => ⟨h.desk, h.rest⟩

/-- Copying settles the bytes of the section. -/
lemma copySection_sim (offset : Nat) (hd : d.Twin (fun _ => False) e) (hp : p.Twin G q) :
    Sim (copySection scope strict ram s offset) (copySection scope strict ram s offset) (d, p) (e, q)
      (fun _ => Twin fun i => G i ∧ ¬ Within ram s offset i) (fun _ => Twin G) := by
  obtain ⟨scratch, source, cache⟩ := d
  obtain ⟨scratch', linker⟩ := e
  obtain ⟨hlinker, hraw, hstaging⟩ := hd
  dsimp only at hlinker hraw hstaging
  subst hlinker
  unfold copySection
  refine Sim.bind (S := fun _ => Twin fun i => G i ∧ ¬ Within ram s offset i)
    (G := fun _ => Twin G) ?_ ?_ fun _ _ _ h => h
  · rw [sim_zoom]
    refine (Source.readInto_sim (J := fun i => ¬ (G i ∧ ¬ Within ram s offset i)) hp.same
      (fun i hi => ?_) _ source).mono ?_ ?_
    · by_cases hg : G i
      · refine .inr ?_
        by_contra hout
        exact hi ⟨hg, hout⟩
      · exact .inl hg
    all_goals
      rintro _ ⟨mem, src⟩ ⟨mem', src'⟩ ⟨hs, hmem⟩
      dsimp only at hs
      subst hs
      exact ⟨⟨rfl, hraw, hstaging⟩, hp.withMem hmem⟩
  rintro _ ⟨d1, p1⟩ ⟨e1, q1⟩ ⟨hd1, hp1⟩
  rcases s.relocations with _ | t <;> dsimp only
  · exact Sim.pure_bind (Sim.note_bind (sim_pure.2 ⟨hd1, hp1⟩))
  · refine Sim.bind (relocate_sim (fun i h1 h2 h => h.2 ⟨h1, h2⟩) _ t _ _ _ hd1 hp1) ?_ ?_
    · exact fun _ _ _ h => Sim.note_bind (sim_pure.2 h)
    · exact fun _ _ _ h => ⟨h.desk, h.pool.mono fun _ hi => hi.1⟩

lemma copyAll_sim (offsets : List (SectionInfo × Nat)) (sum : Tally)
    (hd : d.Twin (fun _ => False) e) (hp : p.Twin G q) :
    Sim (copyAll scope strict ram offsets sum) (copyAll scope strict ram offsets sum) (d, p) (e, q)
      (fun _ => Twin fun i => G i ∧ ∀ x ∈ offsets, ¬ Within ram x.1 x.2 i) (fun _ => Twin G) := by
  induction offsets generalizing sum d e p q G with
  | nil => exact sim_pure.2 ⟨hd, hp.mono fun i hi => ⟨hi, fun _ h => by cases h⟩⟩
  | cons x rest ih =>
    refine Sim.bind (copySection_sim x.2 hd hp) ?_ fun _ _ _ h => h
    rintro done ⟨d1, p1⟩ ⟨e1, q1⟩ ⟨hd1, hp1⟩
    refine (ih _ hd1 hp1).mono ?_ fun _ _ _ h => ⟨h.desk, h.pool.mono fun _ hi => hi.1⟩
    rintro _ w w' ⟨hw, hw'⟩
    exact ⟨hw, hw'.mono fun i hi => ⟨hi.1.1, List.forall_mem_cons.2 ⟨hi.1.2, hi.2⟩⟩⟩

end Workshop

/-- Clearing settles the block. -/
lemma Block.clear_sim {G : Nat → Prop} {p q : Pool} (b : Block) (h : p.Twin G q) :
    Sim b.clear b.clear p q
      (fun _ => Pool.Twin fun i => G i ∧ ¬ (b.ram.offset ≤ i ∧ i < b.ram.offset + b.ram.len))
      (fun _ _ _ => False) := by
  refine Sim.modify_bind ⟨rfl, h.withMem (h.same.fill fun i hi => ?_)⟩
  by_cases hg : G i
  · refine .inr ?_
    by_contra hout
    exact hi ⟨hg, hout⟩
  · exact .inl hg

/-! ### Loading -/

namespace Job

variable {F G : Nat → Prop} {j k : Job} {scope : Scope} {strict : Bool}

/-- The offsets of flash that are in none of the spans. -/
def Reservation.Beside (space : Reservation) (i : Nat) : Prop :=
  ∀ q ∈ space.flash, ¬ (q.2.offset ≤ i ∧ i < q.2.offset + q.2.len)

/-- Jobs at the same point, over different remains. -/
structure Twin (F G : Nat → Prop) (j k : Job) : Prop where
  desk : j.desk.Twin (fun _ => False) k.desk
  context : j.context.LoadTwin F G k.context

lemma Twin.mono {F' G' : Nat → Prop} (h : Twin F G j k) (hF : ∀ i, F i → F' i)
    (hG : ∀ i, G i → G' i) : Twin F' G' j k :=
  ⟨h.1, h.2.1.mono fun i hi _ => hF i hi, h.2.2.mono hG⟩

lemma Twin.over (h : Twin F G j k) : Over (Context.LoadTwin F G) j k := ⟨h.desk, h.context⟩

lemma Over.twin (h : Over (Context.LoadTwin F G) j k) : Twin F G j k := ⟨h.desk, h.context⟩

/-- Reading goes alike, as the sources are the same. -/
lemma read_sim {α : Type} (x : Act Source α) (h : Twin F G j k) :
    Sim (zoom sourcePart x) (zoom sourcePart x) j k (fun _ => Twin F G) (fun _ => Twin F G) :=
  (read_over x h.over).mono (fun _ _ _ h => h.twin) fun _ _ _ h => h.twin

lemma inspect_sim (config : LoaderConfig) (name : String) (h : Twin F G j k) :
    Sim (inspect config name) (inspect config name) j k (fun _ => Twin F G) (fun _ => Twin F G) :=
  (inspect_over config name h.over).mono (fun _ _ _ h => h.twin) fun _ _ _ h => h.twin

lemma streamAll_sim (flash : List (SectionInfo × FlashSpan)) (sum : Tally)
    (hroom : ∀ q ∈ flash, Bench.Roomy q.1 q.2) (h : Twin F G j k) :
    Sim (streamAll scope strict flash sum) (streamAll scope strict flash sum) j k
      (fun _ => Twin (fun i => F i ∧ ∀ q ∈ flash,
        ¬ (q.2.offset ≤ i ∧ i < q.2.offset + q.2.len)) G) (fun _ => Twin F G) := by
  induction flash generalizing sum j k F with
  | nil =>
    exact sim_pure.2 (h.mono (fun i hi => ⟨hi, fun _ hq => by cases hq⟩) fun _ hi => hi)
  | cons q rest ih =>
    unfold streamAll
    refine Sim.bind (S := fun _ => Twin (fun i => F i ∧
        ¬ (q.2.offset ≤ i ∧ i < q.2.offset + q.2.len)) G) (G := fun _ => Twin F G) ?_ ?_
      fun _ _ _ h => h
    · rw [sim_zoom]
      exact (Bench.stream_sim (hroom q (.head _)) h.desk h.context.xip).mono
        (fun _ _ _ hw => ⟨hw.desk, hw.region, h.context.pool⟩)
        fun _ _ _ hw => ⟨hw.desk, hw.region, h.context.pool⟩
    · intro done j1 k1 h1
      refine (ih _ (fun p hp => hroom p (.tail _ hp)) h1).mono ?_ ?_
      · exact fun _ _ _ h2 => h2.mono
          (fun i hi => ⟨hi.1.1, List.forall_mem_cons.2 ⟨hi.1.2, hi.2⟩⟩) fun _ hi => hi
      · exact fun _ _ _ h2 => h2.mono (fun _ hi => hi.1) fun _ hi => hi

/-- The last block, when the others are settled. -/
lemma clearLast_sim (space : Reservation) (sum : Tally) (h : Twin F
    (fun i => G i ∧ ∀ b ∈ space.data, ∀ q ∈ b.offsets, ¬ Workshop.Within b.ram q.1 q.2 i) j k) :
    Sim (clearLast space sum) (clearLast space sum) j k
      (fun _ => Twin F fun i => G i ∧ ¬ space.Covers i) fun _ _ _ => False := by
  have hcovers : ∀ i, G i ∧ (∀ b ∈ space.data, ∀ q ∈ b.offsets,
      ¬ Workshop.Within b.ram q.1 q.2 i) ∧ (∀ b ∈ space.bss,
      ¬ (b.ram.offset ≤ i ∧ i < b.ram.offset + b.ram.len)) → G i ∧ ¬ space.Covers i := by
    rintro i ⟨hg, hdata, hbss⟩
    refine ⟨hg, ?_⟩
    rintro (⟨b, hb, q, hq, hin⟩ | ⟨b, hb, hin⟩)
    · exact hdata b hb q hq hin
    · exact hbss b hb hin
  unfold clearLast
  rcases hbss : space.bss with _ | b <;> dsimp only
  · refine sim_pure.2 (h.mono (fun _ hi => hi) fun i hi => hcovers i ⟨hi.1, hi.2, ?_⟩)
    intro b hb
    rw [hbss] at hb
    cases hb
  · refine Sim.bind (S := fun _ => Twin F fun i => G i ∧ ¬ space.Covers i)
      (G := fun _ _ _ => False) ?_ (fun _ _ _ h => sim_pure.2 h) fun _ _ _ h => h
    rw [sim_zoom]
    refine (Block.clear_sim b h.context.pool).mono (fun _ p q hp => ?_) fun _ _ _ h => h
    refine ⟨h.desk, h.context.xip, hp.mono fun i hi => hcovers i ⟨hi.1.1, hi.1.2, fun b' hb' => ?_⟩⟩
    rw [hbss] at hb'
    cases hb'
    exact hi.2

/-- Committing settles all that is reserved. -/
lemma commit_sim (space : Reservation) (hroom : ∀ q ∈ space.flash, Bench.Roomy q.1 q.2)
    (h : Twin F G j k) :
    Sim (commit scope strict space) (commit scope strict space) j k
      (fun _ => Twin (fun i => F i ∧ space.Beside i) fun i => G i ∧ ¬ space.Covers i)
      (fun _ => Twin F G) := by
  set F' : Nat → Prop := fun i => F i ∧ space.Beside i
  unfold commit
  refine Sim.bind (streamAll_sim space.flash .zero hroom h) (fun sum j1 k1 h1 => ?_)
    fun _ _ _ h => h
  rcases hd : space.data with _ | b <;> dsimp only
  · refine Sim.pure_bind ((clearLast_sim space sum (h1.mono (fun _ hi => hi) fun i hi => ⟨hi, ?_⟩)).mono
      (fun _ _ _ h => h) fun _ _ _ h => h.elim)
    intro b hb
    rw [hd] at hb
    cases hb
  · refine Sim.bind (S := fun _ => Twin F' fun i => G i ∧ ∀ b ∈ space.data, ∀ q ∈ b.offsets,
        ¬ Workshop.Within b.ram q.1 q.2 i) (G := fun _ => Twin F G) ?_
      (fun sum' j2 k2 h2 => (clearLast_sim space sum' h2).mono (fun _ _ _ h => h) fun _ _ _ h => h.elim)
      fun _ _ _ h => h
    rw [sim_zoom]
    refine (Workshop.copyAll_sim b.offsets sum h1.desk h1.context.pool).mono (fun _ w w' hw => ?_)
      fun _ w w' hw => ?_
    · refine ⟨hw.desk, h1.context.xip, hw.pool.mono fun i hi => ⟨hi.1, fun b' hb' => ?_⟩⟩
      rw [hd] at hb'
      cases hb'
      exact hi.2
    · exact ⟨hw.desk, h1.context.xip.mono fun _ hi _ => hi.1, hw.pool⟩

variable {config : LoaderConfig} {src : Source}

lemma Twin.advanced (h : Twin F G j k) (n u : Nat) :
    Twin F G ⟨j.desk, j.context.advanced n u⟩ ⟨k.desk, k.context.advanced n u⟩ := by
  obtain ⟨hdesk, ⟨hxip, hunarmed, hsame⟩, ⟨hpool, hmem⟩⟩ := h
  refine ⟨hdesk, ⟨?_, hunarmed, hsame⟩, ⟨?_, hmem⟩⟩
  · dsimp only [Context.advanced]
    rw [hxip]
    rfl
  · dsimp only [Context.advanced]
    rw [hpool]

/-- What space has been reserved is roomy. -/
lemma Reserved.roomy {o : Object} {space : Reservation} {c e : Context} (h : Reserved c o space e)
    (hsound : c.xip.Sound) {q : SectionInfo × FlashSpan} (hq : q ∈ space.flash) :
    Bench.Roomy q.1 q.2 := by
  have hword := hsound.word_dvd_sector
  obtain ⟨-, -, hspan⟩ := h.spans.mem hq
  refine ⟨?_, ?_, ?_⟩
  · exact Nat.mod_eq_zero_of_dvd (Nat.dvd_trans hword (Nat.dvd_of_mod_eq_zero
      (h.spans.mem_aligned hsound.sector_pos hsound.free_aligned hq)))
  · rw [hspan]
    exact Nat.mod_eq_zero_of_dvd (Nat.dvd_trans hword (dvd_alignUp _ _ hsound.sector_pos))
  · rw [hspan]
    exact le_alignUp _ hsound.sector_pos

/-- **Loading over different remains** ends alike, and never adds to the differences. If it succeeds,
all flash that it has reserved agrees, and all places of the pool that the module covers. -/
lemma run_sim {name entry : String} {exports : Lookup}
    (hsrc : Source.Same src j.desk.linker.source) (hbatch : 0 < j.desk.scratch.batchSize)
    (hsound : j.context.xip.Sound) (h : Twin F G j k) :
    Sim (run config name exports entry) (run config name exports entry) j k
      (fun _ j' k' => ∃ p e, Plan.Settled config src j.context e p ∧
        Twin (fun i => F i ∧ p.space.Beside i) (fun i => G i ∧ ¬ p.space.Covers i) j' k')
      (fun _ => Twin F G) := by
  unfold run
  refine Sim.bind ((inspect_sim config name h).and_sat
    ((inspect_sat name hsrc hbatch).and (inspect_context config name j))) ?_ fun _ _ _ h => h.1
  rintro ⟨o, symbols⟩ j1 k1 ⟨h1, ⟨hinspected, -, -⟩, hc1⟩
  refine Sim.bind ((reserve_sim h1.context.alike o).and_sat (reserve_granted o j1)) ?_ ?_
  swap
  · rintro _ j2 k2 ⟨⟨n, u, rfl, rfl⟩, -⟩
    exact h1.advanced n u
  rintro space j2 k2 ⟨⟨n, u, rfl, rfl⟩, hgranted, -⟩
  have hsettled : Plan.Settled config src j.context (j1.context.advanced n u)
      ⟨o, symbols, space⟩ := ⟨hinspected, by rw [← hc1]; exact hgranted⟩
  have hroom := fun q (hq : q ∈ space.flash) => hsettled.reserved.roomy hsound hq
  dsimp only
  refine Sim.bind (commit_sim space hroom (h1.advanced n u)) ?_ fun _ _ _ h => h
  intro sum j3 k3 h3
  refine Sim.bind (read_sim _ h3) ?_ fun _ _ _ h => h.mono (fun _ hi => hi.1) fun _ hi => hi.1
  intro a j4 k4 h4
  exact Sim.note_bind (Sim.get_bind (Sim.note_bind (sim_pure.2 ⟨_, _, hsettled, h4⟩)))

end Job

namespace Loader

variable {name entry : String} {exports : Lookup} {s t : State}

/-- A load over different remains, with buffers that hold whatever they hold. -/
lemma load_twin {F G : Nat → Prop} (hconfig : t.loader.config = s.loader.config)
    (hsource : t.source = s.source) (hs : s.loader.Sized) (ht : t.loader.Sized)
    (hsound : s.context.xip.Sound) (h : s.context.LoadTwin F G t.context) :
    Sim (load name exports entry) (load name exports entry) s t
      (fun _ s' t' => ∃ p e, Job.Plan.Settled s.loader.config s.source s.context e p ∧
        s'.context.LoadTwin (fun i => F i ∧ p.space.Beside i) (fun i => G i ∧ ¬ p.space.Covers i)
          t'.context)
      (fun _ s' t' => s'.context.LoadTwin F G t'.context) := by
  have hstaging := ht.staging_size.trans ((congrArg _ hconfig).trans hs.staging_size.symm)
  have hraw := ht.raw_size.trans ((congrArg (·.batchSize * _) hconfig).trans hs.raw_size.symm)
  have hbatch := hs.batch
  obtain ⟨⟨config, scratch⟩, source, context⟩ := s
  obtain ⟨⟨config', scratch'⟩, source', context'⟩ := t
  dsimp only at hconfig hsource
  subst hconfig hsource
  have hjob : Job.Twin F G ⟨⟨scratch, ⟨source', .create config'.cacheSlots⟩⟩, context⟩
      ⟨⟨scratch', ⟨source', .create config'.cacheSlots⟩⟩, context'⟩ :=
    ⟨⟨rfl, hraw, hstaging.symm, fun _ h => h.elim⟩, h⟩
  unfold load
  refine Sim.get_bind (sim_zoom.2 ?_)
  exact (Job.run_sim (Source.Same.refl source') hbatch hsound hjob).mono
    (fun _ _ _ ⟨p, e, hsettled, htwin⟩ => ⟨p, e, hsettled, htwin.context⟩) fun _ _ _ h => h.context

/-- A load over different remains in what is free. -/
lemma load_sim (hconfig : t.loader.config = s.loader.config) (hsource : t.source = s.source)
    (hs : s.loader.Sized) (ht : t.loader.Sized) (hsound : s.context.xip.Sound)
    (h : s.context.Twin (s.context.xip.nextFree ≤ ·) (s.context.pool.used ≤ ·) t.context) :
    Sim (load name exports entry) (load name exports entry) s t
      (fun _ s' t' => ∃ p e, Job.Plan.Settled s.loader.config s.source s.context e p ∧
        s'.context.Twin (s'.context.xip.nextFree ≤ ·)
          (fun i => s.context.pool.used ≤ i ∧ ¬ p.space.Covers i) t'.context)
      (fun _ _ _ => True) := by
  have hsim : Sim (load name exports entry) (load name exports entry) s t _ _ :=
    load_twin hconfig hsource hs ht hsound h.toLoadTwin
  refine (((hsim.and_sat (load_allocates hs)).and_sat load_resident).and_sat_right
    load_resident).mono ?_ fun _ _ _ _ => trivial
  rintro image s' t' ⟨⟨⟨⟨p, e, hp, htwin⟩, -, p', e', hp', -, hwrote⟩, hs'⟩, ht'⟩
  obtain ⟨rfl, rfl⟩ := hp.unique hp'
  refine ⟨p, e, hp, ⟨htwin.xip.mono fun i hi _ => ?_, htwin.pool⟩, ?_, ?_⟩
  · rw [hwrote.xip.free_eq]
    by_contra hlt
    obtain ⟨q, hq, hin⟩ := hp.reserved.spans.cover hi.1 (Nat.not_le.1 hlt)
    exact hi.2 q hq hin
  · rw [ht'.1, hs'.1, h.iflash_eq]
  · rw [ht'.2, hs'.2, h.trampolines_eq]

end Loader

end FlashLink
