import FlashLink.Proofs.Placing

/-!
What work on a context may change, whatever fails on the way.

What a checkpoint counts as free is all that a load, a trampoline or a copy ever writes to: flash from
the bump offsets on, the pool likewise, and the rest of the sector that trampolines are packed into.
`Context.Advanced` says so for any stretch of work. Allocators only move up and free space only shrinks,
so such stretches join.
-/

namespace FlashLink

open Act

/-! ### Free space -/

namespace Trampolines

/-- Internal flash that may still be written, in a region whose bump offset is `n`. -/
def Free (t : Trampolines) (n i : Nat) : Prop :=
  n ≤ i ∨ ∃ s ∈ t.sector, s.offset + t.used ≤ i ∧ i < s.offset + s.len

/-- The current sector has been allocated from the region. -/
def Packed (t : Trampolines) (r : Region) : Prop :=
  ∀ s ∈ t.sector, s.offset + s.len ≤ r.nextFree ∧ s.addr = r.address s.offset

/-- Work in the free part of internal flash. -/
structure Advanced (t : Trampolines) (r : Region) (t' : Trampolines) (r' : Region) : Prop where
  edited : Region.Edited (t.Free r.nextFree) r r'
  free : ∀ i, t'.Free r'.nextFree i → t.Free r.nextFree i
  packed : t.Packed r → t'.Packed r'

variable {t t' t'' : Trampolines} {r r' r'' : Region}

lemma Advanced.refl (t : Trampolines) (r : Region) : t.Advanced r t r :=
  ⟨.refl _ _, fun _ h => h, id⟩

lemma Advanced.trans (h : t.Advanced r t' r') (h' : t'.Advanced r' t'' r'') : t.Advanced r t'' r'' :=
  ⟨h.1.trans (h'.1.mono h.2), fun i hi => h.2 i (h'.2 i hi), h'.3 ∘ h.3⟩

/-- Growing the region leaves the current sector alone. -/
lemma Advanced.grown (h : Region.Grown r.nextFree r r') : t.Advanced r t r' := by
  refine ⟨h.mono fun _ hi => .inl hi, fun i hi => ?_, fun hp s hs => ?_⟩
  · rcases hi with hi | hi
    · exact .inl (Nat.le_trans h.free_le hi)
    · exact .inr hi
  · rw [h.address_eq]
    exact ⟨Nat.le_trans (hp s hs).1 h.free_le, (hp s hs).2⟩

end Trampolines

namespace Pool

/-- Work in the free part of the pool, and at the places `K`. -/
structure Advanced (K : Nat → Prop) (p p' : Pool) : Prop where
  base_eq : p'.base = p.base
  used_le : p.used ≤ p'.used
  same : Bytes.SameOn (fun i => i < p.used ∧ ¬ K i) p.mem p'.mem

variable {K L : Nat → Prop} {p p' p'' : Pool}

lemma Advanced.refl (K : Nat → Prop) (p : Pool) : Advanced K p p := ⟨rfl, Nat.le_refl _, .refl _⟩

lemma Advanced.trans (h : Advanced K p p') (h' : Advanced K p' p'') : Advanced K p p'' :=
  ⟨h'.1.trans h.1, Nat.le_trans h.2 h'.2,
    h.3.trans (h'.3.mono fun _ hi => ⟨Nat.lt_of_lt_of_le hi.1 h.2, hi.2⟩)⟩

lemma Advanced.mono (h : Advanced K p p') (hK : ∀ i, K i → L i) : Advanced L p p' :=
  ⟨h.1, h.2, h.3.mono fun i hi => ⟨hi.1, fun hk => hi.2 (hK i hk)⟩⟩

lemma Changed.advanced {J : Nat → Prop} (h : Changed J p p') (hJ : ∀ i, J i → p.used ≤ i ∨ K i) :
    Advanced K p p' := by
  refine ⟨h.base_eq, Nat.le_of_eq h.used_eq.symm, h.same.mono fun i hi hj => ?_⟩
  rcases hJ i hj with h | h
  · omega
  · exact hi.2 h

end Pool

namespace Context

/-- Work in what is free of a context, and in the pool also at the places `K`. -/
structure Advanced (K : Nat → Prop) (c c' : Context) : Prop where
  xip : Region.Grown c.xip.nextFree c.xip c'.xip
  resident : c.trampolines.Advanced c.iflash c'.trampolines c'.iflash
  pool : Pool.Advanced K c.pool c'.pool

variable {K L : Nat → Prop} {c c' c'' : Context}

namespace Advanced

lemma refl (K : Nat → Prop) (c : Context) : Advanced K c c := ⟨.refl _ _, .refl _ _, .refl _ _⟩

lemma trans (h : Advanced K c c') (h' : Advanced K c' c'') : Advanced K c c'' :=
  ⟨h.1.trans (h'.1.mono fun _ hi => Nat.le_trans h.1.free_le hi), h.2.trans h'.2, h.3.trans h'.3⟩

lemma mono (h : Advanced K c c') (hK : ∀ i, K i → L i) : Advanced L c c' :=
  ⟨h.1, h.2, h.3.mono hK⟩

end Advanced

end Context

/-! ### Rolling back -/

namespace Context

/-- The context after rolling back to `p`. -/
def rewound (c : Context) (p : Checkpoint) : Context :=
  { xip := { c.xip with nextFree := p.xip }
    iflash := { c.iflash with nextFree := p.iflash }
    pool := { c.pool with used := p.pool }
    trampolines := if c.trampolines = p.trampolines then c.trampolines else p.trampolines.retire }

/-- Rolling back: the bump offsets come down one after the other, and the first one that cannot ends
it. -/
lemma rollback_rule {c : Context} {p : Checkpoint} {P : Unit → Context → Prop}
    {E : Error → Context → Prop}
    (hxip : ¬ (p.xip ≤ c.xip.nextFree ∧ p.xip % c.xip.sector = 0) →
      E (.breach .staleCheckpoint) c)
    (hiflash : p.xip ≤ c.xip.nextFree ∧ p.xip % c.xip.sector = 0 →
      ¬ (p.iflash ≤ c.iflash.nextFree ∧ p.iflash % c.iflash.sector = 0) →
      E (.breach .staleCheckpoint) { c with xip.nextFree := p.xip })
    (hend : p.xip ≤ c.xip.nextFree ∧ p.xip % c.xip.sector = 0 →
      p.iflash ≤ c.iflash.nextFree ∧ p.iflash % c.iflash.sector = 0 → P () (c.rewound p)) :
    Sat (rollback p) c P E := by
  unfold rollback
  refine Sat.note_bind (Sat.seq ?_)
  refine sat_zoom.2 (sat_ofOp.2 (Region.rewind_rule hxip fun hx => Sat.seq ?_))
  refine sat_zoom.2 (sat_ofOp.2 (Region.rewind_rule (hiflash hx) fun hi => ?_))
  exact sat_modify.2 (hend hx hi)

/-- Rolling back succeeds where the bump offsets come down to whole sectors. -/
lemma rollback_sat {c : Context} {p : Checkpoint} (hxip : p.xip ≤ c.xip.nextFree)
    (hxip' : p.xip % c.xip.sector = 0) (hiflash : p.iflash ≤ c.iflash.nextFree)
    (hiflash' : p.iflash % c.iflash.sector = 0) :
    Sat (rollback p) c (fun _ c' => c' = c.rewound p) fun _ _ => False :=
  rollback_rule (fun h => h ⟨hxip, hxip'⟩) (fun _ h => h ⟨hiflash, hiflash'⟩) fun _ _ => rfl

/-- What is free after rolling back was free at the checkpoint. -/
lemma free_of_rewound {c : Context} {p : Checkpoint} {n i : Nat}
    (h : (c.rewound p).trampolines.Free n i) : p.trampolines.Free n i := by
  unfold rewound at h
  dsimp only at h
  split_ifs at h with heq
  · rwa [heq] at h
  · rcases h with h | ⟨_, ⟨⟩, -⟩
    exact .inl h

end Context

/-! ### Loading -/

namespace Job

variable {config : LoaderConfig} {src : Source} {j : Job} {scope : Scope} {strict : Bool}
  {space : Reservation} {k : Nat}

lemma checkTables_context (sections : List SectionInfo) (j : Job) :
    Sat (checkTables sections) j (fun _ j' => j'.context = j.context)
      (fun _ j' => j'.context = j.context) := by
  induction sections generalizing j with
  | nil => exact rfl
  | cons s rest ih =>
    unfold checkTables
    rcases s.relocations with _ | t <;> dsimp only
    · exact ih j
    · refine Sat.bind (zoom_keeps _ j context fun _ => rfl) (fun _ j' h => ?_) fun _ _ h => h
      exact (ih j').mono (fun _ _ h' => h'.trans h) fun _ _ h' => h'.trans h

lemma inspect_context (config : LoaderConfig) (name : String) (j : Job) :
    Sat (inspect config name) j (fun _ j' => j'.context = j.context)
      (fun _ j' => j'.context = j.context) := by
  unfold inspect
  refine Sat.bind (zoom_keeps _ j context fun _ => rfl) (fun o j0 h0 => ?_) fun _ _ h => h
  refine Sat.bind (P := fun _ j' => j'.context = j.context) (G := fun _ _ => False)
    (notes_sat _ _ h0) (fun _ j1 h1 => ?_) fun _ _ h => h.elim
  refine Sat.bind (zoom_keeps _ j1 context fun _ => rfl) (fun _ j2 h2 => ?_)
    fun _ _ h => h.trans h1
  refine Sat.bind (checkTables_context _ j2) (fun _ j3 h3 => ?_) fun _ _ h => h.trans (h2.trans h1)
  exact sat_pure.2 (h3.trans (h2.trans h1))

/-- Asking for space only moves allocators. -/
lemma reserve_advanced (o : Object) (j : Job) :
    Sat (reserve o) j (fun _ j' => Context.Advanced (fun _ => False) j.context j'.context)
      (fun _ j' => Context.Advanced (fun _ => False) j.context j'.context) := by
  have hflash : ∀ (sections : List SectionInfo) (j : Job), Sat (reserveFlash sections) j
      (fun _ j' => Context.Advanced (fun _ => False) j.context j'.context)
      (fun _ j' => Context.Advanced (fun _ => False) j.context j'.context) := by
    intro sections
    induction sections with
    | nil => exact fun j => .refl _ _
    | cons s rest ih =>
      intro j
      unfold reserveFlash
      refine Sat.bind (P := fun _ j' => Context.Advanced (fun _ => False) j.context j'.context)
        (G := fun _ j' => Context.Advanced (fun _ => False) j.context j'.context) ?_ ?_ fun _ _ h => h
      · rw [sat_zoom]
        refine (Region.reserve_sat s.size _).mono ?_ ?_
        · rintro _ _ ⟨rfl, hroom, rfl⟩
          exact ⟨Region.grown_reserved _ hroom, .refl _ _, .refl _ _⟩
        · rintro _ _ rfl
          exact .refl _ _
      · intro span j' h
        refine Sat.bind (ih j') (fun _ _ h' => sat_pure.2 (h.trans h')) fun _ _ h' => h.trans h'
  have hblock : ∀ (sections : List SectionInfo) (j : Job), Sat (zoom poolPart (Block.reserve sections)) j
      (fun _ j' => Context.Advanced (fun _ => False) j.context j'.context)
      (fun _ j' => Context.Advanced (fun _ => False) j.context j'.context) := by
    intro sections j
    rw [sat_zoom]
    refine (Block.reserve_given sections _).mono ?_ ?_
    · rintro (_ | b) _ h
      · obtain ⟨-, rfl⟩ := h
        exact .refl _ _
      · obtain ⟨-, -, -, hle, -, -, rfl⟩ := h
        exact ⟨.refl _ _, .refl _ _, rfl, Nat.le_trans hle (Nat.le_add_right _ _), .refl _⟩
    · rintro _ _ rfl
      exact .refl _ _
  unfold reserve
  refine Sat.bind (hflash _ j) (fun flash j1 h1 => ?_) fun _ _ h => h
  refine Sat.bind (hblock _ j1) (fun data j2 h2 => ?_) fun _ _ h => h1.trans h
  refine Sat.bind (hblock _ j2) (fun bss j3 h3 => ?_) fun _ _ h => h1.trans (h2.trans h)
  exact sat_pure.2 (h1.trans (h2.trans h3))

/-- What is written of a reservation was free before the reservation. -/
lemma Wrote.advanced {o : Object} {c e e' : Context} (hreserved : Reserved c o space e)
    (hadvanced : Context.Advanced (fun _ => False) c e) (h : Wrote space c.xip.nextFree e e') :
    Context.Advanced (fun _ => False) c e' := by
  obtain ⟨hdatas, hbsss, -⟩ := hreserved.housed
  have hfree : ∀ i, space.Covers i → c.pool.used ≤ i := by
    rintro i (⟨b, hb, q, -, h1, -⟩ | ⟨b, hb, h1, -⟩)
    · have := (hdatas b hb).used_le
      omega
    · have := (hbsss b hb).used_le
      omega
  refine ⟨hadvanced.xip.trans h.xip.1, ?_, ?_⟩
  · rw [h.others]
    exact hadvanced.resident
  · have hused := hadvanced.pool.used_le
    refine ⟨h.pool.base_eq.trans hadvanced.pool.base_eq, by rw [h.pool.used_eq]; exact hused,
      hadvanced.pool.same.trans (h.pool.same.mono fun i hi hcov => ?_)⟩
    have := hfree i hcov
    omega

/-- A load advances the context whether it succeeds or not. If it does, its plan was settled, and
nothing but the plan's space was written after that. -/
lemma run_allocates {name entry : String} {exports : Lookup}
    (hsrc : Source.Same src j.desk.linker.source) (hbatch : 0 < j.desk.scratch.batchSize) :
    Sat (run config name exports entry) j
      (fun image j' => Context.Advanced (fun _ => False) j.context j'.context ∧
        ∃ p e, Plan.Settled config src j.context e p ∧ image = p.image name image.entry ∧
          Wrote p.space j.context.xip.nextFree e j'.context)
      (fun _ j' => Context.Advanced (fun _ => False) j.context j'.context) := by
  unfold run
  refine Sat.bind ((inspect_sat name hsrc hbatch).and (inspect_context config name j)) ?_
    fun _ _ h => h.2 ▸ .refl _ _
  rintro ⟨o, symbols⟩ j1 ⟨⟨hinspected, -, -⟩, hc1⟩
  refine Sat.bind ((reserve_granted o j1).and (reserve_advanced o j1)) ?_ fun _ _ h => hc1 ▸ h.2
  rintro space j2 ⟨⟨hgranted, -⟩, hadvanced⟩
  rw [hc1] at hgranted hadvanced
  have hsettled : Plan.Settled config src j.context j2.context ⟨o, symbols, space⟩ :=
    ⟨hinspected, hgranted⟩
  have hreserved := hsettled.reserved
  dsimp only
  refine Sat.bind (commit_wrote (fun q hq => (hreserved.spans.mem hq).1) j2) ?_
    fun _ _ h => h.advanced hreserved hadvanced
  intro sum j3 hwrote
  refine Sat.bind (zoom_keeps _ j3 context fun _ => rfl) ?_
    fun _ _ h => h ▸ hwrote.advanced hreserved hadvanced
  intro a j4 hc4
  refine Sat.note_bind (Sat.get_bind (Sat.note_bind (sat_pure.2 ?_)))
  rw [hc4]
  exact ⟨hwrote.advanced hreserved hadvanced, _, _, hsettled, rfl, hwrote⟩

end Job

namespace Loader

lemma load_allocates {name entry : String} {exports : Lookup} {s : State} (hl : s.loader.Sized) :
    Sat (load name exports entry) s
      (fun image s' => Context.Advanced (fun _ => False) s.context s'.context ∧
        ∃ p e, Job.Plan.Settled s.loader.config s.source s.context e p ∧
          image = p.image name image.entry ∧
          Job.Wrote p.space s.context.xip.nextFree e s'.context)
      (fun _ s' => Context.Advanced (fun _ => False) s.context s'.context) := by
  exact load_rule (Job.run_allocates (.refl _) hl.batch)

end Loader

end FlashLink
