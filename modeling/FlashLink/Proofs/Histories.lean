import FlashLink.Proofs.Lifetimes

/-!
What may happen on a board.

A history is a context with all images that were ever loaded there and all checkpoints that were ever
taken, whatever has been rolled back or emptied since. Loads, residency passes, trampolines,
checkpoints, rollbacks and resets follow each other in any order, programs write variables in between,
and operations on flash may be made to fail. What a board is stays the same all the while: the regions
stay over their partitions, allocators stay on whole sectors, and an image that was loaded once stays
within the partition and the pool.
-/

namespace FlashLink

open Act

/-- What an action failed with. -/
def Outcome.failure? {σ α : Type} (o : Outcome σ α) : Option Error :=
  match o.result with
  | .ok _ => none
  | .error e => some e

structure BoardHistory where
  context : Context
  /-- Every image that a load has returned. -/
  images : List Image
  /-- Every checkpoint that has been taken. -/
  checkpoints : List Checkpoint

namespace BoardHistory

/-- A fresh context. -/
def start (xip iflash : Region) (pool : Pool) : BoardHistory := ⟨.create xip iflash pool, [], []⟩

/-- One step, and what it failed with. Failures are armed only if there are to be faults. -/
inductive Step (faults : Prop) : Option Error → BoardHistory → BoardHistory → Prop
  | arm (h : BoardHistory) (hfaults : faults) (f g : Option ArmedFault) :
    Step faults none h { h with context := h.context.withFaults f g }
  /-- A program has written variables. -/
  | execute (h : BoardHistory) (mem : Bytes) (hsize : mem.size = h.context.pool.capacity) :
    Step faults none h { h with context.pool.mem := mem }
  | load (h : BoardHistory) {loader : Loader} (hl : loader.Sized) (source : Source)
    (name entry : String) (exports : Lookup) {o : Outcome Loader.State Image}
    (ho : Loader.load name exports entry ⟨loader, source, h.context⟩ = o) :
    Step faults o.failure? h
      ⟨o.state.context, o.result.toOption.toList ++ h.images, h.checkpoints⟩
  | patch (h : BoardHistory) {image : Image} (himage : image ∈ h.images) {κ : Type} [CacheControl κ]
    (cache : κ) {o : Outcome (Context × κ) ResidencyReport}
    (ho : Patcher.runOn image (h.context, cache) = o) :
    Step faults o.failure? h { h with context := o.state.1 }
  | emit (h : BoardHistory) (target base : Addr) {o : Outcome Context Addr}
    (ho : zoom Context.trampolinePart (Trampolines.emit target base) h.context = o) :
    Step faults o.failure? h { h with context := o.state }
  | checkpoint (h : BoardHistory) :
    Step faults none h { h with checkpoints := h.context.checkpoint :: h.checkpoints }
  | rollback (h : BoardHistory) {p : Checkpoint} (hp : p ∈ h.checkpoints) {o : Outcome Context Unit}
    (ho : Context.rollback p h.context = o) :
    Step faults o.failure? h { h with context := o.state }
  | reset (h : BoardHistory) {o : Outcome Context Unit} (ho : Context.reset h.context = o) :
    Step faults o.failure? h { h with context := o.state }

/-- Steps in sequence. -/
inductive Run (faults : Prop) : BoardHistory → BoardHistory → Prop
  | refl (h : BoardHistory) : Run faults h h
  | tail {h h' h'' : BoardHistory} {failure : Option Error} :
    Run faults h h' → Step faults failure h' h'' → Run faults h h''

end BoardHistory

/-! ### Boards -/

namespace Context

/-- The allocators are on whole sectors, and a record fits into a sector. -/
structure Ready (c : Context) : Prop where
  xip_sound : c.xip.Sound
  iflash_sound : c.iflash.Sound
  room : Record.width ≤ c.iflash.sector
  packed : c.trampolines.Packed c.iflash

/-- The contexts are over the same partitions of equal devices, and have pools at the same place. -/
structure SameBoard (c c' : Context) : Prop where
  xip_partition : c'.xip.partition = c.xip.partition
  xip_sector : c'.xip.sector = c.xip.sector
  iflash_partition : c'.iflash.partition = c.iflash.partition
  iflash_sector : c'.iflash.sector = c.iflash.sector
  pool_base : c'.pool.base = c.pool.base
  pool_capacity : c'.pool.capacity = c.pool.capacity

namespace SameBoard

variable {c c' c'' : Context}

lemma refl (c : Context) : SameBoard c c := ⟨rfl, rfl, rfl, rfl, rfl, rfl⟩

lemma trans (h : SameBoard c c') (h' : SameBoard c' c'') : SameBoard c c'' :=
  ⟨h'.1.trans h.1, h'.2.trans h.2, h'.3.trans h.3, h'.4.trans h.4, h'.5.trans h.5, h'.6.trans h.6⟩

lemma symm (h : SameBoard c c') : SameBoard c' c :=
  ⟨h.1.symm, h.2.symm, h.3.symm, h.4.symm, h.5.symm, h.6.symm⟩

lemma xip_address (h : SameBoard c c') (offset : Nat) : c'.xip.address offset = c.xip.address offset := by
  rw [Region.address, Region.address, h.xip_partition]

lemma iflash_address (h : SameBoard c c') (offset : Nat) :
    c'.iflash.address offset = c.iflash.address offset := by
  rw [Region.address, Region.address, h.iflash_partition]

end SameBoard

namespace Advanced

variable {K : Nat → Prop} {c c' : Context}

lemma sameBoard (h : Advanced K c c') : SameBoard c c' :=
  ⟨h.xip.partition_eq, h.xip.sector_eq, h.resident.edited.partition_eq, h.resident.edited.sector_eq,
    h.pool.base_eq, h.pool.same.size_eq.symm⟩

lemma ready (h : Advanced K c c') (hc : c.Ready) : c'.Ready :=
  ⟨h.xip.sound hc.xip_sound, h.resident.edited.sound hc.iflash_sound,
    h.resident.edited.sector_eq ▸ hc.room, h.resident.packed hc.packed⟩

end Advanced

end Context

/-- The region with its bump offset elsewhere, on a whole sector. -/
lemma Region.Sound.movedTo {r : Region} (h : r.Sound) {n : Nat} (hle : n ≤ r.nextFree)
    (haligned : n % r.sector = 0) : { r with nextFree := n }.Sound :=
  ⟨h.1, h.2, h.3, h.4, h.5, Nat.le_trans hle h.6, haligned⟩

/-- The image lies in the execute-in-place partition and in the pool. -/
structure Image.Fits (i : Image) (c : Context) : Prop where
  flash : ∀ q ∈ i.sections, q.cls.isFlash → ∃ offset, q.addr = c.xip.address offset ∧
    offset + q.size ≤ c.xip.partition.size ∧ offset % wordSize = 0
  data : ∀ b ∈ i.data, b.offset + b.len ≤ c.pool.capacity

lemma Image.Fits.congr {i : Image} {c c' : Context} (h : i.Fits c) (hc : c.SameBoard c') :
    i.Fits c' := by
  refine ⟨fun q hq hcls => ?_, fun b hb => hc.pool_capacity ▸ h.data b hb⟩
  obtain ⟨offset, haddr, hle, hword⟩ := h.flash q hq hcls
  exact ⟨offset, by rw [hc.xip_address, haddr], hc.xip_partition ▸ hle, hword⟩

/-- What a load makes fits. -/
lemma Job.Plan.Settled.image_fits {config : LoaderConfig} {src : Source} {c e : Context} {p : Plan}
    {name : String} {a : Addr} (h : p.Settled config src c e) (hsound : c.xip.Sound) :
    (p.image name a).Fits c := by
  refine ⟨fun q hq hcls => ?_, fun b hb => ?_⟩
  · obtain ⟨s, span, hspan, hqs, haddr⟩ := h.flash_section hq hcls
    obtain ⟨-, hend, heq⟩ := h.reserved.spans.mem hspan
    have haligned := h.reserved.spans.mem_aligned hsound.sector_pos hsound.free_aligned hspan
    have hroom := h.reserved.room hsound.free_le
    have hlen : s.size ≤ span.len := by
      rw [heq]
      exact le_alignUp _ hsound.sector_pos
    refine ⟨span.offset, by rw [haddr, heq], by rw [hqs.size_eq]; omega, ?_⟩
    exact Nat.mod_eq_zero_of_dvd (Nat.dvd_trans hsound.word_dvd_sector
      (Nat.dvd_of_mod_eq_zero haligned))
  · obtain ⟨d, hd, rfl⟩ := Option.map_eq_some_iff.1 hb
    refine (h.reserved.housed.1 d hd).fits fun s hs => ?_
    obtain ⟨hs, hcls⟩ := List.mem_filter.1 hs
    exact h.inspected.describes.size_pos hs (by rw [beq_iff_eq.1 hcls]; rfl)

/-- The checkpoint was taken on whole sectors, with its trampolines below. -/
structure Checkpoint.Good (p : Checkpoint) (c : Context) : Prop where
  xip_aligned : p.xip % c.xip.sector = 0
  iflash_aligned : p.iflash % c.iflash.sector = 0
  packed : ∀ s ∈ p.trampolines.sector,
    s.offset + s.len ≤ p.iflash ∧ s.addr = c.iflash.address s.offset

lemma Checkpoint.Good.congr {p : Checkpoint} {c c' : Context} (h : p.Good c) (hc : c.SameBoard c') :
    p.Good c' := by
  refine ⟨hc.xip_sector ▸ h.1, hc.iflash_sector ▸ h.2, fun s hs => ?_⟩
  rw [hc.iflash_address]
  exact h.3 s hs

lemma Context.Ready.checkpoint_good {c : Context} (h : c.Ready) : c.checkpoint.Good c :=
  ⟨h.xip_sound.free_aligned, h.iflash_sound.free_aligned, h.packed⟩

/-! ### What steps do to a context -/

namespace Context

variable {c : Context} {p : Checkpoint}

/-- The context with nothing allocated. -/
def emptied (c : Context) : Context :=
  ⟨{ c.xip with nextFree := 0 }, { c.iflash with nextFree := 0 }, c.pool.reset, .empty⟩

lemma reset_sat (c : Context) : Sat reset c (fun _ c' => c' = c.emptied) fun _ _ => False := by
  unfold reset
  refine Sat.note_bind (Sat.seq (sat_zoom.2 ((Region.reset_sat _).mono ?_ fun _ _ h => h)))
  rintro _ _ rfl
  refine Sat.seq (sat_zoom.2 ((Region.reset_sat _).mono ?_ fun _ _ h => h))
  rintro _ _ rfl
  exact sat_modify.2 rfl

lemma sameBoard_rewound (c : Context) (p : Checkpoint) : SameBoard c (c.rewound p) :=
  ⟨rfl, rfl, rfl, rfl, rfl, rfl⟩

lemma sameBoard_emptied (c : Context) : SameBoard c c.emptied :=
  ⟨rfl, rfl, rfl, rfl, rfl, Bytes.size_fill _ _ _ _⟩

lemma Ready.rewound (h : c.Ready) (hp : p.Good c) (hxip : p.xip ≤ c.xip.nextFree)
    (hiflash : p.iflash ≤ c.iflash.nextFree) : (c.rewound p).Ready := by
  refine ⟨h.xip_sound.movedTo hxip hp.xip_aligned, h.iflash_sound.movedTo hiflash hp.iflash_aligned,
    h.room, fun s hs => ?_⟩
  unfold Context.rewound at hs
  dsimp only at hs
  split_ifs at hs with heq
  · exact hp.packed s (heq ▸ hs)
  · cases hs

lemma Ready.emptied (h : c.Ready) : c.emptied.Ready :=
  ⟨h.xip_sound.movedTo (Nat.zero_le _) (Nat.zero_mod _),
    h.iflash_sound.movedTo (Nat.zero_le _) (Nat.zero_mod _), h.room, fun s hs => by cases hs⟩

lemma Ready.withFaults (h : c.Ready) (f g : Option ArmedFault) : (c.withFaults f g).Ready := by
  obtain ⟨⟨x1, x2, x3, x4, x5, x6, x7⟩, ⟨i1, i2, i3, i4, i5, i6, i7⟩, hroom, hpacked⟩ := h
  exact ⟨⟨x1, x2, x3, x4, x5, x6, x7⟩, ⟨i1, i2, i3, i4, i5, i6, i7⟩, hroom, hpacked⟩

end Context

namespace Patcher

variable {κ : Type} [CacheControl κ] {s : State κ}

/-- In a context that is ready, what follows from what a step does is kept by many steps. -/
lemma steps_ready_rule {I J : State κ → Prop}
    (hstep : ∀ s s', I s → s.context.Ready → Stepped s s' → I s')
    (hstop : ∀ s s', I s → s.context.Ready → Stopped s s' → J s') (n : Nat) (hready : s.context.Ready)
    (h : I s) : Sat (steps n) s (fun _ => I) fun _ => J := by
  refine (steps_rule (I := fun s => I s ∧ s.context.Ready) ?_ n ⟨h, hready⟩).mono (fun _ _ h' => h'.1)
    fun _ _ h' => h'
  rintro s ⟨h, hready⟩
  exact (step_sat hready.packed hready.room).mono
    (fun _ s' h' => ⟨hstep s s' h hready h', h'.advanced.ready hready⟩) fun _ s' h' => hstop s s' h hready h'

/-- Steps of a patcher only work in free space and in the variables of its image. -/
lemma steps_advanced (n : Nat) (h : s.context.Ready) :
    Sat (steps n) s (fun _ s' => Context.Advanced (Patched s.patcher.image) s.context s'.context)
      (fun _ s' => Context.Advanced (Patched s.patcher.image) s.context s'.context) := by
  refine (steps_ready_rule (I := fun t => t.patcher.image = s.patcher.image ∧
    Context.Advanced (Patched s.patcher.image) s.context t.context) ?_ ?_ n h ⟨rfl, .refl _ _⟩).mono
    (fun _ _ h' => h'.2) fun _ _ h' => h'
  · rintro t t' ⟨himage, hbefore⟩ - ht
    exact ⟨ht.image_eq.trans himage, hbefore.trans (himage ▸ ht.advanced)⟩
  · rintro t t' ⟨himage, hbefore⟩ - ht
    exact hbefore.trans (himage ▸ ht.advanced)

lemma runOn_advanced {c : Context} (h : c.Ready) (image : Image) (cache : κ) :
    Context.Advanced (Patched image) c (runOn image (c, cache)).state.1 := by
  refine Sat.state (x := runOn image) (R := fun t => Context.Advanced (Patched image) c t.1) ?_
  exact runOn_rule (steps_advanced _ h)

end Patcher

/-! ### Histories -/

namespace BoardHistory

variable {faults : Prop} {h h' : BoardHistory} {failure : Option Error} {board : Context}

/-- **The invariant** of all steps on a board. -/
structure Inv (board : Context) (h : BoardHistory) : Prop where
  ready : h.context.Ready
  same : board.SameBoard h.context
  images : ∀ i ∈ h.images, i.Fits board
  checkpoints : ∀ p ∈ h.checkpoints, p.Good board

/-- A step that leaves images and checkpoints alone. -/
lemma Inv.withContext (hi : Inv board h) {c : Context} (hready : c.Ready)
    (hsame : h.context.SameBoard c) : Inv board { h with context := c } :=
  ⟨hready, hi.same.trans hsame, hi.images, hi.checkpoints⟩

lemma Inv.advanced (hi : Inv board h) {K : Nat → Prop} {c : Context}
    (ha : Context.Advanced K h.context c) : Inv board { h with context := c } :=
  hi.withContext (ha.ready hi.ready) ha.sameBoard

/-- An image that was loaded once fits for ever. -/
lemma Inv.fits (hi : Inv board h) {i : Image} (himage : i ∈ h.images) : i.Fits h.context :=
  (hi.images i himage).congr hi.same

/-- **A step** keeps the invariant. -/
lemma Inv.step (hi : Inv board h) (hs : Step faults failure h h') : Inv board h' := by
  cases hs with
  | arm _ _ f g => exact hi.withContext (hi.ready.withFaults f g) ⟨rfl, rfl, rfl, rfl, rfl, rfl⟩
  | execute _ mem hsize =>
    obtain ⟨hxip, hiflash, hroom, hpacked⟩ := hi.ready
    exact hi.withContext ⟨hxip, hiflash, hroom, hpacked⟩ ⟨rfl, rfl, rfl, rfl, rfl, hsize⟩
  | @load _ loader hl source name entry exports o ho =>
    have hload : Sat (Loader.load name exports entry) ⟨loader, source, h.context⟩ _ _ :=
      Loader.load_allocates hl
    have hadvanced : Context.Advanced (fun _ => False) h.context o.state.context := by
      rw [← ho]
      exact (hload.mono (fun _ _ h => h.1) fun _ _ h => h).state
    have hadvanced := hi.advanced hadvanced
    refine ⟨hadvanced.ready, hadvanced.same, fun i himage => ?_, hi.checkpoints⟩
    rcases List.mem_append.1 himage with hnew | hold
    · rcases o with ⟨_ | image, s', es⟩
      · cases hnew
      · obtain rfl := List.mem_singleton.1 hnew
        obtain ⟨-, p, e, hsettled, himage, -⟩ := hload.of_ok ho
        rw [himage]
        exact (hsettled.image_fits hi.ready.xip_sound).congr hi.same.symm
    · exact hi.images i hold
  | patch _ himage cache ho => exact ho ▸ hi.advanced (Patcher.runOn_advanced hi.ready _ cache)
  | emit _ target base ho =>
    have hemit := Context.emit_sat hi.ready.packed hi.ready.room target base
    exact ho ▸ hi.advanced ((hemit.mono (fun _ _ h => h.1) fun _ _ h => h).state)
  | checkpoint _ =>
    refine ⟨hi.ready, hi.same, hi.images, List.forall_mem_cons.2 ⟨?_, hi.checkpoints⟩⟩
    exact hi.ready.checkpoint_good.congr hi.same.symm
  | @rollback _ p hp o ho =>
    have hgood := (hi.checkpoints p hp).congr hi.same
    rw [← ho]
    refine Sat.state (R := fun c => Inv board ⟨c, h.images, h.checkpoints⟩)
      (Context.rollback_rule (fun _ => hi) (fun hxip _ => ?_) fun hxip hiflash => ?_)
    · refine hi.withContext ⟨?_, hi.ready.2, hi.ready.3, hi.ready.4⟩ ⟨rfl, rfl, rfl, rfl, rfl, rfl⟩
      exact hi.ready.xip_sound.movedTo hxip.1 hxip.2
    · exact hi.withContext (hi.ready.rewound hgood hxip.1 hiflash.1) (Context.sameBoard_rewound _ _)
  | reset _ ho =>
    rw [← ho]
    refine Sat.state (R := fun c => Inv board ⟨c, h.images, h.checkpoints⟩)
      ((Context.reset_sat h.context).mono ?_ fun _ _ h => h.elim)
    rintro _ _ rfl
    exact hi.withContext hi.ready.emptied (Context.sameBoard_emptied _)

/-- **A run** keeps the invariant. -/
lemma Inv.run (hi : Inv board h) (hrun : Run faults h h') : Inv board h' := by
  induction hrun with
  | refl => exact hi
  | tail _ hstep ih => exact ih.step hstep

lemma inv_start {xip iflash : Region} (pool : Pool) (hxip : xip.Sound) (hiflash : iflash.Sound)
    (hroom : Record.width ≤ iflash.sector) :
    Inv (start xip iflash pool).context (start xip iflash pool) := by
  refine ⟨⟨hxip, hiflash, hroom, ?_⟩, .refl _, ?_, ?_⟩
  all_goals rintro _ ⟨⟩

end BoardHistory

end FlashLink
