import FlashLink.Proofs.GuardedLoading
import FlashLink.Proofs.HotLoading
import FlashLink.Proofs.OneShot

/-!
Loading is safe.

A host has its hands on everything that a load allocates from. Between loads it may allocate for itself,
erase and write flash, exchange devices, roll back to checkpoints and let modules run. None of that takes
the execute-in-place region out of its partition or makes the pool larger. That, and buffers that are in
memory, is all a load needs: whatever bytes it is given, it is never stuck.

The pool is the one that must be watched. A request for no bytes is never too large, so it is granted past
the end of the pool too, at any offset that a word can hold; the next aligned offset is then none. A load
is safe as long as that has not happened.
-/

namespace FlashLink

open Act

/-! ### What a host may do -/

/-- What may be done to a region, whether it succeeds or not. -/
inductive Region.Step : Region → Region → Prop
  | reserve (r : Region) (size : Nat) : Step r (Region.reserve size r).state
  | erase (r : Region) (s : FlashSpan) : Step r (ofOp (Region.erase s) r).state
  | write (r : Region) (offset : Nat) (data : Bytes) : Step r (ofOp (Region.write offset data) r).state
  | read (r : Region) (offset len : Nat) : Step r (ofOp (Region.read offset len) r).state
  | reset (r : Region) : Step r (Region.reset r).state
  /-- The device was worked on directly, or exchanged for one of its kind. -/
  | exchange (r : Region) (d : Nor) (hsize : d.size = r.device.size)
    (hsector : d.sector = r.device.sector) : Step r { r with device := d }

namespace Context

/-- What may be done to a context, whether it succeeds or not. -/
inductive Step : Context → Context → Prop
  | load (c : Context) {loader : Loader} (hl : loader.Sized) (source : Source) (name entry : String)
    (exports : Lookup) : Step c (Loader.load name exports entry ⟨loader, source, c⟩).state.context
  | patch (c : Context) (image : Image) {κ : Type} [CacheControl κ] (cache : κ) :
    Step c (Patcher.runOn image (c, cache)).state.1
  | emit (c : Context) (target base : Addr) :
    Step c (zoom trampolinePart (Trampolines.emit target base) c).state
  /-- Memory was read, and variables were written. -/
  | run {c c' : Context} (h : Accessed c c') : Step c c'
  | xip (c : Context) {r : Region} (h : Region.Step c.xip r) : Step c { c with xip := r }
  /-- Loads do not look at internal flash. -/
  | iflash (c : Context) (r : Region) : Step c { c with iflash := r }
  | allocate (c : Context) (size align : Nat) :
    Step c { c with pool := (c.pool.reserve size align).state }
  | clear (c : Context) : Step c { c with pool := c.pool.reset }
  | rollback (c : Context) (p : Checkpoint) : Step c (Context.rollback p c).state
  | reset (c : Context) : Step c (Context.reset c).state

/-- The context comes from a fresh one over these regions and this pool. -/
inductive Reached (xip iflash : Region) (pool : Pool) : Context → Prop
  | create : Reached xip iflash pool (.create xip iflash pool)
  | step {c c' : Context} : Reached xip iflash pool c → Step c c' → Reached xip iflash pool c'

end Context

/-! ### What stays -/

namespace Region

variable {r r' : Region}

/-- Moving the bump offset down to a whole sector. -/
lemma Addressed.movedTo (hr : r.Addressed) {n : Nat} (hle : n ≤ r.nextFree) (hn : n % r.sector = 0) :
    { r with nextFree := n }.Addressed :=
  ⟨hr.sound.movedTo hle hn, hr.device_lt, hr.sector_lt⟩

/-- **A step** keeps the region in its partition. -/
lemma Step.addressed (h : Step r r') (hr : r.Addressed) : r'.Addressed := by
  cases h with
  | reserve size =>
    refine Sat.state (R := Addressed) ((reserve_sat size r).mono ?_ fun _ _ h => h ▸ hr)
    rintro _ _ ⟨rfl, hle, rfl⟩
    exact (grown_reserved 0 hle).addressed hr
  | erase s =>
    have hwritten := erase_written (F := fun _ => True) (s := s) (fun _ _ _ => trivial) r
    exact Sat.state (R := Addressed) (sat_ofOp.2 (hwritten.mono (fun _ _ h => h.1.addressed hr)
      fun _ _ h => h.1.addressed hr))
  | write offset data =>
    have hwritten : Op.Sat (Region.write offset data) r (fun _ => Written (fun _ => True) r) _ :=
      write_written data (fun _ _ _ => trivial) r
    exact Sat.state (R := Addressed) (sat_ofOp.2 (hwritten.mono (fun _ _ h => h.1.addressed hr)
      fun _ _ h => h.1.addressed hr))
  | read offset len =>
    have hwritten := read_written (F := fun _ => True) offset len r
    exact Sat.state (R := Addressed) (sat_ofOp.2 (hwritten.mono (fun _ _ h => h.1.addressed hr)
      fun _ _ h => h.1.addressed hr))
  | reset => exact hr.movedTo (Nat.zero_le _) (Nat.zero_mod _)
  | exchange d hsize hsector =>
    obtain ⟨⟨h1, h2, h3, h4, h5, h6, h7⟩, hdevice, hsector'⟩ := hr
    rw [sector] at *
    rw [← hsector] at *
    rw [← hsize] at *
    exact ⟨⟨h1, h2, h3, h4, h5, h6, h7⟩, hdevice, hsector'⟩

end Region

namespace Context

variable {c c' : Context} {n : Nat}

/-- The region is in its partition, and the pool as large as ever. -/
structure Bounded (n : Nat) (c : Context) : Prop where
  xip : c.xip.Addressed
  capacity_eq : c.pool.capacity = n

lemma Ascended.bounded (h : Ascended c c') (hc : c.Bounded n) : c'.Bounded n :=
  ⟨h.xip.addressed hc.xip, h.pool.same.size_eq.symm.trans hc.capacity_eq⟩

/-- Rolling back, to whatever it may be. -/
lemma rollback_bounded (p : Checkpoint) : Preserves (Bounded n) (rollback p) := fun _ hc =>
  rollback_rule (fun _ => hc)
    (fun hxip _ => ⟨hc.xip.movedTo hxip.1 hxip.2, hc.capacity_eq⟩)
    fun hxip _ => ⟨hc.xip.movedTo hxip.1 hxip.2, hc.capacity_eq⟩

lemma reset_bounded : Preserves (Bounded n) reset := fun c hc => by
  refine (reset_sat c).mono ?_ fun _ _ h => h.elim
  rintro _ _ rfl
  exact ⟨hc.xip.movedTo (Nat.zero_le _) (Nat.zero_mod _),
    (Bytes.size_fill _ _ _ _).trans hc.capacity_eq⟩

/-- **A step** keeps the bounds. -/
lemma Step.bounded (h : Step c c') (hc : c.Bounded n) : c'.Bounded n := by
  cases h with
  | load hl source name entry exports =>
    refine Sat.state (R := fun s : Loader.State => s.context.Bounded n)
      ((Loader.load_allocates hl).mono ?_ fun _ _ h => h.ascended.bounded hc)
    exact fun _ _ h => h.1.ascended.bounded hc
  | patch image cache => exact (Patcher.runOn_ascended c image cache).bounded hc
  | emit target base =>
    exact (Sat.state (R := Ascended c) (emit_ascended c target base c (.refl c))).bounded hc
  | run h => exact h.ascended.bounded hc
  | xip h => exact ⟨h.addressed hc.xip, hc.capacity_eq⟩
  | iflash r => exact ⟨hc.xip, hc.capacity_eq⟩
  | allocate size align =>
    have hcapacity : (c.pool.reserve size align).state.capacity = c.pool.capacity :=
      Sat.state (R := fun p => p.capacity = c.pool.capacity)
        ((Pool.reserve_sat size align c.pool).mono (fun _ _ h => h.2.2 ▸ rfl) fun _ _ h => h ▸ rfl)
    exact ⟨hc.xip, hcapacity.trans hc.capacity_eq⟩
  | clear => exact ⟨hc.xip, (Bytes.size_fill _ _ _ _).trans hc.capacity_eq⟩
  | rollback p => exact (rollback_bounded p c hc).state
  | reset => exact (reset_bounded c hc).state

/-- **What is reached** is bounded. -/
lemma Reached.bounded {xip iflash : Region} {pool : Pool} (hxip : xip.Addressed)
    (h : Reached xip iflash pool c) : c.Bounded pool.capacity := by
  induction h with
  | create => exact ⟨hxip, rfl⟩
  | step _ hstep ih => exact hstep.bounded ih

/-! ### Safety -/

/-- **Loading untrusted bytes is safe.** Take any context that a host can get at, a loader of any
configuration, and any bytes, exports and entry name. Of the load, take the trial that is stuck at once
where a size does not fit in a word or goes below zero, where a slice or an index is out of bounds, where
flash is written outside the span of the section that is streamed, where a batch or a chunk does not get
on, and where a loop does not end. It is not stuck: it ends as the load does, with an image or an error,
and no promise is found broken.

Buffers and pools lie in memory and do not take up the last of it. The pool has not been asked for no bytes
at an offset that no word is left behind. -/
theorem Reached.load_safe {xip iflash : Region} {pool : Pool} {loader : Loader} {c : Context}
    (hxip : xip.Addressed) (hpool : pool.capacity + 2 ^ 32 ≤ sizeLimit) (hl : loader.Sized)
    (hbuffers : loader.scratch.Addressed) (h : Reached xip iflash pool c)
    (hused : c.pool.used + 2 ^ 32 ≤ sizeLimit) (source : Source) (name entry : String)
    (exports : Lookup) :
    Guarded.load name exports entry ⟨loader, source, c⟩ =
        some (Loader.load name exports entry ⟨loader, source, c⟩) ∧
      ∀ b, (Loader.load name exports entry ⟨loader, source, c⟩).result ≠ .error (.breach b) := by
  have hc := h.bounded hxip
  have hruns : (Guarded.load name exports entry).Runs (Loader.load name exports entry)
      ⟨loader, source, c⟩ :=
    Guarded.load_runs hl hbuffers ⟨hc.xip, hc.capacity_eq ▸ hpool, hused⟩
  exact ⟨hruns.eq, hruns.unbroken⟩

/-- A small board on which the host has a word of the pool for itself. -/
def shared : Context := { Small.context with pool := (Small.context.pool.reserve 4 4).state }

theorem Reached.load_safe_linkedObject :
    shared.pool.used = 4 ∧
      Guarded.load "m" (fun _ => none) "e" ⟨Small.loader 16, .ofBytes "m" Loader.linkedObject, shared⟩ =
        some (Small.load 16 Loader.linkedObject shared) ∧
      ∀ b, (Small.load 16 Loader.linkedObject shared).result ≠ .error (.breach b) := by
  have hxip : (Small.region "xip" 0x10000000).Addressed :=
    ⟨Small.region_sound _ _, by decide +kernel, by decide⟩
  have hloader : (Small.loader 16).Sized := Small.loader_sized (by decide) (by decide)
  have hreached : Reached Small.context.xip Small.context.iflash Small.context.pool shared :=
    .step .create (.allocate Small.context 4 4)
  exact ⟨by decide, Reached.load_safe hxip (by decide +kernel) hloader
    ⟨by decide +kernel, by decide +kernel⟩ hreached (by decide) ..⟩

end Context

end FlashLink
