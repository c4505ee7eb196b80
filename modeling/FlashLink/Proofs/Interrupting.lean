import FlashLink.Proofs.Legality

/-!
What a residency pass leaves behind where flash fails.

A failed step has taken internal flash and nothing else: the patcher, the pool and execute-in-place
flash are as they were. What is left of the trampoline sector stays erased all the while, since a sector
is only used once it has been erased and a write that fails changes nothing. So whatever has failed
before, the flash that a pass goes on to write is fit to be written.
-/

namespace FlashLink

open Act

/-! ### Regions -/

namespace Region

variable {r : Region}

/-- What is erased without an error is erased. -/
lemma erase_erases (hr : r.Sound) (s : FlashSpan) :
    Op.Sat (erase s) r (fun _ r' => Bench.ErasedFrom s 0 r') fun _ _ => True := by
  unfold erase
  split_ifs with hlen
  · exact fun i h1 h2 => by omega
  refine Op.Sat.bind (checkSpan_sat _ _ r) ?_ fun _ _ _ => trivial
  rintro _ _ ⟨rfl, hle⟩
  rename_i r
  have hfits := hr.fits
  rw [Nor.size] at hfits
  refine Op.Sat.get_bind (Op.sat_zoom.2 ?_)
  unfold Op.Sat Nor.erase devicePart
  dsimp only
  split_ifs
  · trivial
  · trivial
  · trivial
  · intro i h1 h2
    dsimp only
    rw [Bytes.getElem?_fill, if_pos (by omega), Array.getElem?_eq_getElem (by omega)]
    rfl

lemma reserveErased_erases (hr : r.Sound) (size : Nat) :
    Sat (reserveErased size) r (fun s r' => Bench.ErasedFrom s 0 r') fun _ _ => True := by
  unfold reserveErased
  refine Sat.bind (reserve_sat size r) ?_ fun _ _ _ => trivial
  rintro _ _ ⟨rfl, hle, rfl⟩
  have hgrown : Grown r.nextFree r { r with nextFree := r.nextFree + (r.nextSpan size).len } :=
    grown_reserved r.nextFree hle
  exact Sat.bind (sat_ofOp.2 (erase_erases (hgrown.sound hr) _)) (fun _ _ h => sat_pure.2 h)
    fun _ _ h => h

end Region

/-! ### Records -/

namespace Trampolines

variable {t : Trampolines} {r : Region}

/-- Whatever fails, the rest of the current sector stays erased. -/
lemma sectorWithRoom_blank (hr : r.Sound) (hp : t.Packed r) (hb : t.Blank r) :
    Sat sectorWithRoom (t, r) (fun _ w => w.1.Blank w.2) (fun _ w => w.1.Blank w.2) := by
  refine sectorWithRoom_rule (fun _ _ => hb) fun _ => ((Region.reserveErased_erases hr r.sector).and
    (Region.reserveErased_grown r.sector r)).mono ?_ fun _ _ h => hb.grown hp h.2
  rintro s r' ⟨herased, -, rfl, -⟩
  exact blank_fresh hr rfl herased

/-- A record that is not written leaves its place erased. -/
lemma emit_blank (hr : r.Sound) (hp : t.Packed r) (hsector : Record.width ≤ r.sector) (hb : t.Blank r)
    (target base : Addr) :
    Sat (emit target base) (t, r) (fun _ w => w.1.Blank w.2) (fun _ w => w.1.Blank w.2) := by
  refine emit_rule (((sectorWithRoom_blank hr hp hb).and (sectorWithRoom_sat hp hsector)).mono ?_
    fun _ _ h => h.1)
  rintro s ⟨t₁, r₁⟩ ⟨hblank, hadvanced, hpacked, hs, hroom⟩
  dsimp only at hblank hadvanced hpacked hs hroom ⊢
  have hsize : (Record.bytes target base).size = Record.width := rfl
  refine (Region.write_edits (F := (· < s.offset + (t₁.used + Record.width))) _
    (fun i _ h => by omega) r₁).mono ?_ fun _ _ h => hblank.grown hpacked (h.1.mono fun _ h => h.elim)
  intro _ r₂ hwritten
  refine blank_used hs (hblank s hs).1 fun i h1 h2 => ?_
  rw [hwritten.partition_eq, ← hwritten.same.get_eq _ fun k hk _ hi => by omega]
  exact (hblank s hs).2 i (by omega) h2

end Trampolines

/-! ### Contexts -/

/-- The allocators are ready, and records can be written where they go. -/
structure Context.Primed (c : Context) : Prop extends Context.Ready c where
  blank : c.trampolines.Blank c.iflash

namespace Context.Primed

variable {c c' : Context} {K : Nat → Prop}

lemma withPool (h : c.Primed) (pool : Pool) : { c with pool := pool }.Primed := by
  obtain ⟨⟨h1, h2, h3, h4⟩, h5⟩ := h
  exact ⟨⟨h1, h2, h3, h4⟩, h5⟩

lemma withFaults (h : c.Primed) (f g : Option ArmedFault) : (c.withFaults f g).Primed :=
  ⟨h.toReady.withFaults f g, h.blank⟩

/-- Without armed failures, operations are going to succeed. -/
lemma healthy (h : c.Primed) (hfits : c.xip.partition.base.toNat + c.xip.partition.size ≤ UInt32.size) :
    (c.withFaults none none).Healthy :=
  ⟨h.toReady.withFaults none none, rfl, rfl, h.blank, hfits⟩

/-- A trampoline that could not be made has taken internal flash at most. -/
lemma emit (h : c.Primed) (target base : Addr) :
    Sat (zoom Context.trampolinePart (Trampolines.emit target base)) c (fun _ c' => c'.Primed)
      (fun _ c' => c'.Primed ∧ c'.pool = c.pool ∧ Context.Extended (fun _ => False) c c') := by
  have hemit := (Trampolines.emit_blank h.iflash_sound h.packed h.room h.blank target base).and
    (Trampolines.emit_sat h.packed h.room target base)
  rw [sat_zoom]
  refine hemit.mono ?_ ?_
  · rintro _ ⟨t, r⟩ ⟨hblank, hadvanced, -⟩
    have hall : Context.Advanced (fun _ => False) c { c with trampolines := t, iflash := r } :=
      ⟨.refl _ _, hadvanced, .refl _ _⟩
    exact ⟨hall.ready h.toReady, hblank⟩
  · rintro _ ⟨t, r⟩ ⟨hblank, hadvanced⟩
    have hall : Context.Advanced (fun _ => False) c { c with trampolines := t, iflash := r } :=
      ⟨.refl _ _, hadvanced, .refl _ _⟩
    exact ⟨⟨hall.ready h.toReady, hblank⟩, rfl, hall, .refl _ _⟩

end Context.Primed

/-! ### Steps -/

namespace Patcher

variable {c c' : Context}

lemma Resided.primed (h : Resided c c') (hc : c.Primed) : c'.Primed := by
  refine ⟨h.advanced.ready hc.toReady, ?_⟩
  rw [h.others]
  exact hc.blank.grown hc.packed h.iflash

variable {κ : Type} {s : State κ}

/-- What a step that fails has done: it has taken internal flash at most. -/
structure Halted (s s' : State κ) : Prop where
  patcher_eq : s'.patcher = s.patcher
  pool_eq : s'.context.pool = s.context.pool
  extended : Context.Extended (fun _ => False) s.context s'.context
  primed : s'.context.Primed

lemma trampolineTo_halts (h : s.context.Primed) (target base : Addr) :
    Sat (trampolineTo target base) s (fun _ s' => s'.context.Primed) (fun _ s' => Halted s s') := by
  refine trampolineTo_rule (fun _ _ => h) fun _ => ?_
  exact (h.emit target base).mono (fun _ _ h' => h') fun _ _ h' => ⟨rfl, h'.2.1, h'.2.2, h'.1⟩

lemma patch_halts (h : s.context.Primed) (t : PatchTarget) (cursor : Nat) :
    Sat (patch t cursor) s (fun _ s' => s'.context.Primed) (fun _ s' => Halted s s') := by
  refine patch_rule (fun _ => h) (fun _ _ _ => h) fun b i word target _ _ => ?_
  exact (trampolineTo_halts h target _).mono (fun _ _ h' => h'.withPool _) fun _ _ h' => h'

lemma copy_halts (h : s.context.Primed) (index : Nat) :
    Sat (copy index) s (fun _ s' => s'.context.Primed) (fun _ s' => Halted s s') := by
  refine copy_rule (fun _ => h) fun placed _ => ?_
  refine (copySection_sat h.iflash_sound.sector_pos placed).mono (fun _ _ h' => h'.1.primed h) ?_
  intro _ d hresided
  have hpool : d.pool = s.context.pool := by rw [hresided.others]
  exact ⟨rfl, hpool, hresided.extended, hresided.primed h⟩

variable [CacheControl κ]

/-- **A step** that fails has taken internal flash at most, and after every step records can be
written where they go. -/
lemma step_halts (h : s.context.Primed) :
    Sat step s (fun _ s' => s'.context.Primed) (fun _ s' => Halted s s') := by
  refine step_rule ?_
  rcases s.patcher.stage with next | index | ⟨t, cursor⟩ | _
  · refine scan_rule (fun _ _ => h) fun _ => (finish_sat s).mono ?_ fun _ _ h' => h'.elim
    rintro _ s' ⟨-, hcontext⟩
    exact hcontext ▸ h
  · exact copy_halts h index
  · exact patch_halts h t cursor
  · exact sat_pure.2 h

lemma steps_primed (n : Nat) (h : s.context.Primed) :
    Sat (steps n) s (fun _ s' => s'.context.Primed) (fun _ s' => s'.context.Primed) :=
  steps_rule (I := fun s => s.context.Primed)
    (fun _ h => (step_halts h).mono (fun _ _ h' => h') fun _ _ h' => h'.primed) n h

lemma runOn_primed (h : c.Primed) (image : Image) (cache : κ) :
    (runOn image (c, cache)).state.1.Primed := by
  refine Sat.state (x := runOn image) (R := fun w => w.1.Primed) ?_
  exact runOn_rule (steps_primed _ h)

end Patcher

/-! ### Histories -/

namespace BoardHistory

variable {faults : Prop} {h h' : BoardHistory} {failure : Option Error} {board : Context}

/-- Whatever has failed before, passes over the images can be made when flash works again. -/
structure Resumable (board : Context) (h : BoardHistory) : Prop extends Inv board h where
  blank : h.context.trampolines.Blank h.context.iflash
  sized : ∀ i ∈ h.images, ∀ q ∈ i.sections, 0 < q.size

lemma Resumable.primed (hr : Resumable board h) : h.context.Primed := ⟨hr.ready, hr.blank⟩

/-- **A step** that may fail for flash. -/
lemma Resumable.step (hr : Resumable board h) (hs : Step faults failure h h') : Resumable board h' := by
  refine ⟨hr.toInv.step hs, ?_, hs.sized hr.sized⟩
  have hprimed := hr.primed
  cases hs with
  | arm | execute | checkpoint => exact hr.blank
  | @load _ loader hsized source name entry exports o ho =>
    have hload : Sat (Loader.load name exports entry) ⟨loader, source, h.context⟩ _ _ :=
      Loader.load_resident
    obtain ⟨hiflash, htrampolines⟩ := hload.state
    rw [ho] at hiflash htrampolines
    rw [hiflash, htrampolines]
    exact hr.blank
  | @patch _ image _ κ _ cache o ho => exact ho ▸ (Patcher.runOn_primed hprimed image cache).blank
  | emit _ target base ho =>
    have hemit : Sat (zoom Context.trampolinePart (Trampolines.emit target base)) h.context
        (fun _ c => c.Primed) (fun _ c => c.Primed) :=
      (hprimed.emit target base).mono (fun _ _ h' => h') fun _ _ h' => h'.1
    exact ho ▸ hemit.state.blank
  | @rollback _ p _ o ho =>
    have hback : Sat (Context.rollback p) h.context (fun _ c => c.trampolines.Blank c.iflash)
        (fun _ c => c.trampolines.Blank c.iflash) :=
      Context.rollback_rule (fun _ => hr.blank) (fun _ _ => hr.blank) fun _ _ => hr.blank.rewound p
    exact ho ▸ hback.state
  | reset _ ho =>
    have hreset : Sat Context.reset h.context (fun _ c => c.trampolines.Blank c.iflash)
        (fun _ c => c.trampolines.Blank c.iflash) :=
      (Context.reset_sat h.context).mono (fun _ _ h' => by rw [h']; exact nofun) fun _ _ h' => h'.elim
    exact ho ▸ hreset.state

/-- **A run** whatever fails on the way. -/
lemma Resumable.run (hr : Resumable board h) (hrun : Run faults h h') : Resumable board h' := by
  induction hrun with
  | refl => exact hr
  | tail _ hstep ih => exact ih.step hstep

lemma resumable_start {xip iflash : Region} (pool : Pool) (hxip : xip.Sound) (hiflash : iflash.Sound)
    (hroom : Record.width ≤ iflash.sector) :
    Resumable (start xip iflash pool).context (start xip iflash pool) :=
  ⟨inv_start pool hxip hiflash hroom, nofun, nofun⟩

end BoardHistory

end FlashLink
