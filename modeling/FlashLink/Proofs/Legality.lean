import FlashLink.Proofs.Addresses
import FlashLink.Proofs.Erasure
import FlashLink.Proofs.Isolation

/-!
Every operation on flash is legal.

What is written to internal flash is either a copy, which goes to a span that has just been erased, or a
record, which goes to the rest of the trampoline sector. That rest stays erased from the moment the
sector is reserved: copies go above it, rolling back retires the sector unless nothing was written to
it, and a reset forgets it. So without armed failures no step on a board fails for flash.
-/

namespace FlashLink

open Act

/-! ### Regions -/

namespace Region

variable {r : Region}

/-- Reading inside the partition succeeds. -/
lemma read_succeeds (hr : r.Sound) {offset len : Nat} (hle : offset + len ≤ r.partition.size) :
    Op.Sat (read offset len) r (fun b r' => b.size = len ∧ Written (fun _ => False) r r')
      (fun _ _ => False) := by
  have hfits := hr.fits
  have hread : Op.Sat (read offset len) r (fun b _ => b.size = len) fun _ _ => False := by
    unfold read
    refine Op.Sat.bind (checkSpan_sat _ _ r) ?_ fun _ _ h => absurd hle h.2
    rintro _ _ ⟨rfl, -⟩
    rename_i r
    refine Op.Sat.get_bind (Op.sat_zoom.2 ?_)
    unfold Op.Sat Nor.read devicePart
    dsimp only
    rw [if_neg (by omega)]
    exact Bytes.size_slice_of_le (by rw [Nor.size] at hfits; omega)
  exact (hread.and (read_written _ _ r)).mono (fun _ _ h => h) fun _ _ h => h.1

/-- A span that has just been reserved can be erased. -/
lemma erase_reserved (hr : r.Sound) (hu : r.Unarmed) {size : Nat}
    (hroom : (r.nextSpan size).len ≤ r.remaining) :
    Op.Sat (erase (r.nextSpan size)) { r with nextFree := r.nextFree + (r.nextSpan size).len }
      (fun _ r' => Grown r.nextFree r r' ∧ r'.nextFree = r.nextFree + (r.nextSpan size).len ∧
        Bench.ErasedFrom (r.nextSpan size) 0 r')
      fun _ _ => False := by
  have hgrown : Grown r.nextFree r { r with nextFree := r.nextFree + (r.nextSpan size).len } :=
    grown_reserved r.nextFree hroom
  have hle := (hgrown.sound hr).free_le
  refine (Bench.eraseSpan_sat (hgrown.sound hr) (hgrown.unarmed hu) hr.free_aligned
    (Nat.mod_eq_zero_of_dvd (dvd_alignUp _ _ hr.sector_pos)) hle).mono ?_ fun _ _ h => h
  rintro _ r' ⟨htouched, herased⟩
  exact ⟨hgrown.trans htouched.1, htouched.free_eq, herased⟩

/-- What is reserved erased is erased, unless there is no room. -/
lemma reserveErased_sat (hr : r.Sound) (hu : r.Unarmed) (size : Nat) :
    Sat (reserveErased size) r
      (fun s r' => Grown r.nextFree r r' ∧ s = r.nextSpan size ∧ r'.nextFree = r.nextFree + s.len ∧
        Bench.ErasedFrom s 0 r')
      (fun e r' => e.isFlash = false ∧ r' = r) := by
  unfold reserveErased
  refine Sat.bind ((reserve_offFlash size).raises.sat (reserve_sat size r)) ?_ fun _ _ h => h
  rintro _ _ ⟨rfl, hroom, rfl⟩
  refine Sat.bind (sat_ofOp.2 (erase_reserved hr hu hroom)) ?_ fun _ _ h => h.elim
  rintro _ r' ⟨hgrown, hfree, herased⟩
  exact ⟨hgrown, rfl, hfree, herased⟩

end Region

/-! ### Records -/

namespace Trampolines

variable {t : Trampolines} {r r' : Region}

/-- The next record goes to a word, and what is left of the sector is erased. -/
def Blank (t : Trampolines) (r : Region) : Prop :=
  ∀ s ∈ t.sector, (s.offset + t.used) % wordSize = 0 ∧ Bench.ErasedFrom s t.used r

/-- Work above the bump offset leaves the sector alone. -/
lemma Blank.grown (h : t.Blank r) (hp : t.Packed r) (hg : Region.Grown r.nextFree r r') :
    t.Blank r' := by
  intro s hs
  obtain ⟨hword, herased⟩ := h s hs
  refine ⟨hword, fun i h1 h2 => ?_⟩
  have hend := (hp s hs).1
  rw [hg.partition_eq, ← hg.same.get_eq _ fun k hk _ hi => by omega]
  exact herased i h1 h2

/-- A sector that has just been erased. -/
lemma blank_fresh {s : FlashSpan} (hr : r.Sound) (hoffset : s.offset = r.nextFree)
    (herased : Bench.ErasedFrom s 0 r') : Blank { t with sector := some s, used := 0 } r' := by
  rintro _ ⟨⟩
  refine ⟨?_, herased⟩
  rw [hoffset]
  exact Nat.mod_eq_zero_of_dvd (Nat.dvd_trans hr.word_dvd_sector
    (Nat.dvd_of_mod_eq_zero hr.free_aligned))

/-- A sector with one more record. -/
lemma blank_used {s : FlashSpan} {created : Nat} (hs : t.sector = some s)
    (hword : (s.offset + t.used) % wordSize = 0)
    (herased : Bench.ErasedFrom s (t.used + Record.width) r) :
    Blank { t with used := t.used + Record.width, created := created } r := by
  intro s' hs'
  obtain rfl : s = s' := Option.some.inj (hs.symm.trans hs')
  refine ⟨?_, herased⟩
  have hwidth : Record.width % wordSize = 0 := rfl
  dsimp only
  rw [← Nat.add_assoc, Nat.add_mod, hword, hwidth]
  rfl

lemma sectorWithRoom_benign (hr : r.Sound) (hu : r.Unarmed) (hb : t.Blank r) :
    Sat sectorWithRoom (t, r) (fun _ w => w.1.Blank w.2)
      (fun e w => e.isFlash = false ∧ w.1.Blank w.2) := by
  refine sectorWithRoom_rule (fun _ _ => hb) fun _ => (Region.reserveErased_sat hr hu r.sector).mono ?_ ?_
  · rintro s r' ⟨-, rfl, -, herased⟩
    exact blank_fresh hr rfl herased
  · rintro e _ ⟨he, rfl⟩
    exact ⟨he, hb⟩

/-- A record is written to erased words, and leaves the rest of the sector erased. -/
lemma emit_benign (hr : r.Sound) (hu : r.Unarmed) (hp : t.Packed r)
    (hsector : Record.width ≤ r.sector) (hb : t.Blank r) (target base : Addr) :
    Sat (emit target base) (t, r) (fun _ w => w.1.Blank w.2)
      (fun e w => e.isFlash = false ∧ w.1.Blank w.2) := by
  refine emit_rule (((sectorWithRoom_benign hr hu hb).and (sectorWithRoom_sat hp hsector)).mono ?_
    fun _ _ h => h.1)
  rintro s ⟨t₁, r₁⟩ ⟨hblank, hadvanced, hpacked, hs, hroom⟩
  dsimp only at hblank hadvanced hpacked hs hroom ⊢
  obtain ⟨hword, herased⟩ := hblank s hs
  have hr₁ := hadvanced.edited.sound hr
  have hend := (hpacked s hs).1
  have hfree := hr₁.free_le
  have hsize : (Record.bytes target base).size = Record.width := rfl
  refine (Bench.writeWords_sat hr₁ (hadvanced.edited.unarmed hu) hword (by rw [hsize]; rfl) (by omega)
    (by omega) herased).mono ?_ fun _ _ h => h.elim
  exact fun _ r₂ h => blank_used hs hword h.2.2

end Trampolines

/-! ### Contexts -/

/-- Operations on the flash of the context are going to succeed. -/
structure Context.Healthy (c : Context) : Prop where
  ready : c.Ready
  xip_unarmed : c.xip.Unarmed
  iflash_unarmed : c.iflash.Unarmed
  blank : c.trampolines.Blank c.iflash
  fits : c.xip.partition.base.toNat + c.xip.partition.size ≤ UInt32.size

/-- The section lies in the partition and is not empty. -/
def PlacedSection.Inside (s : PlacedSection) (r : Region) : Prop :=
  ∃ offset, s.addr = r.address offset ∧ offset + s.size ≤ r.partition.size ∧ 0 < s.size

namespace Context.Healthy

variable {c c' : Context} {K : Nat → Prop}

lemma advanced (h : c.Healthy) (ha : Context.Advanced K c c')
    (hb : c'.trampolines.Blank c'.iflash) : c'.Healthy :=
  ⟨ha.ready h.ready, ha.xip.unarmed h.2, ha.resident.edited.unarmed h.3, hb,
    by rw [ha.xip.partition_eq]; exact h.fits⟩

lemma withPool (h : c.Healthy) (pool : Pool) : { c with pool := pool }.Healthy := by
  obtain ⟨⟨h1, h2, h3, h4⟩, h5, h6, h7, h8⟩ := h
  exact ⟨⟨h1, h2, h3, h4⟩, h5, h6, h7, h8⟩

/-- A trampoline. -/
lemma emit (h : c.Healthy) (target base : Addr) :
    Sat (zoom Context.trampolinePart (Trampolines.emit target base)) c (fun _ c' => c'.Healthy)
      (fun e c' => e.isFlash = false ∧ c'.Healthy) := by
  have hblank : Sat (zoom Context.trampolinePart (Trampolines.emit target base)) c
      (fun _ c' => c'.trampolines.Blank c'.iflash)
      (fun e c' => e.isFlash = false ∧ c'.trampolines.Blank c'.iflash) := by
    rw [sat_zoom]
    exact Trampolines.emit_benign h.ready.iflash_sound h.iflash_unarmed h.ready.packed h.ready.room
      h.blank target base
  exact (hblank.and (Context.emit_sat h.ready.packed h.ready.room target base)).mono
    (fun _ _ h' => h.advanced h'.2.1 h'.1) fun _ _ h' => ⟨h'.1.1, h.advanced h'.2 h'.1.2⟩

end Context.Healthy

/-! ### Copies -/

namespace Patcher

variable {c : Context}

/-- Copying inside both partitions, to where the span is erased, succeeds. -/
lemma copyFrom_succeeds {src len fuel done : Nat} {dest : FlashSpan} (hxip : c.xip.Sound)
    (hiflash : c.iflash.Sound) (hu : c.iflash.Unarmed) (hsrc : src + len ≤ c.xip.partition.size)
    (hword : dest.offset % wordSize = 0) (hlen : dest.len % wordSize = 0) (hle : len ≤ dest.len)
    (hin : dest.offset + dest.len ≤ c.iflash.partition.size)
    (hdone : done < len → done % wordSize = 0 ∧ Bench.ErasedFrom dest done c.iflash) :
    Op.Sat (copyFrom src dest.offset len fuel done) c (fun _ _ => True) (fun _ _ => False) := by
  induction fuel generalizing done c with
  | zero => trivial
  | succ fuel ih =>
    refine copyFrom_rule (fun _ => trivial) fun hover => ?_
    obtain ⟨hstart, herased⟩ := hdone hover
    have hblock : copyBlock % wordSize = 0 := rfl
    set n := min (len - done) copyBlock with hn
    -- the block
    refine (Region.read_succeeds hxip (by omega)).mono ?_ fun _ _ h => h
    rintro data r ⟨hsize, hread⟩
    have halign := le_alignUp n (a := wordSize) (by decide)
    have hdata : ∀ padding : UInt8,
        (data ++ Array.replicate (alignUp n wordSize - n) padding).size = alignUp n wordSize := by
      intro padding
      rw [Array.size_append, Array.size_replicate]
      omega
    have hroom : alignUp n wordSize ≤ dest.len - done := alignUp_le (by decide)
      (Nat.dvd_sub (Nat.dvd_of_mod_eq_zero hlen) (Nat.dvd_of_mod_eq_zero hstart)) (by omega)
    -- the write
    refine (Bench.writeWords_sat hiflash hu ?_ ?_ ?_ hin herased).mono ?_ fun _ _ h => h
    · rw [wordSize] at *
      omega
    · rw [hdata]
      exact Nat.mod_eq_zero_of_dvd (dvd_alignUp _ _ (by decide))
    · rw [hdata]
      omega
    rintro _ r' ⟨htouched, -, hrest⟩
    rw [hdata] at hrest
    -- the rest
    refine ih (hread.sound hxip) (htouched.sound hiflash) (htouched.unarmed hu)
      (by rw [hread.partition_eq]; exact hsrc) (by rw [htouched.partition_eq]; exact hin) fun hmore => ?_
    have hfull : n = copyBlock := by omega
    rw [alignUp_eq (by decide) (by rw [hfull]; exact hblock)] at hrest
    exact ⟨by rw [wordSize] at *; omega, hrest⟩

/-- Making a section resident fails only for want of room. -/
lemma copySection_benign (h : c.Healthy) {s : PlacedSection} (hs : s.Inside c.xip) :
    Sat (copySection s) c (fun _ c' => c'.Healthy)
      (fun e c' => e.isFlash = false ∧ c'.Healthy) := by
  obtain ⟨src, haddr, hle, hpos⟩ := hs
  have hsound := h.ready.iflash_sound
  have hblank : Sat (copySection s) c (fun _ c' => c'.trampolines.Blank c'.iflash)
      (fun e c' => e.isFlash = false ∧ c'.trampolines.Blank c'.iflash) := by
    have hoffsetOf : c.xip.offsetOf? s.addr = some src := by
      rw [haddr, Region.offsetOf?_address h.fits (by omega)]
    refine copySection_rule (fun hnone => ?_) fun src' hsome => ?_
    · rw [hoffsetOf] at hnone
      cases hnone
    obtain rfl : src = src' := Option.some.inj (hoffsetOf.symm.trans hsome)
    refine (Region.reserveErased_sat hsound h.iflash_unarmed s.size).mono ?_ ?_
    swap
    · rintro e _ ⟨he, rfl⟩
      exact ⟨he, h.blank⟩
    rintro dest r ⟨hgrown, hdest, hnext, herased⟩
    have hr := hgrown.sound hsound
    have hfree := hr.free_le
    have hoffset : dest.offset = c.iflash.nextFree := by rw [hdest]; rfl
    have hlen : dest.len = alignUp s.size c.iflash.sector := by rw [hdest]; rfl
    have hword : ∀ {n}, c.iflash.sector ∣ n → n % wordSize = 0 := fun hn =>
      Nat.mod_eq_zero_of_dvd (Nat.dvd_trans hsound.word_dvd_sector hn)
    have hcopy : Op.Sat (copyFrom src dest.offset s.size s.size 0) { c with iflash := r } _ _ :=
      copyFrom_succeeds h.ready.xip_sound hr (hgrown.unarmed h.iflash_unarmed) hle
      (by rw [hoffset]; exact hword (Nat.dvd_of_mod_eq_zero hsound.free_aligned))
      (by rw [hlen]; exact hword (dvd_alignUp _ _ hsound.sector_pos))
      (by rw [hlen]; exact le_alignUp _ hsound.sector_pos) (by dsimp only; omega)
      fun _ => ⟨rfl, herased⟩
    refine (hcopy.and (copyFrom_copied (k := c.iflash.nextFree) (by omega) _ _ _ _)).mono ?_
      fun _ _ h => h.1.elim
    rintro _ c' ⟨-, hcopied⟩
    rw [hcopied.others]
    exact h.blank.grown h.ready.packed (hgrown.trans hcopied.iflash.1)
  exact (hblank.and (copySection_sat hsound.sector_pos s)).mono
    (fun _ _ h' => h.advanced h'.2.1.advanced h'.1)
    fun _ _ h' => ⟨h'.1.1, h.advanced h'.2.advanced h'.1.2⟩

/-! ### Passes -/

variable {κ : Type} {s : State κ}

lemma trampolineTo_benign (h : s.context.Healthy) (target base : Addr) :
    Sat (trampolineTo target base) s (fun _ s' => s'.context.Healthy)
      (fun e s' => e.isFlash = false ∧ s'.context.Healthy) := by
  exact trampolineTo_rule (fun _ _ => h) fun _ => h.emit target base

lemma patch_benign (h : s.context.Healthy) (t : PatchTarget) (cursor : Nat) :
    Sat (patch t cursor) s (fun stage s' => s'.context.Healthy ∧ ∀ i, stage ≠ .copying i)
      (fun e s' => e.isFlash = false ∧ s'.context.Healthy) := by
  refine patch_rule (fun _ => ⟨h, nofun⟩) (fun _ _ _ => ⟨h, nofun⟩) fun b i word target _ _ => ?_
  exact (trampolineTo_benign h _ _).mono (fun addr s' h' => ⟨h'.withPool _, nofun⟩) fun _ _ h => h

lemma copy_benign (h : s.context.Healthy) {index : Nat}
    (hin : ∀ q, s.patcher.image.sections[index]? = some q → q.Inside s.context.xip) :
    Sat (copy index) s (fun stage s' => s'.context.Healthy ∧ ∀ i, stage ≠ .copying i)
      (fun e s' => e.isFlash = false ∧ s'.context.Healthy) := by
  refine copy_rule (fun _ => ⟨h, nofun⟩) fun q hq => ?_
  exact (copySection_benign h (hin q hq)).mono (fun _ _ h => ⟨h, nofun⟩) fun _ _ h => h

/-- What a pass can do next is legal: a section about to be copied lies in the partition. -/
structure Legal (s : State κ) : Prop where
  healthy : s.context.Healthy
  tagged : ∀ q ∈ s.patcher.image.sections, q.isTagged → q.Inside s.context.xip
  staged : ∀ index, s.patcher.stage = .copying index →
    ∀ q, s.patcher.image.sections[index]? = some q → q.isTagged

variable [CacheControl κ]

/-- A section that has been found is tagged. -/
lemma scan_benign (h : s.context.Healthy) (next : Nat) :
    Sat (scan next) s
      (fun stage s' => s'.context.Healthy ∧ ∀ index, stage = .copying index →
        ∀ q, s.patcher.image.sections[index]? = some q → q.isTagged)
      (fun e s' => e.isFlash = false ∧ s'.context.Healthy) := by
  refine scan_rule (fun index hnext => ⟨h, ?_⟩) fun _ => (finish_sat s).mono ?_ fun _ _ h => h.elim
  · rintro _ ⟨⟩ q hq
    obtain ⟨-, -, q', hq', htagged⟩ := Image.nextTagged_some hnext
    obtain rfl : q = q' := Option.some.inj (hq.symm.trans hq')
    have hmem : q ∈ s.patcher.image.taggedBefore (index + 1) := by simp [htagged]
    exact (List.mem_filter.1 hmem).2
  · rintro _ s' ⟨-, hcontext⟩
    exact ⟨hcontext ▸ h, nofun⟩

/-- **A step** of a pass is legal, and so is the next one. -/
lemma step_benign (h : Legal s) :
    Sat step s (fun _ s' => Legal s') (fun e s' => e.isFlash = false ∧ s'.context.Healthy) := by
  have hstage : Sat (advance s.patcher.stage) s
      (fun stage s' => s'.context.Healthy ∧ ∀ index, stage = .copying index →
        ∀ q, s.patcher.image.sections[index]? = some q → q.isTagged)
      (fun e s' => e.isFlash = false ∧ s'.context.Healthy) := by
    rcases hstage : s.patcher.stage with next | index | ⟨t, cursor⟩ | _
    · exact scan_benign h.healthy next
    · exact (copy_benign h.healthy fun q hq => h.tagged q (List.mem_of_getElem? hq)
        (h.staged index hstage q hq)).mono (fun _ _ h' => ⟨h'.1, fun i hi => (h'.2 i hi).elim⟩)
        fun _ _ h' => h'
    · exact (patch_benign h.healthy t cursor).mono
        (fun _ _ h' => ⟨h'.1, fun i hi => (h'.2 i hi).elim⟩) fun _ _ h' => h'
    · exact sat_pure.2 ⟨h.healthy, nofun⟩
  have hstep : Sat step s
      (fun _ s' => s'.context.Healthy ∧ ∀ index, s'.patcher.stage = .copying index →
        ∀ q, s.patcher.image.sections[index]? = some q → q.isTagged)
      (fun e s' => e.isFlash = false ∧ s'.context.Healthy) := step_rule hstage
  refine (hstep.and (step_sat h.healthy.ready.packed h.healthy.ready.room)).mono ?_ fun _ _ h' => h'.1
  rintro _ s' ⟨⟨hhealthy, hstaged⟩, hstepped⟩
  refine ⟨hhealthy, fun q hq htagged => ?_, by rw [hstepped.image_eq]; exact hstaged⟩
  obtain ⟨offset, haddr, hin⟩ := h.tagged q (hstepped.image_eq ▸ hq) htagged
  have hxip := hstepped.advanced.xip
  exact ⟨offset, by rw [hxip.address_eq, haddr], by rw [hxip.partition_eq]; exact hin⟩

/-- **A pass** is legal however many steps it takes. -/
lemma steps_benign (h : Legal s) (n : Nat) :
    Sat (steps n) s (fun _ s' => s'.context.Healthy)
      (fun e s' => e.isFlash = false ∧ s'.context.Healthy) :=
  (steps_rule (fun _ h => step_benign h) n h).mono (fun _ _ h' => h'.healthy) fun _ _ h' => h'

lemma runOn_benign {c : Context} {image : Image} (h : c.Healthy)
    (hin : ∀ q ∈ image.sections, q.isTagged → q.Inside c.xip) (cache : κ) :
    Sat (runOn image) (c, cache) (fun _ w => w.1.Healthy)
      (fun e w => e.isFlash = false ∧ w.1.Healthy) := by
  refine runOn_rule (steps_benign ⟨h, hin, ?_⟩ _)
  rintro _ ⟨⟩

end Patcher

/-! ### Histories -/

/-- What holds of the state and of the failure, if there is one. -/
lemma Act.Sat.ends {σ α : Type} {x : Act σ α} {s : σ} {o : Outcome σ α} {R : σ → Prop}
    {L : Error → Prop} (h : Sat x s (fun _ => R) fun e t => L e ∧ R t) (ho : x s = o) :
    R o.state ∧ ∀ e ∈ o.failure?, L e := by
  unfold Sat at h
  rw [ho] at h
  rcases o with ⟨_ | a, t, es⟩
  · refine ⟨h.2, ?_⟩
    rintro _ ⟨⟩
    exact h.1
  · exact ⟨h, nofun⟩

/-- Where the checkpoint is not followed by a record in its sector, the sector stays in use. -/
lemma Trampolines.Blank.rewound {c : Context} (h : c.trampolines.Blank c.iflash) (p : Checkpoint) :
    (c.rewound p).trampolines.Blank (c.rewound p).iflash := by
  intro s hs
  unfold Context.rewound at hs ⊢
  dsimp only at hs ⊢
  split_ifs at hs ⊢ with heq
  · exact h s hs
  · cases hs

namespace Context.Healthy

variable {c : Context} {p : Checkpoint}

lemma rewound (h : c.Healthy) (hp : p.Good c) (hxip : p.xip ≤ c.xip.nextFree)
    (hiflash : p.iflash ≤ c.iflash.nextFree) : (c.rewound p).Healthy :=
  ⟨h.ready.rewound hp hxip hiflash, h.2, h.3, h.blank.rewound p, h.fits⟩

lemma rollback (h : c.Healthy) (hp : p.Good c) :
    Sat (Context.rollback p) c (fun _ c' => c'.Healthy)
      (fun e c' => e.isFlash = false ∧ c'.Healthy) := by
  refine Context.rollback_rule (fun _ => ⟨rfl, h⟩) (fun hxip _ => ⟨rfl, ?_⟩) fun hxip hiflash =>
    h.rewound hp hxip.1 hiflash.1
  obtain ⟨⟨h1, h2, h3, h4⟩, h5, h6, h7, h8⟩ := h
  exact ⟨⟨h1.movedTo hxip.1 hxip.2, h2, h3, h4⟩, h5, h6, h7, h8⟩

lemma emptied (h : c.Healthy) : c.emptied.Healthy :=
  ⟨h.ready.emptied, h.2, h.3, nofun, h.fits⟩

/-- A load leaves internal flash alone. -/
lemma load (h : c.Healthy) {loader : Loader} (hl : loader.Sized) (source : Source)
    (name entry : String) (exports : Lookup) :
    Sat (Loader.load name exports entry) ⟨loader, source, c⟩ (fun _ s' => s'.context.Healthy)
      (fun e s' => e.isFlash = false ∧ s'.context.Healthy) := by
  have hblank : ∀ s' : Loader.State, s'.context.iflash = c.iflash ∧
      s'.context.trampolines = c.trampolines → s'.context.trampolines.Blank s'.context.iflash :=
    fun s' hs => by rw [hs.1, hs.2]; exact h.blank
  refine ((Loader.load_benign hl h.ready.xip_sound h.xip_unarmed).and
    (Loader.load_resident.and (Loader.load_allocates hl))).mono ?_ ?_
  · exact fun _ s' h' => h.advanced h'.2.2.1 (hblank s' h'.2.1)
  · exact fun _ s' h' => ⟨h'.1, h.advanced h'.2.2 (hblank s' h'.2.1)⟩

end Context.Healthy

/-- The sections of an image are not empty. -/
lemma Job.Plan.Settled.size_pos {config : LoaderConfig} {src : Source} {c e : Context} {p : Plan}
    {name : String} {a : Addr} (h : p.Settled config src c e) {q : PlacedSection}
    (hq : q ∈ (p.image name a).sections) : 0 < q.size := by
  obtain ⟨s, hs, hqs, -⟩ := mem_placedSections.1 hq
  rw [hqs.size_eq]
  exact h.inspected.describes.size_pos hs (by rw [hqs.mem_cls]; rfl)

namespace BoardHistory

variable {faults : Prop} {h h' : BoardHistory} {failure : Option Error} {board : Context}

/-- Operations on flash are going to succeed, for every image that has been loaded. -/
structure Lawful (board : Context) (h : BoardHistory) : Prop extends Inv board h where
  healthy : h.context.Healthy
  sized : ∀ i ∈ h.images, ∀ q ∈ i.sections, 0 < q.size

/-- A tagged section can always be copied. -/
lemma Lawful.inside (hl : Lawful board h) {image : Image} (himage : image ∈ h.images)
    {q : PlacedSection} (hq : q ∈ image.sections) (htagged : q.isTagged) :
    q.Inside h.context.xip := by
  have hmem : q ∈ image.taggedBefore image.sections.length := by
    rw [Image.taggedBefore_length]
    exact List.mem_filter.2 ⟨hq, htagged⟩
  obtain ⟨offset, haddr, hle, -⟩ := (hl.fits himage).flash q hq (Image.mem_taggedBefore hmem).2
  exact ⟨offset, haddr, hle, hl.sized image himage q hq⟩

/-- No section of an image is empty. -/
lemma Step.sized (hs : Step faults failure h h') (hsized : ∀ i ∈ h.images, ∀ q ∈ i.sections, 0 < q.size) :
    ∀ i ∈ h'.images, ∀ q ∈ i.sections, 0 < q.size := by
  cases hs with
  | @load _ loader hl source name entry exports o ho =>
    intro i himage
    rcases List.mem_append.1 himage with hnew | hold
    · rcases o with ⟨_ | image, s', es⟩
      · cases hnew
      · obtain rfl := List.mem_singleton.1 hnew
        obtain ⟨-, p, e, hsettled, himage, -⟩ := (Loader.load_allocates hl).of_ok ho
        rw [himage]
        exact fun q hq => hsettled.size_pos hq
    · exact hsized i hold
  | _ => exact hsized

/-- **A step** does not fail for flash, and neither will the next one. -/
lemma Lawful.step (hl : Lawful board h) (hs : Step False failure h h') :
    Lawful board h' ∧ ∀ e ∈ failure, e.isFlash = false := by
  suffices hmain : h'.context.Healthy ∧ ∀ e ∈ failure, e.isFlash = false from
    ⟨⟨hl.toInv.step hs, hmain.1, hs.sized hl.sized⟩, hmain.2⟩
  cases hs with
  | arm _ hfaults => exact hfaults.elim
  | execute _ mem => exact ⟨hl.healthy.withPool _, nofun⟩
  | @load _ loader hsized source name entry exports o ho =>
    exact (hl.healthy.load hsized source name entry exports).ends ho
  | patch _ himage cache ho =>
    exact (Patcher.runOn_benign hl.healthy (fun q hq => hl.inside himage hq) cache).ends ho
  | emit _ target base ho => exact (hl.healthy.emit target base).ends ho
  | checkpoint _ => exact ⟨hl.healthy, nofun⟩
  | @rollback _ p hp o ho =>
    exact (hl.healthy.rollback ((hl.checkpoints p hp).congr hl.same)).ends ho
  | reset _ ho =>
    have hreset : Sat Context.reset h.context (fun _ c => c.Healthy)
        (fun e c => e.isFlash = false ∧ c.Healthy) :=
      (Context.reset_sat h.context).mono (fun _ _ heq => heq ▸ hl.healthy.emptied) fun _ _ h => h.elim
    exact hreset.ends ho

/-- **A run** keeps everything legal. -/
lemma Lawful.run (hl : Lawful board h) (hrun : Run False h h') : Lawful board h' := by
  induction hrun with
  | refl => exact hl
  | tail _ hstep ih => exact (ih.step hstep).1

/-- **Every operation on flash is legal.** On sound regions without armed failures, whose
execute-in-place partition does not wrap around, whatever has been loaded, patched, made and rolled
back before: nothing that happens next fails for flash. No access leaves its partition, every erase is
of whole sectors, every write of whole words, and every bit that a write sets had been erased. -/
theorem flash_lawful {xip iflash : Region} (pool : Pool) (hxip : xip.Sound) (hiflash : iflash.Sound)
    (hxip' : xip.Unarmed) (hiflash' : iflash.Unarmed) (hroom : Record.width ≤ iflash.sector)
    (hfits : xip.partition.base.toNat + xip.partition.size ≤ UInt32.size)
    (hrun : Run False (start xip iflash pool) h) (hstep : Step False failure h h')
    (why : FlashFault) : failure ≠ some (.flash why) := by
  have hinv := inv_start pool hxip hiflash hroom
  have hstart : Lawful _ (start xip iflash pool) :=
    ⟨hinv, ⟨hinv.ready, hxip', hiflash', nofun, hfits⟩, nofun⟩
  rintro rfl
  have := ((hstart.run hrun).step hstep).2 _ rfl
  cases this

/-- A single sector of internal flash. -/
def oneSector : Region := ⟨"iflash", .create 16 16 0xff, ⟨0, 16, 0x8000000⟩, 0⟩

/-- How a pass right after a load fails. -/
def passFailure? (loaded : Outcome Loader.State Image) : Option Error := do
  let image ← loaded.result.toOption
  (Patcher.runOn image (loaded.state.context, ())).failure?

/-- A pass that finds no room for a trampoline fails for that. -/
theorem flash_lawful_oneSector :
    ∃ (h h' : BoardHistory) (failure : Option Error),
      Run False (start (Small.region "xip" 0x10000000) oneSector (.create 0x20000000 48)) h ∧
      Step False failure h h' ∧ failure = some (.outOfFlash "iflash" 16 0) ∧
      ∀ why, failure ≠ some (.flash why) := by
  have hfailure : passFailure? (Small.load 16 pointersObject
      (.create (Small.region "xip" 0x10000000) oneSector (.create 0x20000000 48))) =
        some (.outOfFlash "iflash" 16 0) := by decide +kernel
  rcases hload : Small.load 16 pointersObject
      (.create (Small.region "xip" 0x10000000) oneSector (.create 0x20000000 48)) with
    ⟨_ | image, s', es⟩
  · rw [hload] at hfailure
    cases hfailure
  rw [hload] at hfailure
  have hloaded : Step False _ (start (Small.region "xip" 0x10000000) oneSector
      (.create 0x20000000 48)) _ := Step.load _ (Small.loader_sized (by decide) rfl) _ _ _ _ hload
  have hrun := (Run.refl _).tail hloaded
  have himage : image ∈ [image] := .head _
  have hpass : Step False _ ⟨s'.context, [image], []⟩ _ := Step.patch _ himage () rfl
  have hsound : oneSector.Sound := by
    constructor <;> simp [oneSector, Region.sector, Nor.create, Nor.size, wordSize]
  exact ⟨_, _, _, hrun, hpass, hfailure, flash_lawful _ (Small.region_sound _ _) hsound rfl rfl
    (by decide) (by decide) hrun hpass⟩

end BoardHistory

end FlashLink
