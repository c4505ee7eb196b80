import FlashLink.Proofs.OneShot
import FlashLink.Proofs.Residence

/-!
How long allocations live.

A world is a context together with what has been made in it and not been given back, and with the
checkpoints that have not been rolled past. Loads, patching, trampolines, checkpoints, rollbacks and
injected failures step from world to world, in any order. Nothing that is live is free, and neither is
what was live at a checkpoint when the checkpoint is rolled back to; all work is done in free space. So
whatever is live keeps its bytes.
-/

namespace FlashLink

open Act

/-! ### Worlds -/

/-- Bytes in use, and at which offset of their region they are. -/
abbrev Holds : Type := Nat → Bytes → Prop

/-- What has been made and not been given back. -/
structure Live where
  images : List Image
  copies : List ResidentCopy
  /-- The addresses of trampolines. -/
  records : List Addr
  /-- The sections of images in flash, with their bytes as they were when the load ended. -/
  flash : Holds
  /-- Copies and trampolines in internal flash, with their bytes as they were when they were made. -/
  resident : Holds

namespace Live

def none : Live := ⟨[], [], [], fun _ _ => False, fun _ _ => False⟩

/-- With an image that a load from `c` to `c'` returned. -/
def withImage (l : Live) (c c' : Context) (image : Image) : Live :=
  { l with
    images := image :: l.images
    flash := fun offset b => l.flash offset b ∨
      ∃ q ∈ image.sections, q.cls.isFlash ∧ StoredAt c c' q offset b }

/-- With copies that were made from `c` to `c'`. -/
def withCopies (l : Live) (c c' : Context) (made : List ResidentCopy) : Live :=
  { l with
    copies := made ++ l.copies
    resident := fun offset b => l.resident offset b ∨ ∃ copy ∈ made,
      Patcher.CopyAt c c' copy.iflash copy.size offset ∧ b = c'.iflash.bytes offset copy.size }

/-- With trampolines, the last ones made in `c'`. -/
def withRecords (l : Live) (c' : Context) (made : List Addr) : Live :=
  { l with
    records := made ++ l.records
    resident := fun offset b => l.resident offset b ∨ ∃ addr ∈ made,
      c'.trampolines.RecordAt c'.iflash addr offset ∧ b = c'.iflash.bytes offset Record.width }

end Live

/-- A checkpoint, and what was live when it was taken. -/
structure Mark where
  checkpoint : Checkpoint
  live : Live

structure World where
  context : Context
  live : Live
  /-- The checkpoints that have not been rolled past, the latest first. -/
  marks : List Mark

inductive Activity where
  | arm
  | load
  | patch (image : Image)
  | emit
  | checkpoint
  | rollback

/-- The context with other failures armed. -/
def Context.withFaults (c : Context) (f g : Option ArmedFault) : Context :=
  { c with xip.device.armed := f, iflash.device.armed := g }

/-- The copies and the trampolines that a step of a patcher made. -/
def Patcher.State.newCopies {κ : Type} (s s' : State κ) : List ResidentCopy :=
  s'.patcher.report.copies.drop s.patcher.report.copies.length

def Patcher.State.newRecords {κ : Type} (s s' : State κ) : List Addr :=
  (s'.patcher.made.take (s'.patcher.made.length - s.patcher.made.length)).map (·.2)

namespace World

/-- One step: whatever fails on the way, the context is as far as the step got. -/
inductive Step : Activity → World → World → Prop
  | arm (w : World) (f g : Option ArmedFault) :
    Step .arm w { w with context := w.context.withFaults f g }
  | load (w : World) {loader : Loader} {source : Source} {name entry : String} {exports : Lookup}
    {image : Image} {s' : Loader.State} {es : List Event} (hl : loader.Sized)
    (h : Loader.load name exports entry ⟨loader, source, w.context⟩ = ⟨.ok image, s', es⟩) :
    Step .load w
      { w with context := s'.context, live := w.live.withImage w.context s'.context image }
  | loadFailed (w : World) {loader : Loader} {source : Source} {name entry : String}
    {exports : Lookup} {e : Error} {s' : Loader.State} {es : List Event} (hl : loader.Sized)
    (h : Loader.load name exports entry ⟨loader, source, w.context⟩ = ⟨.error e, s', es⟩) :
    Step .load w { w with context := s'.context }
  | patch (w : World) {κ : Type} [CacheControl κ] {p : Patcher} {k : κ} {r : Except Error Bool}
    {s' : Patcher.State κ} {es : List Event} (hlive : p.image ∈ w.live.images)
    (h : Patcher.step ⟨p, w.context, k⟩ = ⟨r, s', es⟩) :
    Step (.patch p.image) w
      { w with
        context := s'.context
        live := (w.live.withCopies w.context s'.context
          (Patcher.State.newCopies ⟨p, w.context, k⟩ s')).withRecords s'.context
            (Patcher.State.newRecords ⟨p, w.context, k⟩ s') }
  | emit (w : World) {target base addr : Addr} {c' : Context} {es : List Event}
    (h : zoom Context.trampolinePart (Trampolines.emit target base) w.context =
      ⟨.ok addr, c', es⟩) :
    Step .emit w { w with context := c', live := w.live.withRecords c' [addr] }
  | emitFailed (w : World) {target base : Addr} {e : Error} {c' : Context} {es : List Event}
    (h : zoom Context.trampolinePart (Trampolines.emit target base) w.context =
      ⟨.error e, c', es⟩) :
    Step .emit w { w with context := c' }
  | checkpoint (w : World) :
    Step .checkpoint w { w with marks := ⟨w.context.checkpoint, w.live⟩ :: w.marks }
  | rollback (w : World) {later earlier : List Mark} {mark : Mark} {c' : Context} {es : List Event}
    (hmark : w.marks = later ++ mark :: earlier)
    (h : Context.rollback mark.checkpoint w.context = ⟨.ok (), c', es⟩) :
    Step .rollback w ⟨c', mark.live, mark :: earlier⟩

/-- Steps in sequence. -/
inductive Run : World → World → Prop
  | refl (w : World) : Run w w
  | tail {w w' w'' : World} {a : Activity} : Run w w' → Step a w' w'' → Run w w''

end World

/-! ### What is live is taken -/

/-- The place of the pool is in a block of the image. -/
def Image.Owns (i : Image) (k : Nat) : Prop :=
  ∃ b, (i.data = some b ∨ i.bss = some b) ∧ b.offset ≤ k ∧ k < b.offset + b.len

/-- No place of the pool is in blocks of both images. -/
def Image.Apart (i j : Image) : Prop := ∀ k, i.Owns k → ¬ j.Owns k

instance : Std.Symm Image.Apart := ⟨fun _ _ h k hj hi => h k hi hj⟩

lemma Patcher.Patched.owned {i : Image} {k : Nat} (h : Patched i k) : i.Owns k := by
  obtain ⟨b, hb, h1, h2⟩ := h
  exact ⟨b, .inl hb, h1, h2⟩

namespace Live

/-- Nothing that is live is free at the checkpoint, and no two images share a place of the pool. -/
structure Taken (l : Live) (p : Checkpoint) : Prop where
  flash : ∀ offset b, l.flash offset b → offset + b.size ≤ p.xip
  resident : ∀ offset b, l.resident offset b → ∀ i, offset ≤ i → i < offset + b.size →
    ¬ p.trampolines.Free p.iflash i
  owned : ∀ image ∈ l.images, ∀ k, image.Owns k → k < p.pool
  apart : l.images.Pairwise Image.Apart

/-- Everything that has been made is among the bytes in use, at its address and with its size. -/
structure Covered (l : Live) (c : Context) : Prop where
  sections : ∀ image ∈ l.images, ∀ q ∈ image.sections, q.cls.isFlash →
    ∃ offset b, l.flash offset b ∧ b.size = q.size ∧ q.addr = c.xip.address offset
  copies : ∀ copy ∈ l.copies,
    ∃ offset b, l.resident offset b ∧ b.size = copy.size ∧ copy.iflash = c.iflash.address offset
  records : ∀ addr ∈ l.records,
    ∃ offset b, l.resident offset b ∧ b.size = Record.width ∧ addr = c.iflash.address offset ||| 1

/-- All bytes in use are as they were. -/
structure Intact (l : Live) (c : Context) : Prop where
  flash : ∀ offset b, l.flash offset b → c.xip.bytes offset b.size = b
  resident : ∀ offset b, l.resident offset b → c.iflash.bytes offset b.size = b

end Live

/-- What is live is taken, covered and intact in a context. -/
structure Live.Kept (l : Live) (c : Context) : Prop where
  taken : l.Taken c.checkpoint
  covered : l.Covered c
  intact : l.Intact c

/-- The regions of both contexts are over the same partitions, and nothing outside of these differs. -/
structure Context.SameRegions (c c' : Context) : Prop where
  xip_partition : c'.xip.partition = c.xip.partition
  xip_sector : c'.xip.sector = c.xip.sector
  xip_outside : Bytes.SameOn c.xip.Outside c.xip.device.contents c'.xip.device.contents
  iflash_partition : c'.iflash.partition = c.iflash.partition
  iflash_sector : c'.iflash.sector = c.iflash.sector
  iflash_outside : Bytes.SameOn c.iflash.Outside c.iflash.device.contents c'.iflash.device.contents

namespace Context.SameRegions

variable {c c' c'' : Context}

lemma refl (c : Context) : SameRegions c c := ⟨rfl, rfl, .refl _, rfl, rfl, .refl _⟩

lemma trans (h : SameRegions c c') (h' : SameRegions c' c'') : SameRegions c c'' := by
  refine ⟨h'.1.trans h.1, h'.2.trans h.2, h.3.trans (h'.3.mono fun i hi => ?_), h'.4.trans h.4,
    h'.5.trans h.5, h.6.trans (h'.6.mono fun i hi => ?_)⟩
  · rwa [Region.Outside, h.1]
  · rwa [Region.Outside, h.4]

end Context.SameRegions

lemma Context.Advanced.sameRegions {K : Nat → Prop} {c c' : Context} (h : Advanced K c c') :
    SameRegions c c' :=
  ⟨h.xip.partition_eq, h.xip.sector_eq, h.xip.outside, h.resident.edited.partition_eq,
    h.resident.edited.sector_eq, h.resident.edited.outside⟩

namespace Mark

/-- Rolling back to the mark is sound. -/
structure Good (m : Mark) (c : Context) : Prop where
  taken : m.live.Taken m.checkpoint
  covered : m.live.Covered c
  packed : ∀ s ∈ m.checkpoint.trampolines.sector,
    s.offset + s.len ≤ m.checkpoint.iflash ∧ s.addr = c.iflash.address s.offset
  xip_aligned : m.checkpoint.xip % c.xip.sector = 0
  iflash_aligned : m.checkpoint.iflash % c.iflash.sector = 0

/-- What was live at the earlier mark still was at the later one. -/
structure Within (earlier later : Mark) : Prop where
  flash : ∀ offset b, earlier.live.flash offset b → later.live.flash offset b
  resident : ∀ offset b, earlier.live.resident offset b → later.live.resident offset b
  xip_le : earlier.checkpoint.xip ≤ later.checkpoint.xip
  iflash_le : earlier.checkpoint.iflash ≤ later.checkpoint.iflash

lemma Within.trans {a b c : Mark} (h : a.Within b) (h' : b.Within c) : a.Within c :=
  ⟨fun o x hx => h'.1 o x (h.1 o x hx), fun o x hx => h'.2 o x (h.2 o x hx),
    Nat.le_trans h.3 h'.3, Nat.le_trans h.4 h'.4⟩

lemma Within.refl (a : Mark) : a.Within a :=
  ⟨fun _ _ h => h, fun _ _ h => h, Nat.le_refl _, Nat.le_refl _⟩

/-- The regions' addresses and sectors are all that matters. -/
lemma Good.congr {m : Mark} {c c' : Context} (h : m.Good c) (hc : Context.SameRegions c c') :
    m.Good c' := by
  have hx : ∀ o, c'.xip.address o = c.xip.address o := fun o => by
    rw [Region.address, Region.address, hc.xip_partition]
  have hi : ∀ o, c'.iflash.address o = c.iflash.address o := fun o => by
    rw [Region.address, Region.address, hc.iflash_partition]
  obtain ⟨htaken, ⟨hsections, hcopies, hrecords⟩, hpacked, hxip, hiflash⟩ := h
  refine ⟨htaken, ⟨?_, ?_, ?_⟩, ?_, by rw [hc.xip_sector]; exact hxip,
    by rw [hc.iflash_sector]; exact hiflash⟩
  · simp only [hx]
    exact hsections
  · simp only [hi]
    exact hcopies
  · simp only [hi]
    exact hrecords
  · simp only [hi]
    exact hpacked

end Mark

namespace World

/-- A rollback to here and now would undo nothing. -/
def now (w : World) : Mark := ⟨w.context.checkpoint, w.live⟩

/-- **The invariant** of all steps. -/
structure Inv (w : World) : Prop where
  xip_sound : w.context.xip.Sound
  iflash_sound : w.context.iflash.Sound
  room : Record.width ≤ w.context.iflash.sector
  intact : w.live.Intact w.context
  good : ∀ m ∈ w.now :: w.marks, m.Good w.context
  nested : (w.now :: w.marks).Pairwise fun later earlier => earlier.Within later

variable {w w' : World} {K : Nat → Prop} {c' : Context} {live' : Live}

lemma Inv.packed (h : Inv w) : w.context.trampolines.Packed w.context.iflash :=
  (h.good w.now (.head _)).packed

/-- Work in free space keeps the invariant for what was live before; it remains to see to what is
new. -/
lemma Inv.advance (h : Inv w) (ha : Context.Advanced K w.context c')
    (hkept : live'.Kept c') (hflash : ∀ o b, w.live.flash o b → live'.flash o b)
    (hresident : ∀ o b, w.live.resident o b → live'.resident o b) :
    Inv { w with context := c', live := live' } := by
  have hxip := ha.xip.sound h.xip_sound
  have hiflash := ha.resident.edited.sound h.iflash_sound
  have hregions := ha.sameRegions
  have hnow : w.now.Within ⟨c'.checkpoint, live'⟩ :=
    ⟨hflash, hresident, ha.xip.free_le, ha.resident.edited.free_le⟩
  obtain ⟨hfirst, hrest⟩ := List.pairwise_cons.1 h.nested
  refine ⟨hxip, hiflash, by rw [hregions.iflash_sector]; exact h.room, hkept.intact, ?_, ?_⟩
  · refine List.forall_mem_cons.2 ⟨⟨hkept.taken, hkept.covered, ha.resident.packed h.packed,
      hxip.free_aligned, hiflash.free_aligned⟩, fun m hm => (h.good m (.tail _ hm)).congr hregions⟩
  · exact List.pairwise_cons.2 ⟨fun m hm => (hfirst m hm).trans hnow, hrest⟩

/-- What was live is kept by work in free space. -/
lemma Inv.kept (h : Inv w) (ha : Context.Advanced K w.context c') : w.live.Kept c' := by
  have hgood := h.good w.now (.head _)
  obtain ⟨hflash, hresident, howned, hapart⟩ := hgood.taken
  refine ⟨⟨fun o b hb => Nat.le_trans (hflash o b hb) ha.xip.free_le,
    fun o b hb i h1 h2 hi => hresident o b hb i h1 h2 (ha.resident.free i hi),
    fun image hi k hk => Nat.lt_of_lt_of_le (howned image hi k hk) ha.pool.used_le, hapart⟩,
    (hgood.congr ha.sameRegions).covered, fun o b hb => ?_, fun o b hb => ?_⟩
  · have hle : o + b.size ≤ w.context.xip.nextFree := hflash o b hb
    rw [ha.xip.bytes_eq fun k _ hk => Nat.not_le.2 (by omega)]
    exact h.intact.flash o b hb
  · rw [ha.resident.edited.bytes_eq fun k h1 h2 => hresident o b hb k h1 h2]
    exact h.intact.resident o b hb

end World

/-! ### What is new -/

namespace Region

lemma bytes_size (r : Region) (offset len : Nat) :
    r.bytes offset (r.bytes offset len).size = r.bytes offset len :=
  Bytes.slice_size_slice _ _ _

lemma size_bytes_le (r : Region) (offset len : Nat) : (r.bytes offset len).size ≤ len := by
  rw [bytes, Bytes.size_slice]
  omega

lemma Sound.size_bytes {r : Region} (h : r.Sound) {offset len : Nat}
    (hle : offset + len ≤ r.nextFree) : (r.bytes offset len).size = len := by
  have h1 := h.free_le
  have h2 := h.fits
  exact Bytes.size_slice_of_le (by rw [Nor.size] at h2; omega)

end Region

namespace Live

variable {l : Live} {c c' : Context}

lemma Kept.withRecords (h : l.Kept c') (hp : c'.trampolines.Packed c'.iflash)
    (hsound : c'.iflash.Sound) {made : List Addr}
    (hmade : ∀ addr ∈ made, ∃ offset, c'.trampolines.RecordAt c'.iflash addr offset) :
    (l.withRecords c' made).Kept c' := by
  obtain ⟨⟨hflash, hresident, howned, hapart⟩, ⟨hsections, hcopies, hrecords⟩, hintact⟩ := h
  refine ⟨⟨hflash, ?_, howned, hapart⟩, ⟨hsections, ?_, ?_⟩, hintact.flash, ?_⟩
  · rintro o b (hb | ⟨addr, -, hat, rfl⟩) i h1 h2
    · exact hresident o b hb i h1 h2
    · have := c'.iflash.size_bytes_le o Record.width
      exact hat.taken hp (by omega)
  · intro copy hcopy
    obtain ⟨o, b, hb, hrest⟩ := hcopies copy hcopy
    exact ⟨o, b, .inl hb, hrest⟩
  · intro addr haddr
    rcases List.mem_append.1 haddr with hnew | hold
    · obtain ⟨o, hat⟩ := hmade addr hnew
      have hat' := hat
      obtain ⟨s, hs, hoffset, hused, haddr⟩ := hat
      have := (hp s hs).1
      exact ⟨o, _, .inr ⟨addr, hnew, hat', rfl⟩, hsound.size_bytes (by omega), haddr⟩
    · obtain ⟨o, b, hb, hrest⟩ := hrecords addr hold
      exact ⟨o, b, .inl hb, hrest⟩
  · rintro o b (hb | ⟨addr, -, -, rfl⟩)
    · exact hintact.resident o b hb
    · exact Region.bytes_size _ _ _

lemma Kept.withCopies (h : l.Kept c') (hp : c.trampolines.Packed c.iflash)
    (hsound : c'.iflash.Sound) {made : List ResidentCopy}
    (hmade : ∀ copy ∈ made, ∃ offset, Patcher.CopyAt c c' copy.iflash copy.size offset) :
    (l.withCopies c c' made).Kept c' := by
  obtain ⟨⟨hflash, hresident, howned, hapart⟩, ⟨hsections, hcopies, hrecords⟩, hintact⟩ := h
  refine ⟨⟨hflash, ?_, howned, hapart⟩, ⟨hsections, ?_, ?_⟩, hintact.flash, ?_⟩
  · rintro o b (hb | ⟨copy, -, hat, rfl⟩) i h1 h2
    · exact hresident o b hb i h1 h2
    · have := c'.iflash.size_bytes_le o copy.size
      exact hat.taken hp h1 (by omega)
  · intro copy hcopy
    rcases List.mem_append.1 hcopy with hnew | hold
    · obtain ⟨o, hat⟩ := hmade copy hnew
      exact ⟨o, _, .inr ⟨copy, hnew, hat, rfl⟩, hsound.size_bytes hat.2.1, hat.2.2.1⟩
    · obtain ⟨o, b, hb, hrest⟩ := hcopies copy hold
      exact ⟨o, b, .inl hb, hrest⟩
  · intro addr haddr
    obtain ⟨o, b, hb, hrest⟩ := hrecords addr haddr
    exact ⟨o, b, .inl hb, hrest⟩
  · rintro o b (hb | ⟨copy, -, -, rfl⟩)
    · exact hintact.resident o b hb
    · exact Region.bytes_size _ _ _

variable {config : LoaderConfig} {src : Source} {p : Job.Plan} {e : Context} {name : String}
  {a : Addr} {k : Nat}

/-- The blocks of an image are new. -/
lemma owned_new (hp : p.Settled config src c e) (hw : Job.Wrote p.space k e c')
    {i : Nat} (hi : (p.image name a).Owns i) : c.pool.used ≤ i ∧ i < c'.pool.used := by
  obtain ⟨hdatas, hbsss, -⟩ := hp.reserved.housed
  have hused := hw.pool.used_eq
  have hblock : ∀ {sections b}, Job.Housed c e sections b → b.ram.offset ≤ i →
      i < b.ram.offset + b.ram.len → c.pool.used ≤ i ∧ i < c'.pool.used := by
    intro sections b hb h1 h2
    have := hb.used_le
    have := hb.le_used
    omega
  obtain ⟨b, hb | hb, h1, h2⟩ := hi
  · obtain ⟨d, hd, rfl⟩ := Option.map_eq_some_iff.1 hb
    exact hblock (hdatas d hd) h1 h2
  · obtain ⟨d, hd, rfl⟩ := Option.map_eq_some_iff.1 hb
    exact hblock (hbsss d hd) h1 h2

lemma Kept.withImage (h : l.Kept c') (hold : l.Taken c.checkpoint)
    (hp : p.Settled config src c e) (hw : Job.Wrote p.space k e c') (hsound : c.xip.Sound)
    (hsound' : c'.xip.Sound) : (l.withImage c c' (p.image name a)).Kept c' := by
  obtain ⟨⟨hflash, hresident, howned, hapart⟩, ⟨hsections, hcopies, hrecords⟩, hintact⟩ := h
  have hat : ∀ {q o b}, q.cls.isFlash → StoredAt c c' q o b →
      o + q.size ≤ c'.xip.nextFree ∧ q.addr = c'.xip.address o ∧ b = c'.xip.bytes o q.size := by
    intro q o b hcls hq
    rw [StoredAt, if_pos hcls] at hq
    exact ⟨hq.2.1, hq.2.2.1, hq.2.2.2.symm⟩
  refine ⟨⟨?_, hresident, ?_, ?_⟩, ⟨?_, hcopies, hrecords⟩, ?_, hintact.resident⟩
  · rintro o b (hb | ⟨q, -, hcls, hq⟩)
    · exact hflash o b hb
    · obtain ⟨hle, -, rfl⟩ := hat hcls hq
      have := c'.xip.size_bytes_le o q.size
      change o + _ ≤ c'.xip.nextFree
      omega
  · refine List.forall_mem_cons.2 ⟨fun i hi => (owned_new hp hw hi).2, howned⟩
  · refine List.pairwise_cons.2 ⟨fun j hj i hi hji => ?_, hapart⟩
    have hlt : i < c.pool.used := hold.owned j hj i hji
    have := (owned_new hp hw hi).1
    omega
  · refine List.forall_mem_cons.2 ⟨fun q hq hcls => ?_, fun image hi q hq hcls => ?_⟩
    · obtain ⟨s, span, hspan, hqs, haddr⟩ := hp.flash_section hq hcls
      have hstored := hp.stored_flash hw hsound hspan hqs haddr hcls
      obtain ⟨hle, ha, hb⟩ := hat hcls hstored
      refine ⟨_, _, .inr ⟨q, hq, hcls, hstored⟩, ?_, ha⟩
      rw [hb]
      exact hsound'.size_bytes hle
    · obtain ⟨o, b, hb, hrest⟩ := hsections image hi q hq hcls
      exact ⟨o, b, .inl hb, hrest⟩
  · rintro o b (hb | ⟨q, -, hcls, hq⟩)
    · exact hintact.flash o b hb
    · obtain ⟨-, -, rfl⟩ := hat hcls hq
      exact Region.bytes_size _ _ _

end Live

end FlashLink
