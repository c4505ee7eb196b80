import FlashLink.Proofs.Legality
import FlashLink.Proofs.Rollback

/-!
Contexts that nothing tells apart but what lies in flash that nobody has erased. A load erases the spans
that it streams to, a residency pass those that it copies to, and trampolines go to sectors that have been
erased, so both do the same over either context, and the places that they write agree from then on.
-/

namespace FlashLink

open Act

/-! ### Regions -/

namespace Region.Twin

variable {F : Nat → Prop} {r s : Region}

/-- The bump offset has moved on in both. -/
lemma movedTo (h : r.Twin F s) (n : Nat) : { r with nextFree := n }.Twin F { s with nextFree := n } := by
  refine ⟨?_, h.unarmed, h.same⟩
  rw [h.eq]
  rfl

/-- Both reserve the same span, or have no room for it. -/
lemma reserve_sim (h : r.Twin F s) (size : Nat) :
    Sim (reserve size) (reserve size) r s
      (fun span r' s' => r'.Twin F s' ∧ span = r.nextSpan size ∧ span.len ≤ r.remaining ∧
        r' = { r with nextFree := r.nextFree + span.len })
      (fun _ r' s' => r' = r ∧ s' = s) := by
  have hname := h.name_eq
  have hpartition := h.partition_eq
  have hfree := h.free_eq
  have hsector := h.sector_eq
  obtain ⟨name, device, partition, free⟩ := r
  obtain ⟨name', device', partition', free'⟩ := s
  dsimp only at hname hpartition hfree hsector
  subst hname hpartition hfree
  unfold Sim reserve remaining address sector
  dsimp only
  rw [hsector]
  split_ifs with h1 h2
  · exact ⟨rfl, rfl, rfl⟩
  · exact ⟨rfl, rfl, rfl⟩
  · exact ⟨rfl, h.movedTo _, rfl, Nat.not_lt.1 h2, rfl⟩

/-- Regions that agree on all that is allocated agree on what they reserve and erase next. -/
lemma reserveErased_sim (hr : r.Sound) (h : r.Twin (r.nextFree ≤ ·) s) (size : Nat) :
    Sim (reserveErased size) (reserveErased size) r s
      (fun span r' s' => r'.Twin (r'.nextFree ≤ ·) s' ∧ r'.nextFree = span.offset + span.len ∧
        Grown r.nextFree r r' ∧ span = r.nextSpan size)
      (fun _ r' s' => r' = r ∧ s' = s) := by
  unfold reserveErased
  refine Sim.bind (h.reserve_sim size) ?_ fun _ _ _ h => h
  rintro _ _ s' ⟨htwin, rfl, hroom, rfl⟩
  refine Sim.bind (sim_ofOp.2 ((htwin.erase_sim (r.nextSpan size)).and_sat
    (erase_reserved hr h.unarmed hroom))) ?_ fun _ _ _ h => h.2.elim
  rintro _ r' s' ⟨htwin', hgrown, hfree, -⟩
  refine sim_pure.2 ⟨htwin'.mono fun k hk _ => ?_, hfree, hgrown, rfl⟩
  rw [hfree]
  by_contra hlt
  exact hk.2 ⟨hk.1, Nat.not_le.1 hlt⟩

/-- Below the bump offset both take the same bytes or refuse them. -/
lemma write_below (h : r.Twin (r.nextFree ≤ ·) s) {offset : Nat} {data : Bytes}
    (hle : offset + data.size ≤ r.nextFree) :
    Op.Sim (write offset data) (write offset data) r s
      (fun _ r' s' => r'.Twin (r'.nextFree ≤ ·) s' ∧ Touched 0 r r')
      (fun _ r' s' => r'.Twin (r'.nextFree ≤ ·) s' ∧ Touched 0 r r') := by
  have hsim : Op.Sim (write offset data) (write offset data) r s _ _ :=
    h.write_sim fun _ k h1 h2 hk => by omega
  refine (hsim.and_sat (write_written (F := (0 ≤ ·)) data (fun k _ _ => Nat.zero_le k) r)).mono ?_ ?_
  all_goals
    rintro _ r' s' ⟨htwin, hwritten⟩
    exact ⟨by rw [hwritten.free_eq]; exact htwin, hwritten⟩

end Region.Twin

/-! ### Trampolines -/

namespace Trampolines

variable {t : Trampolines} {r s : Region}

/-- The same records have been made, in regions that agree on all that is allocated. -/
def Mirror (w w' : Trampolines × Region) : Prop := w'.1 = w.1 ∧ w.2.Twin (w.2.nextFree ≤ ·) w'.2

lemma sectorWithRoom_sim (hr : r.Sound) (h : r.Twin (r.nextFree ≤ ·) s) :
    Sim sectorWithRoom sectorWithRoom (t, r) (t, s) (fun _ => Mirror) (fun _ => Mirror) := by
  unfold sectorWithRoom
  refine Sim.get_bind ?_
  dsimp only
  rcases t.room? with _ | span <;> dsimp only
  · refine Sim.bind (S := fun _ => Mirror) (G := fun _ => Mirror) ?_ ?_ fun _ _ _ h => h
    · rw [sim_zoom]
      refine Sim.get_bind ?_
      change Sim (Region.reserveErased r.sector) (Region.reserveErased s.sector) r s _ _
      rw [show s.sector = r.sector from h.sector_eq]
      refine (h.reserveErased_sim hr r.sector).mono (fun _ _ _ h' => ⟨rfl, h'.1⟩) ?_
      rintro _ _ _ ⟨rfl, rfl⟩
      exact ⟨rfl, h⟩
    · rintro span ⟨t1, r1⟩ ⟨t2, r2⟩ ⟨rfl, h'⟩
      exact Sim.note_bind (Sim.modify_bind (sim_pure.2 ⟨rfl, h'⟩))
  · exact sim_pure.2 ⟨rfl, h⟩

/-- The same record is made, or none. -/
lemma emit_sim (hr : r.Sound) (hp : t.Packed r) (hsector : Record.width ≤ r.sector)
    (h : r.Twin (r.nextFree ≤ ·) s) (target base : Addr) :
    Sim (emit target base) (emit target base) (t, r) (t, s) (fun _ => Mirror) (fun _ => Mirror) := by
  unfold emit
  refine Sim.bind ((sectorWithRoom_sim hr h).and_sat (sectorWithRoom_sat hp hsector)) ?_
    fun _ _ _ h => h.1
  rintro span ⟨t1, r1⟩ ⟨t2, r2⟩ ⟨⟨rfl, h1⟩, -, hpacked, hs, hroom⟩
  dsimp only at h1 hpacked hs hroom
  refine Sim.get_bind ?_
  dsimp only
  refine Sim.bind (S := fun _ => Mirror) (G := fun _ => Mirror) ?_ ?_ fun _ _ _ h => h
  · rw [sim_zoom, sim_ofOp]
    have hend := (hpacked span hs).1
    have hsize : (Record.bytes target base).size = Record.width := rfl
    exact (h1.write_below (by omega)).mono (fun _ _ _ h' => ⟨rfl, h'.1⟩) fun _ _ _ h' => ⟨rfl, h'.1⟩
  · rintro _ ⟨t3, r3⟩ ⟨t4, r4⟩ ⟨rfl, h3⟩
    exact Sim.modify_bind (Sim.note_bind (sim_pure.2 ⟨rfl, h3⟩))

end Trampolines

/-! ### Contexts -/

/-- The contexts agree, but for flash at the offsets `F` and internal flash that is not allocated. -/
structure Context.Mirror (F : Nat → Prop) (c e : Context) : Prop where
  xip : c.xip.Twin F e.xip
  iflash : c.iflash.Twin (c.iflash.nextFree ≤ ·) e.iflash
  pool_eq : e.pool = c.pool
  trampolines_eq : e.trampolines = c.trampolines
  ready : c.Ready

/-- The code and the constants of the image are allocated, and not at the offsets `F`. -/
def Image.ClearOf (i : Image) (F : Nat → Prop) (c : Context) : Prop :=
  ∀ q ∈ i.sections, q.cls.isFlash → ∃ offset, q.addr = c.xip.address offset ∧
    offset + q.size ≤ c.xip.nextFree ∧ ∀ k, offset ≤ k → k < offset + q.size → ¬ F k

lemma Image.ClearOf.advanced {i : Image} {F F' K : Nat → Prop} {c c' : Context} (h : i.ClearOf F c)
    (hF : ∀ k, F' k → F k) (hc : Context.Advanced K c c') : i.ClearOf F' c' := by
  intro q hq hcls
  obtain ⟨offset, haddr, hle, hclear⟩ := h q hq hcls
  have hfree := hc.xip.free_le
  exact ⟨offset, by rw [hc.sameBoard.xip_address, haddr], by omega,
    fun k h1 h2 hk => hclear k h1 h2 (hF k hk)⟩

/-- A section is found where it is. -/
lemma Image.ClearOf.found {i : Image} {F : Nat → Prop} {c : Context} (h : i.ClearOf F c)
    (hsound : c.xip.Sound) (hsize : c.xip.partition.size ≤ UInt32.size) {q : PlacedSection}
    (hq : q ∈ i.sections) (hcls : q.cls.isFlash) {src : Nat}
    (hsrc : c.xip.offsetOf? q.addr = some src) {k : Nat} (h1 : src ≤ k) (h2 : k < src + q.size) :
    ¬ F k := by
  obtain ⟨offset, haddr, hle, hclear⟩ := h q hq hcls
  have hfree := hsound.free_le
  obtain rfl : src = offset := by
    unfold Region.offsetOf? at hsrc
    split_ifs at hsrc
    obtain rfl := Option.some.inj hsrc
    rw [haddr, Region.address, UInt32.add_comm, UInt32.add_sub_cancel, UInt32.toNat_ofNat',
      Nat.mod_eq_of_lt (by rw [UInt32.size] at hsize; omega)]
  exact hclear k h1 h2

namespace Context.Mirror

variable {F : Nat → Prop} {c e : Context}

/-- Reading leaves the regions twins. -/
lemma read (h : Mirror F c e) {r r' : Region} (hr : r.Twin F r')
    (hwritten : c.xip.Written (fun _ => False) r) : Mirror F { c with xip := r } { e with xip := r' } :=
  ⟨hr, h.iflash, h.pool_eq, h.trampolines_eq, hwritten.sound h.ready.1, h.ready.2, h.ready.3, h.ready.4⟩

/-- Work on internal flash that goes alike. -/
lemma withIflash (h : Mirror F c e) {r r' : Region} (hr : r.Twin (r.nextFree ≤ ·) r') {k : Nat}
    (hgrown : Region.Grown k c.iflash r) : Mirror F { c with iflash := r } { e with iflash := r' } := by
  obtain ⟨hxip, hiflash, hroom, hpacked⟩ := h.ready
  refine ⟨h.xip, hr, h.pool_eq, h.trampolines_eq, hxip, hgrown.sound hiflash,
    hgrown.sector_eq ▸ hroom, fun s hs => ?_⟩
  rw [hgrown.address_eq]
  exact ⟨Nat.le_trans (hpacked s hs).1 hgrown.free_le, (hpacked s hs).2⟩

/-- A block is read alike. -/
lemma readBlock_sim (h : Mirror F c e) {offset n : Nat} (hF : ∀ k, offset ≤ k → k < offset + n → ¬ F k) :
    Op.Sim (Op.zoom Context.xipPart (Region.read offset n)) (Op.zoom Context.xipPart (Region.read offset n)) c e
      (fun data c' e' => Mirror F c' e' ∧ c'.iflash = c.iflash ∧ data.size ≤ n) fun _ => Mirror F := by
  rw [Op.sim_zoom]
  have hread := ((h.xip.read_sim hF).and_sat (Region.read_written (F := fun _ => False) _ _ c.xip)).and_sat
    (Region.read_sat _ _ c.xip)
  refine hread.mono ?_ fun _ _ _ h' => h.read h'.1.1 h'.1.2
  rintro data r r' ⟨⟨htwin, hwritten⟩, rfl, -⟩
  refine ⟨h.read htwin hwritten, rfl, ?_⟩
  rw [Region.bytes, Bytes.size_slice]
  exact Nat.min_le_left ..

/-- A block is written alike to what has been handed out. -/
lemma writeBlock_sim (h : Mirror F c e) {offset : Nat} {data : Bytes}
    (hle : offset + data.size ≤ c.iflash.nextFree) :
    Op.Sim (Op.zoom Context.iflashPart (Region.write offset data))
      (Op.zoom Context.iflashPart (Region.write offset data)) c e
      (fun _ c' e' => Mirror F c' e' ∧ c'.iflash.nextFree = c.iflash.nextFree) fun _ => Mirror F := by
  rw [Op.sim_zoom]
  refine (h.iflash.write_below hle).mono ?_ ?_
  · rintro _ r r' ⟨htwin, htouched⟩
    exact ⟨h.withIflash htwin htouched.1, htouched.free_eq⟩
  · rintro _ r r' ⟨htwin, htouched⟩
    exact h.withIflash htwin htouched.1

/-- What is copied is read alike, and written to where the contexts agree. -/
lemma copyFrom_sim (h : Mirror F c e) {src dest len size : Nat} (hlen : len ≤ size)
    (hword : size % wordSize = 0) (hF : ∀ k, src ≤ k → k < src + len → ¬ F k)
    (hdest : dest + size ≤ c.iflash.nextFree)
    (fuel done : Nat) (hdone : done % wordSize = 0 ∨ len ≤ done) :
    Op.Sim (Patcher.copyFrom src dest len fuel done) (Patcher.copyFrom src dest len fuel done) c e
      (fun _ => Mirror F) (fun _ => Mirror F) := by
  induction fuel generalizing done c e with
  | zero => exact Op.sim_pure.2 h
  | succ fuel ih =>
    unfold Patcher.copyFrom
    split_ifs with hover
    · exact Op.sim_pure.2 h
    have hdone := hdone.resolve_right hover
    generalize hcount : min (len - done) copyBlock = count
    refine (h.readBlock_sim fun k h1 h2 => hF k (by omega) (by omega)).bind ?_ fun _ _ _ h => h
    rintro data c' e' ⟨h', hiflash, hsize⟩
    refine Op.Sim.get_bind ?_
    rw [h'.iflash.reported_eq]
    -- whole words from a word boundary in the span on stay in the span
    have halign : alignUp count wordSize ≤ size - done := by
      refine alignUp_le (by decide) (Nat.dvd_of_mod_eq_zero ?_) (by omega)
      rw [wordSize] at *
      omega
    have hle := le_alignUp count (a := wordSize) (by decide)
    have hwrite : dest + done + (data ++ Array.replicate (alignUp count wordSize - count)
        c'.iflash.device.reported).size ≤ c'.iflash.nextFree := by
      rw [Array.size_append, Array.size_replicate, hiflash]
      omega
    refine (h'.writeBlock_sim hwrite).bind ?_ fun _ _ _ h => h
    rintro _ c'' e'' ⟨h'', hfree⟩
    refine ih h'' (by rw [hfree, hiflash]; exact hdest) _ ?_
    have hblock : copyBlock % wordSize = 0 := rfl
    rw [copyBlock] at *
    rw [wordSize] at *
    omega

/-- A section is copied in both, or in neither. -/
lemma copySection_sim (h : Mirror F c e) {image : Image} (himage : image.ClearOf F c)
    (hsize : c.xip.partition.size ≤ UInt32.size) {q : PlacedSection} (hq : q ∈ image.sections)
    (hcls : q.cls.isFlash) :
    Sim (Patcher.copySection q) (Patcher.copySection q) c e (fun _ => Mirror F) fun _ => Mirror F := by
  unfold Patcher.copySection
  refine Sim.get_bind ?_
  have hoffset : e.xip.offsetOf? q.addr = c.xip.offsetOf? q.addr := by
    rw [Region.offsetOf?, Region.offsetOf?, h.xip.partition_eq]
  rw [hoffset]
  rcases hsrc : c.xip.offsetOf? q.addr with _ | src <;> dsimp only
  · exact sim_throw.2 h
  have hF : ∀ k, src ≤ k → k < src + q.size → ¬ F k :=
    fun k => himage.found h.ready.xip_sound hsize hq hcls hsrc
  have hiflash := h.ready.iflash_sound
  refine Sim.bind (S := fun dest c' e' => Mirror F c' e' ∧ dest = c.iflash.nextSpan q.size ∧
      c'.iflash.nextFree = dest.offset + dest.len) (G := fun _ => Mirror F) ?_ ?_ fun _ _ _ h => h
  · rw [sim_zoom]
    refine (h.iflash.reserveErased_sim hiflash q.size).mono ?_ ?_
    · rintro dest r r' ⟨htwin, hfree, hgrown, hdest⟩
      exact ⟨h.withIflash htwin hgrown, hdest, hfree⟩
    · rintro _ _ _ ⟨rfl, rfl⟩
      exact h
  · rintro _ c' e' ⟨h', rfl, hfree⟩
    have hword := hiflash.word_dvd_sector
    refine Sim.bind (sim_ofOp.2 (h'.copyFrom_sim ?_ ?_ hF (Nat.le_of_eq hfree.symm) _ _
      (.inl rfl))) ?_ fun _ _ _ h => h
    · exact le_alignUp _ hiflash.sector_pos
    · exact Nat.mod_eq_zero_of_dvd (Nat.dvd_trans hword (dvd_alignUp _ _ hiflash.sector_pos))
    · exact fun _ _ _ h'' => Sim.note_bind (sim_pure.2 h'')

end Context.Mirror

end FlashLink
