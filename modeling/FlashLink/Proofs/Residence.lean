import FlashLink.Proofs.Footprints
import FlashLink.Proofs.Passes

/-!
What the residency pass writes. A copy goes to internal flash that was free, a trampoline to the free
rest of its sector, and a redirected pointer to the variables of the image that is patched. This holds
of every step, also of one that fails half way.
-/

namespace FlashLink

open Act

/-! ### Trampolines -/

namespace Trampolines

variable {t t' : Trampolines} {r r' : Region}

/-- The record is the last one of the current sector, and `addr` is where to call it. -/
def RecordAt (t : Trampolines) (r : Region) (addr : Addr) (offset : Nat) : Prop :=
  ∃ s ∈ t.sector, offset + Record.width = s.offset + t.used ∧ t.used ≤ s.len ∧
    addr = r.address offset ||| 1

/-- The last record is not free. -/
lemma RecordAt.taken {addr : Addr} {offset : Nat} (h : t.RecordAt r addr offset) (hp : t.Packed r)
    {i : Nat} (hi : i < offset + Record.width) : ¬ t.Free r.nextFree i := by
  obtain ⟨s, hs, hoffset, hused, -⟩ := h
  have hend := (hp s hs).1
  rintro (hfree | ⟨s', hs', hfree, -⟩)
  · omega
  · rw [hs] at hs'
    cases hs'
    omega

lemma sectorWithRoom_sat (hp : t.Packed r) (hsector : Record.width ≤ r.sector) :
    Sat sectorWithRoom (t, r)
      (fun s w => t.Advanced r w.1 w.2 ∧ w.1.Packed w.2 ∧ w.1.sector = some s ∧
        w.1.used + Record.width ≤ s.len)
      (fun _ w => t.Advanced r w.1 w.2) := by
  refine sectorWithRoom_rule (fun s hroom => ?current) fun _ => ?fresh
  case current =>
    obtain ⟨hs, hfits⟩ := Option.filter_eq_some_iff.1 hroom
    exact ⟨.refl t r, hp, hs, by simpa using hfits⟩
  case fresh =>
    refine (Region.reserveErased_grown r.sector r).mono ?_ fun _ _ h => .grown h
    rintro s r' ⟨hgrown, hs, hnext⟩
    have hlen : r.sector ≤ s.len := by
      rw [hs]
      exact le_alignUp _ (Nat.lt_of_lt_of_le (by decide) hsector)
    have hoffset : s.offset = r.nextFree := by rw [hs]; rfl
    have hpacked : Packed { t with sector := some s, used := 0 } r' := by
      rintro _ ⟨⟩
      exact ⟨by omega, by rw [hgrown.address_eq, hs]; rfl⟩
    refine ⟨⟨?_, ?_, fun _ => hpacked⟩, hpacked, rfl, ?_⟩
    · exact hgrown.mono fun _ h => .inl h
    · rintro i (hi | ⟨_, ⟨⟩, hi, -⟩)
      · exact .inl (Nat.le_trans hgrown.free_le hi)
      · exact .inl (by dsimp only at hi; omega)
    · dsimp only
      omega

/-- A trampoline is written to free flash, which is free no more. -/
lemma emit_sat (hp : t.Packed r) (hsector : Record.width ≤ r.sector) (target base : Addr) :
    Sat (emit target base) (t, r)
      (fun addr w => t.Advanced r w.1 w.2 ∧ ∃ offset, w.1.RecordAt w.2 addr offset ∧
        offset % wordSize = 0 ∧ w.2.bytes offset Record.width = Record.bytes target base)
      (fun _ w => t.Advanced r w.1 w.2) := by
  refine emit_rule ((sectorWithRoom_sat hp hsector).mono ?_ fun _ _ h => h)
  rintro s ⟨t₁, r₁⟩ ⟨hadvanced, hpacked, hs, hroom⟩
  dsimp only at hadvanced hpacked hs hroom ⊢
  obtain ⟨hend, haddr⟩ := hpacked s hs
  have hsize : (Record.bytes target base).size = Record.width := rfl
  have hwrites : Op.Sat (Region.write (s.offset + t₁.used) (Record.bytes target base)) r₁
      (fun _ => Region.Written (t₁.Free r₁.nextFree) r₁)
      (fun _ => Region.Written (t₁.Free r₁.nextFree) r₁) :=
    Region.write_written _ (fun i h1 h2 => .inr ⟨s, hs, h1, by omega⟩) r₁
  refine (hwrites.and (Region.write_stores _ _ r₁)).mono ?_ ?_
  · rintro _ r₂ ⟨hwritten, hword, hstored⟩
    refine ⟨hadvanced.trans ⟨hwritten.1, ?_, ?_⟩, ?_⟩
    · rintro i (hi | ⟨s', hs', hi, hlt⟩)
      · exact .inl (hwritten.free_eq ▸ hi)
      · exact .inr ⟨s', hs', by dsimp only at hi; omega, hlt⟩
    · intro hp' s' hs'
      rw [hwritten.free_eq, hwritten.address_eq]
      exact hp' s' hs'
    · refine ⟨s.offset + t₁.used, ⟨s, hs, Nat.add_assoc .., hroom, ?_⟩, hword, hstored⟩
      rw [haddr, hwritten.address_eq, Region.address, Region.address, UInt32.ofNat_add,
        UInt32.add_assoc]
  · rintro _ r₂ ⟨hwritten, -⟩
    refine hadvanced.trans ⟨hwritten.1, fun i hi => hwritten.free_eq ▸ hi, fun hp' s' hs' => ?_⟩
    rw [hwritten.free_eq, hwritten.address_eq]
    exact hp' s' hs'

end Trampolines

/-! ### Copies -/

namespace Patcher

variable {c c' : Context}

/-- Copying a section to internal flash only reads the flash it comes from. -/
structure Copied (k : Nat) (c c' : Context) : Prop where
  xip : Region.Written (fun _ => False) c.xip c'.xip
  iflash : Region.Touched k c.iflash c'.iflash
  others : c' = { c with xip := c'.xip, iflash := c'.iflash }

lemma Copied.trans {k : Nat} {c'' : Context} (h : Copied k c c') (h' : Copied k c' c'') :
    Copied k c c'' :=
  ⟨h.1.trans h'.1, h.2.trans h'.2, by rw [h'.3, h.3]⟩

lemma copyFrom_copied {k dest done : Nat} (hk : k ≤ dest + done) (src len fuel : Nat) (c : Context) :
    Op.Sat (copyFrom src dest len fuel done) c (fun _ c' => Copied k c c') (fun _ c' => Copied k c c') := by
  induction fuel generalizing done c with
  | zero => exact ⟨.refl _ _, .refl _ _, rfl⟩
  | succ fuel ih =>
    refine copyFrom_rule (fun _ => ⟨.refl _ _, .refl _ _, rfl⟩) fun _ => ?_
    refine (Region.read_written _ _ c.xip).mono (fun data r hread => ?_) fun _ _ h => ⟨h, .refl _ _, rfl⟩
    refine (Region.write_written (F := (k ≤ ·)) _ (fun _ h _ => by omega) c.iflash).mono
      (fun _ r' hwritten => ?_) fun _ _ h => ⟨hread, h, rfl⟩
    have hblock : Copied k c { c with xip := r, iflash := r' } := ⟨hread, hwritten, rfl⟩
    exact (ih (by omega) _).mono (fun _ _ h => hblock.trans h) fun _ _ h => hblock.trans h

/-- Internal flash that was free between the two contexts, at address `addr`. -/
def CopyAt (c c' : Context) (addr : Addr) (size offset : Nat) : Prop :=
  c.iflash.nextFree ≤ offset ∧ offset + size ≤ c'.iflash.nextFree ∧
    addr = c'.iflash.address offset ∧ c'.trampolines = c.trampolines

/-- The bytes of a copy are not free any more. -/
lemma CopyAt.taken {addr : Addr} {size offset : Nat} (h : CopyAt c c' addr size offset)
    (hp : c.trampolines.Packed c.iflash) {i : Nat} (h1 : offset ≤ i) (h2 : i < offset + size) :
    ¬ c'.trampolines.Free c'.iflash.nextFree i := by
  obtain ⟨hle, hend, -, ht⟩ := h
  rintro (hfree | ⟨s, hs, -, hfree⟩)
  · omega
  · rw [ht] at hs
    have := (hp s hs).1
    omega

/-- Making a section resident takes internal flash that was not allocated, and nothing else. -/
structure Resided (c c' : Context) : Prop where
  xip : Region.Written (fun _ => False) c.xip c'.xip
  iflash : Region.Grown c.iflash.nextFree c.iflash c'.iflash
  others : c' = { c with xip := c'.xip, iflash := c'.iflash }

lemma Resided.advanced (h : Resided c c') : Context.Advanced (fun _ => False) c c' := by
  refine ⟨h.xip.1.mono fun _ h => h.elim, ?_, ?_⟩
  · rw [h.others]
    exact .grown h.iflash
  · rw [h.others]
    exact .refl _ _

/-- A copy goes to flash that was free. -/
lemma copySection_sat (hsector : 0 < c.iflash.sector) (s : PlacedSection) :
    Sat (copySection s) c (fun dest c' => Resided c c' ∧ CopyAt c c' dest.addr s.size dest.offset)
      (fun _ c' => Resided c c') := by
  have hjoin : ∀ {r c'}, Region.Grown c.iflash.nextFree c.iflash r →
      Copied c.iflash.nextFree { c with iflash := r } c' → Resided c c' :=
    fun hgrown hcopied => ⟨hcopied.xip, hgrown.trans hcopied.iflash.1, hcopied.others⟩
  refine copySection_rule (fun _ => ⟨.refl _ _, .refl _ _, rfl⟩) fun src _ => ?_
  refine (Region.reserveErased_grown s.size c.iflash).mono ?_ fun _ r h => ⟨.refl _ _, h, rfl⟩
  rintro dest r ⟨hgrown, hdest, hnext⟩
  have hoffset : c.iflash.nextFree ≤ dest.offset := by rw [hdest]; exact Nat.le_refl _
  refine (copyFrom_copied hoffset _ _ _ _).mono (fun _ c' hcopied => ?_) fun _ _ h => hjoin hgrown h
  refine ⟨hjoin hgrown hcopied, hoffset, ?_, ?_, by rw [hcopied.others]⟩
  · have hlen : s.size ≤ dest.len := by
      rw [hdest]
      exact le_alignUp _ hsector
    rw [hcopied.iflash.free_eq, hnext]
    have : dest.offset = c.iflash.nextFree := by rw [hdest]; rfl
    omega
  · rw [hcopied.iflash.address_eq, hgrown.address_eq, hdest]
    rfl

/-! ### Steps -/

/-- The places of the pool that patching an image may redirect: its variables. -/
def Patched (i : Image) (k : Nat) : Prop := ∃ b ∈ i.data, b.offset ≤ k ∧ k < b.offset + b.len

variable {κ : Type}

/-- What a step that succeeds has done: at most one copy, and at most one trampoline. -/
structure Stepped (s s' : State κ) : Prop where
  advanced : Context.Advanced (Patched s.patcher.image) s.context s'.context
  image_eq : s'.patcher.image = s.patcher.image
  copies : s'.patcher.report.copies = s.patcher.report.copies ∨ ∃ copy offset,
    s'.patcher.report.copies = s.patcher.report.copies ++ [copy] ∧
      CopyAt s.context s'.context copy.iflash copy.size offset
  made : s'.patcher.made = s.patcher.made ∨ ∃ target addr offset,
    s'.patcher.made = (target, addr) :: s.patcher.made ∧
      s'.context.trampolines.RecordAt s'.context.iflash addr offset

/-- What a step that fails has done. -/
structure Stopped (s s' : State κ) : Prop where
  advanced : Context.Advanced (Patched s.patcher.image) s.context s'.context
  patcher_eq : s'.patcher = s.patcher

lemma Stepped.refl (s : State κ) : Stepped s s := ⟨.refl _ _, rfl, .inl rfl, .inl rfl⟩

lemma findWord_lt {t : PatchTarget} {data : Bytes} {left i j : Nat} {word : UInt32} {addr : Addr}
    (h : findWord t data left i = some (j, word, addr)) : i ≤ j ∧ j < i + left := by
  induction left generalizing i with
  | zero => cases h
  | succ left ih =>
    unfold findWord at h
    dsimp only at h
    split at h
    · cases h
      omega
    · have := ih h
      omega

variable {s : State κ}

lemma trampolineTo_sat (hp : s.context.trampolines.Packed s.context.iflash)
    (hsector : Record.width ≤ s.context.iflash.sector) (target base : Addr) :
    Sat (trampolineTo target base) s
      (fun _ s' => Stepped s s' ∧ s'.patcher.report.copies = s.patcher.report.copies)
      (fun _ s' => Stopped s s') := by
  refine trampolineTo_rule (fun _ _ => ⟨.refl s, rfl⟩) fun _ => sat_zoom.2 ?_
  refine (Trampolines.emit_sat hp hsector target base).mono ?_ fun _ w h => ⟨⟨.refl _ _, h, .refl _ _⟩, rfl⟩
  rintro addr w ⟨hadvanced, offset, hrecord, -⟩
  exact ⟨⟨⟨.refl _ _, hadvanced, .refl _ _⟩, rfl, .inl rfl, .inr ⟨target, addr, offset, rfl, hrecord⟩⟩, rfl⟩

lemma patch_sat (hp : s.context.trampolines.Packed s.context.iflash)
    (hsector : Record.width ≤ s.context.iflash.sector) (t : PatchTarget) (cursor : Nat) :
    Sat (patch t cursor) s (fun _ s' => Stepped s s') (fun _ s' => Stopped s s') := by
  refine patch_rule (fun _ => .refl s) (fun _ _ _ => .refl s) fun block i word target hb hw => ?_
  refine (trampolineTo_sat hp hsector target _).mono ?_ fun _ _ h => h
  rintro addr s' ⟨⟨hadvanced, himage, -, hmade⟩, hcopies⟩
  refine ⟨?_, himage, .inl hcopies, hmade⟩
  -- the word lies in the block
  have hin := findWord_lt hw
  have hchanged : Pool.Changed (Patched s.patcher.image) s'.context.pool
      (s'.context.pool.overwrite block (4 * i) (Bytes.ofU32 addr)) := by
    unfold Pool.overwrite
    refine Pool.changed_overwrite fun k h1 h2 => ⟨block, hb, by omega, ?_⟩
    rw [Bytes.size_ofU32] at h2
    omega
  exact ⟨hadvanced.xip, hadvanced.resident, hadvanced.pool.trans
    (hchanged.advanced fun _ h => .inr h)⟩

lemma copy_sat (hsector : 0 < s.context.iflash.sector) (index : Nat) :
    Sat (copy index) s (fun _ s' => Stepped s s') (fun _ s' => Stopped s s') := by
  refine copy_rule (fun _ => .refl s) fun placed _ => (copySection_sat hsector placed).mono ?_ ?_
  · rintro dest c ⟨hresided, hcopy⟩
    exact ⟨hresided.advanced.mono fun _ h => h.elim, rfl, .inr ⟨_, dest.offset, rfl, hcopy⟩, .inl rfl⟩
  · exact fun _ c h => ⟨h.advanced.mono fun _ h => h.elim, rfl⟩

variable [CacheControl κ]

/-- **A step** writes nothing but free flash and the variables of its own image. -/
lemma step_sat (hp : s.context.trampolines.Packed s.context.iflash)
    (hsector : Record.width ≤ s.context.iflash.sector) :
    Sat step s (fun _ s' => Stepped s s') (fun _ s' => Stopped s s') := by
  have hadvance : Sat (advance s.patcher.stage) s (fun _ s' => Stepped s s') (fun _ s' => Stopped s s') := by
    rcases s.patcher.stage with next | index | ⟨t, cursor⟩ | _
    · refine scan_rule (fun _ _ => .refl s) fun _ => (finish_sat s).mono ?_ fun _ _ h => h.elim
      rintro _ s' ⟨h1, h2⟩
      exact ⟨h2 ▸ .refl _ _, by rw [h1], .inl (by rw [h1]), .inl (by rw [h1])⟩
    · exact copy_sat (Nat.lt_of_lt_of_le (by decide) hsector) index
    · exact patch_sat hp hsector t cursor
    · exact sat_pure.2 (.refl s)
  exact step_rule (hadvance.mono (fun _ _ h => ⟨h.1, h.2, h.3, h.4⟩) fun _ _ h => h)

end Patcher

end FlashLink
