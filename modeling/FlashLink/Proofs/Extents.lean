import FlashLink.Proofs.Histories

/-!
What a resident module occupies: whole sectors of execute-in-place flash for its sections, internal
flash for their copies, and blocks of the pool for its variables. A load and a pass place all this above
the bump offsets they find and below those they leave, one extent apart from the other.
-/

namespace FlashLink

open Act

/-! ### Spans -/

/-- Spans, each an offset and a length, between two offsets and with no place in common. -/
structure Separate (lo hi : Nat) (spans : List (Nat × Nat)) : Prop where
  between : ∀ s ∈ spans, lo ≤ s.1 ∧ s.1 + s.2 ≤ hi
  disjoint : spans.Pairwise fun s t => s.1 + s.2 ≤ t.1 ∨ t.1 + t.2 ≤ s.1

namespace Separate

variable {lo mid hi lo' hi' : Nat} {spans spans' : List (Nat × Nat)}

lemma nil (lo hi : Nat) : Separate lo hi [] := ⟨nofun, .nil⟩

lemma mono (h : Separate lo hi spans) (hlo : lo' ≤ lo) (hhi : hi ≤ hi') : Separate lo' hi' spans :=
  ⟨fun s hs => ⟨Nat.le_trans hlo (h.1 s hs).1, Nat.le_trans (h.1 s hs).2 hhi⟩, h.2⟩

/-- What lies below and what lies above. -/
lemma append (h : Separate lo mid spans) (h' : Separate mid hi spans') (hlo : lo ≤ mid) (hhi : mid ≤ hi) :
    Separate lo hi (spans ++ spans') := by
  refine ⟨fun s hs => ?_, List.pairwise_append.2 ⟨h.2, h'.2, fun s hs t ht => .inl ?_⟩⟩
  · rcases List.mem_append.1 hs with hs | hs
    · exact (h.mono (Nat.le_refl _) hhi).1 s hs
    · exact (h'.mono hlo (Nat.le_refl _)).1 s hs
  · exact Nat.le_trans (h.1 s hs).2 (h'.1 t ht).1

lemma singleton {s : Nat × Nat} (hlo : lo ≤ s.1) (hhi : s.1 + s.2 ≤ hi) : Separate lo hi [s] := by
  refine ⟨fun t ht => ?_, List.pairwise_singleton _ _⟩
  rw [List.mem_singleton.1 ht]
  exact ⟨hlo, hhi⟩

end Separate

namespace Region

/-- Extents, each an address and a length, that lie apart between two offsets of the region. -/
def Holds (r : Region) (lo hi : Nat) (extents : List (Addr × Nat)) : Prop :=
  ∃ spans, extents = spans.map (fun s => (r.address s.1, s.2)) ∧ Separate lo hi spans

variable {r r' : Region} {lo mid hi lo' hi' : Nat} {extents extents' : List (Addr × Nat)}

lemma Holds.nil (r : Region) (lo hi : Nat) : r.Holds lo hi [] := ⟨[], rfl, .nil lo hi⟩

lemma Holds.mono (h : r.Holds lo hi extents) (hpartition : r'.partition = r.partition)
    (hlo : lo' ≤ lo) (hhi : hi ≤ hi') : r'.Holds lo' hi' extents := by
  obtain ⟨spans, rfl, hspans⟩ := h
  exact ⟨spans, by simp only [address, hpartition], hspans.mono hlo hhi⟩

lemma Holds.append (h : r.Holds lo mid extents) (h' : r.Holds mid hi extents') (hlo : lo ≤ mid)
    (hhi : mid ≤ hi) : r.Holds lo hi (extents ++ extents') := by
  obtain ⟨spans, rfl, hspans⟩ := h
  obtain ⟨spans', rfl, hspans'⟩ := h'
  exact ⟨spans ++ spans', by rw [List.map_append], hspans.append hspans' hlo hhi⟩

/-- Spans that follow one another lie apart. -/
lemma Spans.holds {flash : List (SectionInfo × FlashSpan)} (h : r.Spans lo hi flash) :
    r.Holds lo hi (flash.map fun q => (q.2.addr, q.2.len)) := by
  induction flash generalizing lo with
  | nil => exact .nil _ _ _
  | cons q rest ih =>
    obtain ⟨hspan, hrest⟩ := h
    have hfirst : r.Holds lo (lo + q.2.len) [(q.2.addr, q.2.len)] :=
      ⟨[(lo, q.2.len)], by rw [hspan]; rfl, .singleton (Nat.le_refl _) (Nat.le_refl _)⟩
    exact hfirst.append (ih hrest) (Nat.le_add_right _ _) hrest.le

end Region

/-! ### Modules -/

namespace Image

/-- The sectors that the flash sections of the image take. -/
def flashExtents (i : Image) (sector : Nat) : List (Addr × Nat) :=
  (i.sections.filter (·.cls.isFlash)).map fun q => (q.addr, alignUp q.size sector)

/-- The blocks of the variables of the image. -/
def blocks (i : Image) : List RamBlock := i.data.toList ++ i.bss.toList

/-- All of the image was allocated between the two contexts. -/
structure Between (i : Image) (c c' : Context) : Prop where
  flash : c.xip.Holds c.xip.nextFree c'.xip.nextFree (i.flashExtents c.xip.sector)
  pool : Separate c.pool.used c'.pool.used (i.blocks.map fun b => (b.offset, b.len))

end Image

/-- Where a copy is. -/
def ResidentCopy.extent (c : ResidentCopy) : Addr × Nat := (c.iflash, c.size)

namespace Job.Plan.Settled

variable {config : LoaderConfig} {src : Source} {c c' e : Context} {p : Plan} {name : String} {a : Addr}

/-- The flash sections of the image take the spans that were reserved for them, in order. -/
lemma flashExtents_eq (h : p.Settled config src c e) :
    (p.image name a).flashExtents c.xip.sector =
      p.space.flash.map fun q => (q.2.addr, q.2.len) := by
  have hplaced : ∀ q ∈ p.space.flash,
      (p.space.placement p.object).get? q.1.index = some q.2.addr ∧
        q.2.len = alignUp q.1.size c.xip.sector := by
    intro q hq
    have hmem : q.1 ∈ p.object.inFlash := h.reserved.sections_eq ▸ List.mem_map_of_mem hq
    refine ⟨h.reserved.get?_spot h.inspected.describes (List.mem_filter.1 hmem).1
      (List.mem_append_left _ (List.mem_map.2 ⟨q, hq, rfl⟩)), ?_⟩
    rw [(h.reserved.spans.mem hq).2.2]
  have hsections := h.reserved.sections_eq
  change ((placedSections p.object _).filter _).map _ = _
  unfold placedSections
  unfold Object.inFlash at hsections
  generalize p.object.sections.toList = l at hsections
  generalize p.space.flash = flash at hplaced hsections
  change flash.map (·.1) = l.filter (fun s => s.cls.any SectionClass.isFlash) at hsections
  induction l generalizing flash with
  | nil =>
    obtain rfl := List.map_eq_nil_iff.1 hsections
    rfl
  | cons s rest ih =>
    by_cases hs : s.cls.any SectionClass.isFlash
    · rw [List.filter_cons, if_pos hs] at hsections
      obtain ⟨q, flash, rfl, rfl, hrest⟩ := List.map_eq_cons_iff.1 hsections
      obtain ⟨hget, hlen⟩ := hplaced q (.head _)
      obtain ⟨cls, hcls, hflash⟩ := (Option.any_eq_true _ _).1 hs
      rw [List.filterMap_cons_some (b := ⟨q.1.index, q.1.name, cls, q.1.size, q.2.addr⟩)
        (by simp only [hcls, hget]), List.filter_cons, if_pos hflash, List.map_cons, List.map_cons,
        ih flash (fun q hq => hplaced q (.tail _ hq)) hrest, hlen]
    · rw [List.filter_cons, if_neg hs] at hsections
      have hrest := ih flash hplaced hsections
      rcases hcls : s.cls with _ | cls
      · rw [List.filterMap_cons_none (by simp only [hcls])]
        exact hrest
      · rw [hcls, Option.any_some] at hs
        rcases hget : (p.space.placement p.object).get? s.index with _ | addr
        · rw [List.filterMap_cons_none (by simp only [hcls, hget])]
          exact hrest
        · rw [List.filterMap_cons_some (b := ⟨s.index, s.name, cls, s.size, addr⟩)
            (by simp only [hcls, hget]), List.filter_cons, if_neg hs]
          exact hrest

/-- **All of a loaded image** was allocated by the load. -/
lemma image_between (h : p.Settled config src c e) {k : Nat} (hw : Wrote p.space k e c') :
    (p.image name a).Between c c' := by
  refine ⟨?_, ?_⟩
  · rw [h.flashExtents_eq, hw.xip.free_eq]
    exact h.reserved.spans.holds
  · rw [hw.pool.used_eq]
    obtain ⟨hdata, hbss, horder⟩ := h.reserved.housed
    have hblocks : (p.image name a).blocks =
        (p.space.data.map (·.ram)).toList ++ (p.space.bss.map (·.ram)).toList := rfl
    rw [hblocks]
    rcases hd : p.space.data with _ | d <;> rcases hb : p.space.bss with _ | b
    · exact .nil _ _
    · exact .singleton (hbss b hb).used_le (hbss b hb).le_used
    · exact .singleton (hdata d hd).used_le (hdata d hd).le_used
    · have hlo : c.pool.used ≤ d.ram.offset + d.ram.len :=
        Nat.le_trans (hdata d hd).used_le (Nat.le_add_right _ _)
      have hhi : d.ram.offset + d.ram.len ≤ e.pool.used :=
        Nat.le_trans (horder d hd b hb) (Nat.le_trans (Nat.le_add_right _ _) (hbss b hb).le_used)
      have hd : Separate c.pool.used (d.ram.offset + d.ram.len) [(d.ram.offset, d.ram.len)] :=
        .singleton (hdata d hd).used_le (Nat.le_refl _)
      have hb : Separate (d.ram.offset + d.ram.len) e.pool.used [(b.ram.offset, b.ram.len)] :=
        .singleton (horder d ‹_› b hb) (hbss b hb).le_used
      exact hd.append hb hlo hhi

end Job.Plan.Settled

/-! ### Passes -/

namespace Patcher

variable {κ : Type} {s s' : State κ} {lo : Nat}

/-- The copies made so far are separate, and lie from `lo` on. -/
def Separated (lo : Nat) (s : State κ) : Prop :=
  s.context.iflash.Holds lo s.context.iflash.nextFree (s.patcher.report.copies.map (·.extent))

/-- A copy goes above the bump offset. -/
lemma Separated.step (h : Separated lo s) (hlo : lo ≤ s.context.iflash.nextFree)
    (hs : Stepped s s') : Separated lo s' := by
  have hedited := hs.advanced.resident.edited
  have hbefore := h.mono hedited.partition_eq (Nat.le_refl _) (Nat.le_refl _)
  rcases hs.copies with heq | ⟨copy, offset, heq, hle, hend, haddr, -⟩
  · unfold Separated
    rw [heq]
    exact hbefore.mono rfl (Nat.le_refl _) hedited.free_le
  · unfold Separated
    rw [heq, List.map_append]
    refine hbefore.append ?_ hlo hedited.free_le
    exact ⟨[(offset, copy.size)], by simp only [List.map_cons, List.map_nil, ResidentCopy.extent, haddr],
      .singleton hle hend⟩

variable [CacheControl κ]

lemma steps_separated (h : Separated lo s) (hready : s.context.Ready)
    (hlo : lo ≤ s.context.iflash.nextFree) (n : Nat) :
    Sat (steps n) s (fun _ s' => Separated lo s') fun _ _ => True := by
  refine (steps_ready_rule (I := fun s => Separated lo s ∧ lo ≤ s.context.iflash.nextFree)
    (J := fun _ => True) ?_ (fun _ _ _ _ _ => trivial) n hready ⟨h, hlo⟩).mono (fun _ _ h' => h'.1)
    fun _ _ h' => h'
  rintro s s' ⟨h, hlo⟩ - hs
  exact ⟨h.step hlo hs, Nat.le_trans hlo hs.advanced.resident.edited.free_le⟩

/-- **All copies** of a pass were allocated by the pass. -/
lemma runOn_holds {c : Context} (h : c.Ready) (image : Image) (cache : κ) :
    Sat (runOn image) (c, cache)
      (fun report w => w.1.iflash.Holds c.iflash.nextFree w.1.iflash.nextFree
        (report.copies.map (·.extent)))
      (fun _ _ => True) := by
  have hnone : Separated c.iflash.nextFree (⟨start image, c, cache⟩ : State κ) := .nil _ _ _
  exact runOn_rule (steps_separated hnone h (Nat.le_refl _) _)

end Patcher

end FlashLink
