import FlashLink.Proofs.Interrupting
import Mathlib.Algebra.GroupWithZero.Nat

/-!
How much internal flash a residency pass takes.

A section that is copied takes whole sectors, and so does a trampoline when no slot is left in the
current sector. There is one trampoline for each address that the variables hold in tagged sections, so
what is left of a pass can be paid for in advance. Every step that succeeds pays from that sum, and one
that fails has failed for flash or has found less of it than the sum.
-/

namespace FlashLink

open Act

/-! ### Regions -/

namespace Region

variable {r : Region} {m n : Nat}

/-- There are fewer than `len` bytes to reserve. -/
def Short (r : Region) (len : Nat) : Prop := r.remaining < len ∨ sizeLimit ≤ len

lemma Short.mono (h : r.Short m) (hle : m ≤ n) : r.Short n :=
  h.imp (fun h => Nat.lt_of_lt_of_le h hle) fun h => Nat.le_trans h hle

/-- A regular partition is never short of what is free in it. -/
lemma not_short (hr : r.partition.Regular) (hle : n ≤ r.remaining) : ¬ r.Short n := by
  have hfits := hr.fits
  unfold remaining at hle
  rintro (hshort | hshort)
  · unfold remaining at hshort
    omega
  · rw [sizeLimit, UInt64.size] at hshort
    rw [UInt32.size] at hfits
    omega

/-- Reading fails for flash. -/
lemma read_raises (offset len : Nat) (r : Region) :
    Op.Sat (read offset len) r (fun _ _ => True) fun e _ => ∃ why, e = .flash why := by
  have hdevice : ∀ offset d, Op.Sat (Nor.read offset len) d (fun _ _ => True)
      fun e _ => ∃ why, e = .flash why := by
    intro offset d
    unfold Op.Sat Nor.read
    split_ifs
    · exact ⟨_, rfl⟩
    · trivial
  unfold read
  exact Op.Sat.bind (checkSpan_raised _ _ r)
    (fun _ _ _ => Op.Sat.get_bind (Op.sat_zoom.2 (hdevice _ _))) fun _ _ h => h

/-- Sectors are reserved and erased, or there are too few, or erasing fails. -/
lemma reserveErased_spends (size : Nat) (r : Region) :
    Sat (reserveErased size) r
      (fun s r' => s.len = alignUp size r.sector ∧ r'.nextFree = r.nextFree + alignUp size r.sector)
      (fun e _ => e.isFlash = true ∨ r.Short (alignUp size r.sector)) := by
  have hreserve : Sat (reserve size) r (fun _ _ => True)
      (fun _ _ => r.Short (alignUp size r.sector)) := by
    unfold Sat reserve
    dsimp only
    split_ifs with hlimit hroom
    · exact .inr hlimit
    · exact .inl hroom
    · trivial
  have herase : Sat (reserveErased size) r (fun _ _ => True)
      (fun e _ => e.isFlash = true ∨ r.Short (alignUp size r.sector)) := by
    unfold reserveErased
    refine hreserve.bind (fun s r' _ => ?_) fun _ _ h => .inr h
    refine Sat.bind (sat_ofOp.2 (erase_raises s r')) (fun _ _ _ => sat_pure.2 trivial) ?_
    rintro _ _ ⟨why, rfl⟩
    exact .inl rfl
  refine (herase.and (reserveErased_grown size r)).mono ?_ fun _ _ h => h.1
  rintro _ r' ⟨-, -, rfl, hnext⟩
  exact ⟨rfl, hnext⟩

end Region

/-! ### Records -/

namespace Trampolines

variable {t : Trampolines} {r : Region}

/-- How many records still fit into the current sector. -/
def slots (t : Trampolines) : Nat := (t.sector.map fun s => (s.len - t.used) / Record.width).getD 0

/-- How many bytes of fresh sectors the next `n` records take, if so many slots are left. -/
def freshBytes (sector : Nat) : Nat → Nat → Nat
  | _, 0 => 0
  | 0, n + 1 => sector + freshBytes sector (sector / Record.width - 1) n
  | slots + 1, n + 1 => freshBytes sector slots n

lemma slots_of_full (h : t.room? = none) : t.slots = 0 := by
  unfold slots
  rcases hs : t.sector with _ | s
  · rfl
  · have hfull : ¬ t.used + Record.width ≤ s.len := by
      simpa using Option.filter_eq_none_iff.1 h s hs
    have hwidth : 0 < Record.width := by decide
    exact Nat.div_eq_of_lt (by omega)

/-- A record takes one slot. -/
lemma slots_used {s : FlashSpan} (hs : t.sector = some s) (hroom : t.used + Record.width ≤ s.len)
    (created : Nat) :
    t.slots = slots { t with used := t.used + Record.width, created := created } + 1 := by
  have hleft : s.len - t.used = s.len - (t.used + Record.width) + Record.width := by omega
  unfold slots
  rw [hs]
  dsimp only [Option.map_some, Option.getD_some]
  rw [hleft, Nat.add_div_right _ (by decide)]

/-- A fresh sector is paid for before it is used. -/
lemma sectorWithRoom_spends (hr : r.Sound) (hsector : Record.width ≤ r.sector) (n : Nat) :
    Sat sectorWithRoom (t, r)
      (fun _ w => w.2.nextFree + freshBytes r.sector w.1.slots (n + 1) =
        r.nextFree + freshBytes r.sector t.slots (n + 1))
      (fun e _ => e.isFlash = true ∨ r.Short (freshBytes r.sector t.slots (n + 1))) := by
  refine sectorWithRoom_rule (fun _ _ => rfl) fun hroom => ?_
  have hlen : alignUp r.sector r.sector = r.sector := alignUp_eq hr.sector_pos (Nat.mod_self _)
  have hfull : freshBytes r.sector t.slots (n + 1) =
      r.sector + freshBytes r.sector (r.sector / Record.width - 1) n := by
    rw [slots_of_full hroom]
    rfl
  have hspends := Region.reserveErased_spends r.sector r
  rw [hlen] at hspends
  refine hspends.mono ?_ fun _ _ h => h.imp_right fun h => h.mono (by omega)
  rintro s r' ⟨hs, hnext⟩
  obtain ⟨k, hk⟩ : ∃ k, r.sector / Record.width = k + 1 :=
    Nat.exists_eq_add_one.2 (Nat.div_pos hsector (by decide))
  have hslots : slots { t with sector := some s, used := 0 } = k + 1 := by
    unfold slots
    dsimp only [Option.map_some, Option.getD_some]
    rw [hs, Nat.sub_zero, hk]
  dsimp only
  rw [hfull, hk, Nat.add_sub_cancel, hnext, hslots, Nat.add_assoc]
  rfl

/-- **A trampoline** takes a slot, or a sector where no slot is left. -/
lemma emit_spends (hr : r.Sound) (hp : t.Packed r) (hsector : Record.width ≤ r.sector)
    (target base : Addr) (n : Nat) :
    Sat (emit target base) (t, r)
      (fun _ w => w.2.nextFree + freshBytes r.sector w.1.slots n =
        r.nextFree + freshBytes r.sector t.slots (n + 1))
      (fun e _ => e.isFlash = true ∨ r.Short (freshBytes r.sector t.slots (n + 1))) := by
  refine emit_rule (((sectorWithRoom_spends hr hsector n).and (sectorWithRoom_sat hp hsector)).mono ?_
    fun _ _ h => h.1)
  rintro s ⟨t₁, r₁⟩ ⟨hspent, -, -, hs, hroom⟩
  dsimp only at hspent hs hroom ⊢
  refine ((Region.write_written (F := fun _ => True) _ (fun _ _ _ => trivial) r₁).and
    (Region.write_raises _ _ r₁)).mono ?_ ?_
  · rintro _ r₂ ⟨hwritten, -⟩
    rw [slots_used hs hroom (t₁.created + 1)] at hspent
    rw [hwritten.free_eq]
    exact hspent
  · rintro _ _ ⟨-, why, rfl⟩
    exact .inl rfl

end Trampolines

/-! ### Copies -/

namespace Patcher

variable {c : Context}

/-- Copying blocks fails for flash. -/
lemma copyFrom_raises (src dest len fuel done : Nat) (c : Context) :
    Op.Sat (copyFrom src dest len fuel done) c (fun _ _ => True) fun e _ => e.isFlash = true := by
  induction fuel generalizing done c with
  | zero => trivial
  | succ fuel ih =>
    have hflash : ∀ e : Error, (∃ why, e = .flash why) → e.isFlash = true := by
      rintro _ ⟨why, rfl⟩
      rfl
    refine copyFrom_rule (fun _ => trivial) fun _ => ?_
    refine (Region.read_raises _ _ _).mono (fun data r _ => ?_) fun e _ h => hflash e h
    exact (Region.write_raises _ _ _).mono (fun _ r' _ => ih _ _) fun e _ h => hflash e h

/-- A copy takes whole sectors. -/
lemma copySection_spends (s : PlacedSection) (c : Context) :
    Sat (copySection s) c
      (fun _ c' => c'.iflash.nextFree = c.iflash.nextFree + alignUp s.size c.iflash.sector)
      (fun e _ => e.isFlash = true ∨ c.iflash.Short (alignUp s.size c.iflash.sector)) := by
  refine copySection_rule (fun _ => .inl rfl) fun src _ => ?_
  refine (Region.reserveErased_spends s.size c.iflash).mono (fun dest r h => ?_) fun _ _ h => h
  refine ((copyFrom_copied (k := 0) (Nat.zero_le _) src s.size s.size _).and
    (copyFrom_raises src dest.offset s.size s.size 0 _)).mono ?_ fun _ _ h => .inl h.2
  rintro _ c' ⟨hcopied, -⟩
  exact hcopied.iflash.free_eq.trans h.2

end Patcher

/-! ### What is left of a pass -/

namespace Image

/-- The sections that are to be made resident, from section `n` on. -/
def taggedFrom (i : Image) (n : Nat) : List PlacedSection := (i.sections.drop n).filter (·.isTagged)

/-- The addresses in tagged sections that the variables hold. -/
def pointers (i : Image) (c : Context) : Finset UInt32 :=
  ({k ∈ Finset.range i.words | i.PointsInto (i.word c k)} : Finset Nat).image (i.word c)

variable {i : Image} {m n : Nat}

lemma tagged_of_taggedBefore {q : PlacedSection} (h : q ∈ i.taggedBefore n) : q ∈ i.tagged := by
  obtain ⟨hq, htagged⟩ := List.mem_filter.1 h
  exact List.mem_filter.2 ⟨List.mem_of_mem_take hq, htagged⟩

lemma taggedBefore_append (i : Image) (n : Nat) : i.taggedBefore n ++ i.taggedFrom n = i.tagged := by
  rw [taggedBefore, taggedFrom, ← List.filter_append, List.take_append_drop, tagged]

/-- Where more is tagged before, less is tagged after. -/
lemma taggedFrom_eq {qs : List PlacedSection} (h : i.taggedBefore n = i.taggedBefore m ++ qs) :
    i.taggedFrom m = qs ++ i.taggedFrom n := by
  have hsplit := (i.taggedBefore_append m).trans (i.taggedBefore_append n).symm
  rw [h, List.append_assoc] at hsplit
  exact List.append_cancel_left hsplit

end Image

namespace Patcher

variable {κ : Type} {s s' : State κ} {c : Context} {image : Image} {stage : PatchStage}

/-- The internal flash that the rest of a pass takes: whole sectors for each section that has not been
copied, and sectors for the trampolines that have not been made. -/
def demand (image : Image) (c : Context) (stage : PatchStage) (s : State κ) : Nat :=
  ((image.taggedFrom (passed image stage)).map fun q => alignUp q.size s.context.iflash.sector).sum +
    Trampolines.freshBytes s.context.iflash.sector s.context.trampolines.slots
      ((image.pointers c).card - s.patcher.made.length)

namespace Progress

/-- What relocates an address of the variables is a goal of one of their pointers. -/
lemma targets_le (h : Progress image c stage s) {targets : List Addr} (hnodup : targets.Nodup)
    (htargets : ∀ target ∈ targets, ∃ k < image.words,
      relocate s.patcher.report.copies (image.word c k) = some target) :
    targets.length ≤ (image.pointers c).card := by
  have hpoints : ∀ {word target}, relocate s.patcher.report.copies word = some target →
      image.PointsInto word := by
    intro word target hsome
    obtain ⟨copy, hcopy, hrelocate⟩ := List.exists_of_findSome?_eq_some hsome
    obtain ⟨q, hq, offset, -, -, hof⟩ := h.copies.of_mem hcopy
    have hcovers := (ResidentCopy.relocate?_eq_some.1 hrelocate).1
    rw [hof.copy_eq] at hcovers
    exact ⟨q, Image.tagged_of_taggedBefore hq, hcovers⟩
  have hsubset : targets.toFinset ⊆
      (image.pointers c).image fun w => (relocate s.patcher.report.copies w).getD 0 := by
    intro target htarget
    obtain ⟨k, hk, hsome⟩ := htargets target (List.mem_toFinset.1 htarget)
    refine Finset.mem_image.2 ⟨image.word c k, Finset.mem_image_of_mem _ ?_, by rw [hsome]; rfl⟩
    exact Finset.mem_filter.2 ⟨Finset.mem_range.2 hk, hpoints hsome⟩
  calc targets.length = targets.toFinset.card := (List.toFinset_card_of_nodup hnodup).symm
    _ ≤ _ := Finset.card_le_card hsubset
    _ ≤ _ := Finset.card_image_le

/-- Where a word has to lead as far as has been found out, it has to lead when all copies are known. -/
lemma relocate_of_goal {k : Nat} {target : Addr}
    (hgoal : goal image c s.patcher.report.copies stage k = some target) :
    relocate s.patcher.report.copies (image.word c k) = some target := by
  unfold goal reach at hgoal
  split at hgoal
  · split_ifs at hgoal
    · exact hgoal
    · rcases List.eq_nil_or_concat s.patcher.report.copies with hnil | ⟨others, copy, hcopies⟩
      · rw [hnil] at hgoal ⊢
        exact hgoal
      · rw [hcopies, List.concat_eq_append, List.dropLast_concat] at hgoal
        rw [hcopies, List.concat_eq_append, relocate_concat, hgoal]
        rfl
  · exact hgoal

/-- One more trampoline is one that had to be made. -/
lemma made_lt (h : Progress image c stage s) {k : Nat} {target : Addr} (hk : k < image.words)
    (hsome : relocate s.patcher.report.copies (image.word c k) = some target)
    (hmissing : s.patcher.made.lookup target = none) :
    s.patcher.made.length < (image.pointers c).card := by
  have hnotMem : target ∉ s.patcher.made.map (·.1) := by
    rw [← lookup_isSome, hmissing]
    simp
  have hle := h.targets_le (List.nodup_cons.2 ⟨hnotMem, h.memo.nodup⟩) fun t ht => by
    rcases List.mem_cons.1 ht with rfl | ht
    · exact ⟨k, hk, hsome⟩
    · obtain ⟨j, hj, hgoal⟩ := (h.redirected.made t).1 (lookup_isSome.2 ht)
      exact ⟨j, hj, relocate_of_goal hgoal⟩
  rw [List.length_cons, List.length_map] at hle
  exact hle

end Progress

/-- The stage that has been reached is paid for. -/
def Paid (image : Image) (c : Context) (before : PatchStage) (s : State κ) (stage : PatchStage)
    (s' : State κ) : Prop :=
  demand image c stage s' + s'.context.iflash.nextFree ≤
    demand image c before s + s.context.iflash.nextFree

/-- The stage has failed for flash, or for want of what the rest of the pass takes. -/
def Unpaid (image : Image) (c : Context) (before : PatchStage) (s : State κ) (e : Error) : Prop :=
  e.isFlash = true ∨ s.context.iflash.Short (demand image c before s)

/-- Sections that are passed without being copied take nothing. -/
lemma Paid.passed {before : PatchStage} (h : image.taggedFrom (passed image before) =
    image.taggedFrom (Patcher.passed image stage)) : Paid image c before s stage s := by
  unfold Paid demand
  rw [h]

namespace Progress

lemma copy_spends {index : Nat} (h : Progress image c (.copying index) s) (hc : Suited image c) :
    Sat (copy index) s (Paid image c (.copying index) s)
      fun e _ => Unpaid image c (.copying index) s e := by
  obtain ⟨q, hq, htagged⟩ := h.staged
  have hfrom := Image.taggedFrom_eq htagged
  refine copy_rule (fun hnone => ?_) fun q' hq' => ?_
  · rw [h.image_eq, hq] at hnone
    cases hnone
  obtain rfl : q = q' := by simpa [h.image_eq, hq] using hq'
  refine ((copySection_spends q s.context).and
    (copySection_sat (h.ready hc).iflash_sound.sector_pos q)).mono ?_ ?_
  swap
  · refine fun e _ h => h.1.imp_right fun hshort => hshort.mono ?_
    unfold demand
    rw [passed, hfrom]
    simp only [List.singleton_append, List.map_cons, List.sum_cons]
    omega
  · rintro dest d ⟨hnext, hresided, -⟩
    have htrampolines : d.trampolines = s.context.trampolines := by rw [hresided.others]
    unfold Paid demand
    dsimp only [passed]
    rw [hfrom, hresided.iflash.sector_eq, htrampolines, hnext]
    simp only [List.singleton_append, List.map_cons, List.sum_cons]
    omega

lemma trampolineTo_spends (h : Progress image c stage s) (hc : Suited image c) {k : Nat}
    {target : Addr} (hk : k < image.words)
    (hsome : relocate s.patcher.report.copies (image.word c k) = some target) (base : Addr) :
    Sat (trampolineTo target base) s
      (fun _ s' => s'.context.iflash.sector = s.context.iflash.sector ∧
        ∀ stage, Paid image c stage s stage s')
      (fun e _ => e.isFlash = true ∨ ∀ stage, s.context.iflash.Short (demand image c stage s)) := by
  have hready := h.ready hc
  refine trampolineTo_rule (fun _ _ => ⟨rfl, fun _ => Nat.le_refl _⟩) fun hmissing => sat_zoom.2 ?_
  obtain ⟨n, hn⟩ : ∃ n, (image.pointers c).card = s.patcher.made.length + (n + 1) :=
    Nat.exists_eq_add_of_lt (h.made_lt hk hsome hmissing)
  refine ((Trampolines.emit_spends hready.iflash_sound hready.packed hready.room target base n).and
    (Trampolines.emit_sat hready.packed hready.room target base)).mono ?_ ?_
  · rintro addr ⟨t, r⟩ ⟨hspent, hadvanced, -⟩
    have hsector : r.sector = s.context.iflash.sector := hadvanced.edited.sector_eq
    refine ⟨hsector, fun stage => ?_⟩
    unfold Paid demand
    dsimp only [Context.trampolinePart] at hspent ⊢
    rw [hn, hsector, List.length_cons, Nat.add_sub_cancel_left,
      show s.patcher.made.length + (n + 1) - (s.patcher.made.length + 1) = n by omega]
    omega
  · refine fun e _ h => h.1.imp_right fun hshort stage => hshort.mono ?_
    unfold demand
    rw [hn, Nat.add_sub_cancel_left]
    omega

lemma patch_spends {target : PatchTarget} {cursor : Nat}
    (h : Progress image c (.patching target cursor) s) (hc : Suited image c) :
    Sat (patch target cursor) s (Paid image c (.patching target cursor) s)
      fun e _ => Unpaid image c (.patching target cursor) s e := by
  refine patch_rule (fun _ => .passed rfl) (fun _ _ _ => .passed rfl) fun b i word found hb hfind => ?_
  rw [h.image_eq] at hb
  obtain ⟨hle, hi, hfound, -⟩ := findWord_word hb hfind
  have hsome := (h.goal_of_some hc hle hi hfound).2
  refine (h.trampolineTo_spends hc hi hsome _).mono (fun addr s' hpaid => hpaid.2 _) ?_
  exact fun e _ h => h.imp_right fun hshort => hshort _

variable [CacheControl κ]

lemma scan_spends {next : Nat} (h : Progress image c (.scanning next) s) :
    Sat (scan next) s (Paid image c (.scanning next) s) fun _ _ => False := by
  refine scan_rule (fun index hnext => .passed ?_) fun _ => (finish_sat s).mono ?_ fun _ _ h => h
  · rw [h.image_eq] at hnext
    obtain ⟨-, hsame, -⟩ := Image.nextTagged_some hnext
    have hnone : image.taggedBefore index = image.taggedBefore next ++ [] := by
      rw [List.append_nil]
      exact hsame
    exact Image.taggedFrom_eq hnone
  · rintro _ s' ⟨hpatcher, hcontext⟩
    have hnone : image.taggedFrom image.sections.length = [] := by simp [Image.taggedFrom]
    unfold Paid demand
    rw [hpatcher, hcontext, passed, passed, hnone, List.map_nil, List.sum_nil]
    omega

/-- **A step** that succeeds is paid for by what the pass takes, and one that fails for anything else
than flash has found less than that. -/
lemma step_spends (h : Progress image c s.patcher.stage s) (hc : Suited image c) :
    Sat step s (fun _ s' => Paid image c s.patcher.stage s s'.patcher.stage s')
      fun e _ => Unpaid image c s.patcher.stage s e := by
  refine step_rule (P := fun _ s' => Paid image c s.patcher.stage s s'.patcher.stage s') ?_
  generalize s.patcher.stage = stage at h
  rcases stage with next | index | ⟨t, cursor⟩ | _
  · exact h.scan_spends.mono (fun _ _ h' => h') fun _ _ h' => h'.elim
  · exact h.copy_spends hc
  · exact h.patch_spends hc
  · exact sat_pure.2 (Nat.le_refl _)

end Progress

end Patcher

end FlashLink
