import FlashLink.Proofs.Residence
import Mathlib.Data.List.Pairwise

/-!
Trampoline records and the sectors that they are packed into.

A region hands out spans to whoever asks, and trampolines ask for a sector whenever no record fits into the
current one. Where a sector has room for a record, each record lies in one span that was handed to the
trampolines. Nobody else writes there, so records stay as they were made, whatever is reserved, erased and
written in between and whatever fails. Smaller sectors are accepted as well, and there each record runs past
the end of its span.
-/

namespace FlashLink

open Act

/-- Whom a span is handed to. -/
inductive Holder where
  | trampolines
  | others
deriving DecidableEq

/-- A trampoline that was made: what it does, where to call it, and where its record is. -/
structure MadeRecord where
  target : Addr
  base : Addr
  addr : Addr
  offset : Nat
deriving DecidableEq

/-- The record is called at its address, and it is in flash as it was made. -/
structure MadeRecord.Intact (m : MadeRecord) (r : Region) : Prop where
  addr_eq : m.addr = r.address m.offset ||| 1
  bytes_eq : r.bytes m.offset Record.width = Record.bytes m.target m.base

namespace Trampolines

/-- The span that the region hands out when another trampoline is made. -/
def fresh? (t : Trampolines) (r : Region) : Option FlashSpan :=
  match t.room? with
  | some _ => none
  | none => (Region.reserveErased r.sector r).result.toOption

/-- Where the record is that was written last. -/
def lastRecord (t : Trampolines) : Nat :=
  match t.sector with
  | some s => s.offset + t.used - Record.width
  | none => 0

end Trampolines

/-- A region that trampolines and others allocate from, with all spans it has handed out and all records that
were made. The latest come first. -/
structure Depot where
  trampolines : Trampolines
  region : Region
  grants : List (Holder × FlashSpan)
  records : List MadeRecord
deriving DecidableEq

/-- The spans have no byte in common. -/
def FlashSpan.Apart (s q : FlashSpan) : Prop :=
  q.offset + q.len ≤ s.offset ∨ s.offset + s.len ≤ q.offset

namespace Depot

/-- Others reserve spans and work in their own. Failures may be armed at any time. -/
inductive Request where
  | trampoline (target base : Addr)
  | reserve (size : Nat)
  | reserveErased (size : Nat)
  | erase (s : FlashSpan)
  | write (s : FlashSpan) (start : Nat) (data : Bytes)
  | arm (f : ArmedFault)

/-- Nothing has been asked for yet. -/
def start (r : Region) : Depot := ⟨.empty, r, [], []⟩

/-- A span that others asked for. -/
def served (d : Depot) (o : Outcome Region FlashSpan) : Depot :=
  { d with region := o.state, grants := o.result.toOption.toList.map (.others, ·) ++ d.grants }

def perform (d : Depot) : Request → Depot
  | .trampoline target base =>
    let o := Trampolines.emit target base (d.trampolines, d.region)
    { trampolines := o.state.1
      region := o.state.2
      grants := (d.trampolines.fresh? d.region).toList.map (.trampolines, ·) ++ d.grants
      records := o.result.toOption.toList.map (⟨target, base, ·, o.state.1.lastRecord⟩) ++ d.records }
  | .reserve size => d.served (Region.reserve size d.region)
  | .reserveErased size => d.served (Region.reserveErased size d.region)
  | .erase s =>
    if (.others, s) ∈ d.grants then { d with region := (Act.ofOp (Region.erase s) d.region).state } else d
  | .write s start data =>
    if (.others, s) ∈ d.grants ∧ start + data.size ≤ s.len then
      { d with region := (Act.ofOp (Region.write (s.offset + start) data) d.region).state }
    else d
  | .arm f => { d with region.device := d.region.device.arm f }

/-- Requests one after the other, also after failures. -/
def run (d : Depot) (requests : List Request) : Depot := requests.foldl perform d

/-! ### What is to hold of records -/

/-- The record lies in a span that was handed to the trampolines. -/
def Inside (d : Depot) (m : MadeRecord) : Prop :=
  ∃ s, (.trampolines, s) ∈ d.grants ∧ s.offset ≤ m.offset ∧
    m.offset + Record.width ≤ s.offset + s.len

/-- Spans and records have no byte in common, each record is whole and in a span of the trampolines, and what
is left of the current sector is not below zero. -/
structure Orderly (d : Depot) : Prop where
  grants_apart : d.grants.Pairwise fun g q => g.2.Apart q.2
  inside : ∀ m ∈ d.records, d.Inside m
  intact : ∀ m ∈ d.records, m.Intact d.region
  records_apart : d.records.Pairwise fun m n =>
    n.offset + Record.width ≤ m.offset ∨ m.offset + Record.width ≤ n.offset
  free : d.trampolines.free? ≠ none

end Depot

/-! ### Making a record -/

namespace Trampolines

variable {t : Trampolines} {r : Region}

/-- The sector is the current one, or has just been handed out. -/
def Takes (t : Trampolines) (r : Region) (s : FlashSpan) (t' : Trampolines) : Prop :=
  t.fresh? r = none ∧ s ∈ t.sector ∧ t' = t ∨
    t.fresh? r = some s ∧ t' = { t with sector := some s, used := 0 }

lemma sectorWithRoom_takes (t : Trampolines) (r : Region) :
    Sat sectorWithRoom (t, r) (fun s w => Region.Grown r.nextFree r w.2 ∧ t.Takes r s w.1)
      (fun _ w => Region.Grown r.nextFree r w.2 ∧ w.1 = t ∧ t.fresh? r = none) := by
  unfold Takes fresh?
  refine sectorWithRoom_rule (fun s hroom => ?current) fun hroom => ?fresh
  case current =>
    rw [hroom]
    exact ⟨.refl _ _, .inl ⟨rfl, (Option.filter_eq_some_iff.1 hroom).1, rfl⟩⟩
  case fresh =>
    rw [hroom]
    have hgrown := Region.reserveErased_grown r.sector r
    unfold Sat at hgrown ⊢
    generalize Region.reserveErased r.sector r = o at hgrown ⊢
    rcases o with ⟨e | s, r', es⟩
    · exact ⟨hgrown, rfl, rfl⟩
    · exact ⟨hgrown.1, .inr ⟨rfl, rfl⟩⟩

lemma Takes.fresh {s q : FlashSpan} {t' : Trampolines} (h : t.Takes r s t') (hq : q ∈ t.fresh? r) :
    q = s := by
  rcases h with ⟨hnone, -⟩ | ⟨hs, -⟩
  · rw [hnone] at hq
    cases hq
  · exact Option.some.inj (hq.symm.trans hs)

/-- A sector that is taken is the next span of the region. -/
lemma fresh?_eq {s : FlashSpan} (h : t.fresh? r = some s) : s = r.nextSpan r.sector := by
  unfold fresh? at h
  rcases hroom : t.room? with _ | s' <;> rw [hroom] at h
  · rcases hreserve : Region.reserveErased r.sector r with ⟨e | s', r', es⟩ <;> rw [hreserve] at h <;> cases h
    exact ((Region.reserveErased_grown r.sector r).of_ok hreserve).2.1
  · cases h

/-- A new sector is the current one afterwards, also if no record could be written to it. -/
lemma emit_sector (t : Trampolines) (r : Region) (target base : Addr) :
    Sat (emit target base) (t, r)
      (fun _ w => w.2.sector = r.sector ∧ ∃ s t', t.Takes r s t' ∧ w.1.sector = some s ∧
        w.1.used = t'.used + Record.width)
      (fun _ w => w.2.sector = r.sector ∧
        (t.fresh? r = none ∧ w.1 = t ∨ ∃ s, t.Takes r s w.1 ∧ w.1.sector = some s)) := by
  refine emit_rule ((sectorWithRoom_takes t r).mono ?_ ?_)
  swap
  · rintro e w ⟨hgrown, hsame, hnone⟩
    exact ⟨hgrown.sector_eq, .inl ⟨hnone, hsame⟩⟩
  rintro s ⟨t₁, r₁⟩ ⟨hgrown, htakes⟩
  have hs : t₁.sector = some s := by
    rcases htakes with ⟨-, hs, rfl⟩ | ⟨-, rfl⟩
    · exact hs
    · rfl
  refine (Region.write_written (F := fun _ => True) _ (fun _ _ _ => trivial) r₁).mono ?_ ?_
  · exact fun _ r₂ h => ⟨h.sector_eq.trans hgrown.sector_eq, s, _, htakes, hs, rfl⟩
  · exact fun _ r₂ h => ⟨h.sector_eq.trans hgrown.sector_eq, .inr ⟨s, htakes, hs⟩⟩

end Trampolines

/-! ### Sectors with room for a record -/

namespace Depot

variable {d : Depot} {m : MadeRecord}

/-- What every request keeps. The latest spans are above all others. -/
structure Inv (d : Depot) : Prop where
  room : Record.width ≤ d.region.sector
  packed : d.trampolines.Packed d.region
  current : ∀ s ∈ d.trampolines.sector, (.trampolines, s) ∈ d.grants ∧ d.trampolines.used ≤ s.len
  below : ∀ g ∈ d.grants, g.2.offset + g.2.len ≤ d.region.nextFree
  stacked : d.grants.Pairwise fun g h => h.2.offset + h.2.len ≤ g.2.offset
  inside : ∀ m ∈ d.records, d.Inside m
  intact : ∀ m ∈ d.records, m.Intact d.region
  taken : ∀ m ∈ d.records, ∀ i, m.offset ≤ i → i < m.offset + Record.width →
    ¬ d.trampolines.Free d.region.nextFree i
  records_apart : d.records.Pairwise fun m n =>
    n.offset + Record.width ≤ m.offset ∨ m.offset + Record.width ≤ n.offset

instance : Std.Symm fun g q : Holder × FlashSpan => g.2.Apart q.2 := ⟨fun _ _ => Or.symm⟩

lemma Inv.grants_apart (h : d.Inv) : d.grants.Pairwise fun g q => g.2.Apart q.2 := h.stacked.imp .inl

lemma Inv.orderly (h : d.Inv) : d.Orderly where
  grants_apart := h.grants_apart
  inside := h.inside
  intact := h.intact
  records_apart := h.records_apart
  free := by
    unfold Trampolines.free?
    rcases hs : d.trampolines.sector with _ | s <;> dsimp only
    · exact nofun
    · rw [if_pos (h.current s hs).2]
      exact nofun

/-! ### Requests -/

/-- Work in free flash, and a span that may have been handed out on the way. -/
lemma Inv.granted (h : d.Inv) {t : Trampolines} {r : Region} (holder : Holder)
    (fresh : Option FlashSpan)
    (ha : d.trampolines.Advanced d.region t r)
    (hfresh : ∀ s ∈ fresh, d.region.nextFree ≤ s.offset ∧ s.offset + s.len ≤ r.nextFree)
    (hcurrent : ∀ s ∈ t.sector,
      (.trampolines, s) ∈ fresh.toList.map (holder, ·) ++ d.grants ∧ t.used ≤ s.len) :
    Inv ⟨t, r, fresh.toList.map (holder, ·) ++ d.grants, d.records⟩ where
  room := ha.edited.sector_eq ▸ h.room
  packed := ha.packed h.packed
  current := hcurrent
  below g hg := by
    rcases List.mem_append.1 hg with hg | hg
    · obtain ⟨s, hs, rfl⟩ := List.mem_map.1 hg
      exact (hfresh s (Option.mem_toList.1 hs)).2
    · exact Nat.le_trans (h.below g hg) ha.edited.free_le
  stacked := by
    refine List.pairwise_append.2 ⟨?_, h.stacked, fun g hg q hq => ?_⟩
    · rcases fresh with _ | s
      · exact .nil
      · exact List.pairwise_singleton ..
    · obtain ⟨s, hs, rfl⟩ := List.mem_map.1 hg
      exact Nat.le_trans (h.below q hq) (hfresh s (Option.mem_toList.1 hs)).1
  inside m hm := by
    obtain ⟨s, hs, hin⟩ := h.inside m hm
    exact ⟨s, List.mem_append_right _ hs, hin⟩
  intact m hm := by
    obtain ⟨haddr, hbytes⟩ := h.intact m hm
    exact ⟨haddr.trans (by rw [ha.edited.address_eq]),
      (ha.edited.bytes_eq (h.taken m hm)).trans hbytes⟩
  taken m hm i h1 h2 hi := h.taken m hm i h1 h2 (ha.free i hi)
  records_apart := h.records_apart

/-- Work by others in a span of theirs. -/
lemma Inv.worked (h : d.Inv) {r : Region} {s : FlashSpan} (hs : (.others, s) ∈ d.grants)
    (hw : Region.Written (fun i => s.offset ≤ i ∧ i < s.offset + s.len) d.region r) :
    Inv { d with region := r } where
  room := hw.sector_eq ▸ h.room
  packed q hq := by
    rw [hw.free_eq, hw.address_eq]
    exact h.packed q hq
  current := h.current
  below g hg := hw.free_eq ▸ h.below g hg
  stacked := h.stacked
  inside := h.inside
  intact m hm := by
    obtain ⟨haddr, hbytes⟩ := h.intact m hm
    obtain ⟨q, hq, hlow, hhigh⟩ := h.inside m hm
    -- the span is another one than that of the record
    have hapart : s.Apart q := h.grants_apart.forall hs hq (by simp)
    unfold FlashSpan.Apart at hapart
    exact ⟨haddr.trans (by rw [hw.address_eq]),
      (hw.bytes_eq fun i h1 h2 h3 => by omega).trans hbytes⟩
  taken m hm i h1 h2 hi := h.taken m hm i h1 h2 (hw.free_eq ▸ hi)
  records_apart := h.records_apart

/-- A span for others. -/
lemma Inv.served (h : d.Inv) {x : Act Region FlashSpan} (size : Nat)
    (hx : Sat x d.region
      (fun s r => Region.Grown d.region.nextFree d.region r ∧ s = d.region.nextSpan size ∧
        r.nextFree = d.region.nextFree + s.len)
      (fun _ r => Region.Grown d.region.nextFree d.region r)) : (d.served (x d.region)).Inv := by
  have hcurrent : ∀ {fresh : Option FlashSpan}, ∀ s ∈ d.trampolines.sector,
      (.trampolines, s) ∈ fresh.toList.map (Holder.others, ·) ++ d.grants ∧ d.trampolines.used ≤ s.len :=
    fun s hs => ⟨List.mem_append_right _ (h.current s hs).1, (h.current s hs).2⟩
  unfold Depot.served
  rcases hrun : x d.region with ⟨e | s, r, es⟩
  · exact h.granted .others none (.grown (hx.of_error hrun)) nofun hcurrent
  · obtain ⟨hgrown, hs, hnext⟩ := hx.of_ok hrun
    refine h.granted .others (some s) (.grown hgrown) ?_ hcurrent
    rintro _ ⟨⟩
    rw [hnext, hs]
    exact ⟨Nat.le_refl _, Nat.le_refl _⟩

/-- The sector that a record is to go to. -/
lemma Inv.takes (h : d.Inv) {s : FlashSpan} {t : Trampolines} (ht : d.trampolines.Takes d.region s t) :
    (.trampolines, s) ∈ (d.trampolines.fresh? d.region).toList.map (Holder.trampolines, ·) ++ d.grants ∧
      t.used ≤ s.len := by
  rcases ht with ⟨-, hs, rfl⟩ | ⟨hs, rfl⟩
  · exact ⟨List.mem_append_right _ (h.current s hs).1, (h.current s hs).2⟩
  · rw [hs]
    exact ⟨List.mem_cons_self, Nat.zero_le _⟩

/-- The record is written to flash that was free. -/
lemma free_of_takes {s : FlashSpan} {t : Trampolines} (ht : d.trampolines.Takes d.region s t) {i : Nat}
    (h1 : s.offset + t.used ≤ i) (h2 : i < s.offset + s.len) :
    d.trampolines.Free d.region.nextFree i := by
  rcases ht with ⟨-, hs, rfl⟩ | ⟨hs, rfl⟩
  · exact .inr ⟨s, hs, h1, h2⟩
  · rw [Trampolines.fresh?_eq hs] at h1
    exact .inl (Nat.le_trans (Nat.le_add_right _ _) h1)

lemma Inv.recorded (h : d.Inv) (hinside : d.Inside m) (hintact : m.Intact d.region)
    (htaken : ∀ i, m.offset ≤ i → i < m.offset + Record.width →
      ¬ d.trampolines.Free d.region.nextFree i)
    (hapart : ∀ n ∈ d.records,
      n.offset + Record.width ≤ m.offset ∨ m.offset + Record.width ≤ n.offset) :
    Inv { d with records := m :: d.records } where
  room := h.room
  packed := h.packed
  current := h.current
  below := h.below
  stacked := h.stacked
  inside := List.forall_mem_cons.2 ⟨hinside, h.inside⟩
  intact := List.forall_mem_cons.2 ⟨hintact, h.intact⟩
  taken := List.forall_mem_cons.2 ⟨htaken, h.taken⟩
  records_apart := List.pairwise_cons.2 ⟨hapart, h.records_apart⟩

/-- A sector that is handed out for a record is above all that was handed out before. -/
lemma Inv.fresh_above (h : d.Inv) {t : Trampolines} {r : Region}
    (ha : d.trampolines.Advanced d.region t r) (htaken : ∀ s ∈ d.trampolines.fresh? d.region, t.sector = some s) :
    ∀ s ∈ d.trampolines.fresh? d.region, d.region.nextFree ≤ s.offset ∧ s.offset + s.len ≤ r.nextFree := by
  intro s hs
  refine ⟨?_, (ha.packed h.packed s (htaken s hs)).1⟩
  rw [Trampolines.fresh?_eq hs]
  exact Nat.le_refl _

/-- An attempt that got its sector, whether the record was written to it or not. -/
lemma Inv.holding (h : d.Inv) {t t' : Trampolines} {r : Region} {s : FlashSpan}
    (ha : d.trampolines.Advanced d.region t r) (htakes : d.trampolines.Takes d.region s t')
    (hs : t.sector = some s) (hused : t.used ≤ s.len) :
    Inv ⟨t, r, (d.trampolines.fresh? d.region).toList.map (Holder.trampolines, ·) ++ d.grants, d.records⟩ := by
  refine h.granted .trampolines _ ha (h.fresh_above ha fun q hq => htakes.fresh hq ▸ hs) fun q hq => ?_
  obtain rfl : s = q := Option.some.inj (hs.symm.trans hq)
  exact ⟨(h.takes htakes).1, hused⟩

/-- A record, which goes to flash that was free. -/
lemma Inv.trampoline (h : d.Inv) (target base : Addr) : (d.perform (.trampoline target base)).Inv := by
  rw [Depot.perform]
  have hemit := Trampolines.emit_sat h.packed h.room target base
  have hsector := Trampolines.emit_sector d.trampolines d.region target base
  rcases hrun : Trampolines.emit target base (d.trampolines, d.region) with ⟨e | addr, ⟨t, r⟩, es⟩
  · have hadvanced := hemit.of_error hrun
    obtain ⟨-, ⟨hnone, rfl⟩ | ⟨s, htakes, hs⟩⟩ := hsector.of_error hrun
    · refine h.granted .trampolines _ hadvanced (h.fresh_above hadvanced ?_) fun s hs => ?_
      · rw [hnone]
        exact nofun
      · exact ⟨List.mem_append_right _ (h.current s hs).1, (h.current s hs).2⟩
    · exact h.holding hadvanced htakes hs (h.takes htakes).2
  · obtain ⟨hadvanced, offset, ⟨q, hq, hoffset, hroom, haddr⟩, -, hbytes⟩ := hemit.of_ok hrun
    obtain ⟨-, s, t1, htakes, hs, hused⟩ := hsector.of_ok hrun
    obtain rfl : s = q := Option.some.inj (hs.symm.trans hq)
    dsimp only at hadvanced hoffset hroom haddr hbytes hs hused
    have hgranted := h.holding hadvanced htakes hs hroom
    have hlast : t.lastRecord = offset := by
      unfold Trampolines.lastRecord
      rw [hs]
      dsimp only
      omega
    have hfree : ∀ i, offset ≤ i → i < offset + Record.width →
        d.trampolines.Free d.region.nextFree i := by
      intro i h1 h2
      exact free_of_takes htakes (by omega) (by omega)
    dsimp only
    rw [hlast]
    refine hgranted.recorded ⟨s, (h.takes htakes).1, ?_, ?_⟩ ⟨haddr, hbytes⟩ ?_ ?_
    · dsimp only
      omega
    · dsimp only
      omega
    · intro i _ h2
      exact Trampolines.RecordAt.taken ⟨s, hs, hoffset, hroom, haddr⟩ hgranted.packed h2
    · intro n hn
      by_contra hoverlap
      dsimp only at hoverlap
      exact h.taken n hn (max n.offset offset) (by omega) (by omega) (hfree _ (by omega) (by omega))

lemma Inv.perform (h : d.Inv) (q : Request) : (d.perform q).Inv := by
  cases q with
  | trampoline target base => exact h.trampoline target base
  | reserve size =>
    refine h.served size ((Region.reserve_sat size d.region).mono ?_ ?_)
    · rintro s r ⟨hs, hroom, rfl⟩
      subst hs
      exact ⟨Region.grown_reserved _ hroom, rfl, rfl⟩
    · rintro _ r rfl
      exact .refl _ _
  | reserveErased size => exact h.served size (Region.reserveErased_grown size d.region)
  | erase s =>
    rw [Depot.perform]
    split_ifs with hs
    · exact h.worked hs (Sat.state (sat_ofOp.2 (Region.erase_written (fun _ h1 h2 => ⟨h1, h2⟩) _)))
    · exact h
  | write s start data =>
    rw [Depot.perform]
    split_ifs with hs
    · exact h.worked hs.1 (Sat.state (sat_ofOp.2 (Region.write_written _
        (fun _ h1 h2 => ⟨by omega, by omega⟩) _)))
    · exact h
  | arm f =>
    exact ⟨h.room, h.packed, h.current, h.below, h.stacked, h.inside,
      fun m hm => ⟨(h.intact m hm).addr_eq, (h.intact m hm).bytes_eq⟩, h.taken, h.records_apart⟩

lemma Inv.run (h : d.Inv) (requests : List Request) : (d.run requests).Inv := by
  induction requests generalizing d with
  | nil => exact h
  | cons q requests ih => exact ih (h.perform q)

/-- Where nothing has been asked for. -/
lemma Inv.start {r : Region} (hroom : Record.width ≤ r.sector) : (start r).Inv :=
  ⟨hroom, nofun, nofun, nofun, .nil, nofun, nofun, nofun, .nil⟩

/-! ### Sectors without room for a record -/

/-- The trampolines are handed one sector at a time. -/
structure Sectorwise (n : Nat) (d : Depot) : Prop where
  sector_eq : d.region.sector = n
  len_eq : ∀ s, (.trampolines, s) ∈ d.grants → s.len = n

variable {n : Nat}

lemma Sectorwise.served (h : d.Sectorwise n) {x : Act Region FlashSpan}
    (hx : Sat x d.region (fun _ r => r.sector = d.region.sector) fun _ r => r.sector = d.region.sector) :
    (d.served (x d.region)).Sectorwise n := by
  refine ⟨hx.state.trans h.sector_eq, fun s hs => ?_⟩
  rcases List.mem_append.1 hs with hs | hs
  · obtain ⟨q, -, hq⟩ := List.mem_map.1 hs
    cases hq
  · exact h.len_eq s hs

lemma Sectorwise.trampoline (h : d.Sectorwise n) (hn : 0 < n) (target base : Addr) :
    (d.perform (.trampoline target base)).Sectorwise n := by
  have hsector : Sat (Trampolines.emit target base) (d.trampolines, d.region)
      (fun _ w => w.2.sector = n) fun _ w => w.2.sector = n :=
    (Trampolines.emit_sector d.trampolines d.region target base).mono
      (fun _ _ hw => hw.1.trans h.sector_eq) fun _ _ hw => hw.1.trans h.sector_eq
  refine ⟨hsector.state, fun s hs => ?_⟩
  rcases List.mem_append.1 hs with hs | hs
  · obtain ⟨q, hq, hqs⟩ := List.mem_map.1 hs
    cases hqs
    rw [Trampolines.fresh?_eq (Option.mem_toList.1 hq), Region.nextSpan, h.sector_eq]
    exact alignUp_eq hn (Nat.mod_self n)
  · exact h.len_eq s hs

lemma Sectorwise.perform (h : d.Sectorwise n) (hn : 0 < n) (q : Request) : (d.perform q).Sectorwise n := by
  have hworked : ∀ {r : Region} {F : Nat → Prop}, Region.Written F d.region r →
      Sectorwise n { d with region := r } := fun hw => ⟨hw.sector_eq.trans h.sector_eq, h.len_eq⟩
  cases q with
  | trampoline target base => exact h.trampoline hn target base
  | reserve size =>
    exact h.served ((Region.reserve_sat size d.region).mono (fun _ _ hr => hr.2.2 ▸ rfl) fun _ _ hr => hr ▸ rfl)
  | reserveErased size =>
    exact h.served ((Region.reserveErased_grown size d.region).mono (fun _ _ hr => hr.1.sector_eq)
      fun _ _ hr => hr.sector_eq)
  | erase s =>
    rw [Depot.perform]
    split_ifs
    · exact hworked (Sat.state (sat_ofOp.2 (Region.erase_written (F := fun _ => True)
        (fun _ _ _ => trivial) _)))
    · exact h
  | write s start data =>
    rw [Depot.perform]
    split_ifs
    · exact hworked (Sat.state (sat_ofOp.2 (Region.write_written (F := fun _ => True) _
        (fun _ _ _ => trivial) _)))
    · exact h
  | arm f => exact ⟨h.sector_eq, h.len_eq⟩

lemma Sectorwise.run (h : d.Sectorwise n) (hn : 0 < n) (requests : List Request) :
    (d.run requests).Sectorwise n := by
  induction requests generalizing d with
  | nil => exact h
  | cons q requests ih => exact ih (h.perform hn q)

/-- No sector is large enough for a record. -/
lemma Sectorwise.not_inside (h : d.Sectorwise n) (hn : n < Record.width) : ¬ d.Inside m := by
  rintro ⟨s, hs, hlow, hhigh⟩
  have := h.len_eq s hs
  omega

/-! ### Any requests -/

/-- On every region that can be created, whatever is asked for and whatever fails: if a sector has room for a
record, records are packed in order. If it has not, no record that was made is inside a sector of the
trampolines. -/
theorem records_packed {name : String} {device : Nor} {p : Partition} {region : Region}
    (hcreate : ((Region.create name device p : Act Unit Region) ()).result = .ok region)
    (requests : List Request) :
    (Record.width ≤ device.sector → ((start region).run requests).Orderly) ∧
      (device.sector < Record.width → ∀ m ∈ ((start region).run requests).records,
        ¬ ((start region).run requests).Inside m) := by
  obtain ⟨hsound, hdevice, -, -⟩ := Region.create_sound.of_result hcreate
  have hsector : region.sector = device.sector := by rw [Region.sector, hdevice]
  refine ⟨fun hroom => ?_, fun hsmall m _ => ?_⟩
  · exact ((Inv.start (hsector ▸ hroom)).run requests).orderly
  · have hstart : (start region).Sectorwise device.sector :=
      ⟨hsector, fun _ hs => absurd hs List.not_mem_nil⟩
    exact (hstart.run (hsector ▸ hsound.sector_pos) requests).not_inside hsmall

/-- Four sectors of internal flash. -/
def fourSectors (sector : Nat) : Region :=
  ⟨"iflash", .create (4 * sector) sector erasedByte, ⟨0, 4 * sector, 0x08000000⟩, 0⟩

/-- Records in two sectors, and a span in between that is written to. There is no flash for the last. -/
def crossedRequests : List Request :=
  [.trampoline 0x08000101 0x20000000, .reserveErased 8,
    .write ⟨36, 36, 0x08000024⟩ 4 #[1, 2, 3, 4], .trampoline 0x08000201 0x20000000,
    .arm ⟨.write, 3⟩, .trampoline 0x08000301 0x20000000, .trampoline 0x08000301 0x20000000,
    .reserve 1, .trampoline 0x08000401 0x20000000, .trampoline 0x08000501 0x20000000]

lemma create_fourSectors (sector : Nat) (h : Region.fault? "iflash" (.create (4 * sector) sector erasedByte)
    ⟨0, 4 * sector, 0x08000000⟩ = none) :
    ((Region.create "iflash" (.create (4 * sector) sector erasedByte) ⟨0, 4 * sector, 0x08000000⟩ :
      Act Unit Region) ()).result = .ok (fourSectors sector) := by
  unfold Region.create
  rw [h]
  rfl

/-- Sectors of 36 bytes hold two records. A record in a sector of 8 bytes is not inside it. -/
theorem records_packed_fourSectors :
    ((start (fourSectors 36)).run crossedRequests).Orderly ∧
      ((start (fourSectors 36)).run crossedRequests).records.map (·.offset) = [88, 72, 16, 0] ∧
      ((start (fourSectors 36)).run crossedRequests).region.nextFree = 144 ∧
      ∃ m ∈ ((start (fourSectors 8)).run crossedRequests).records,
        ¬ ((start (fourSectors 8)).run crossedRequests).Inside m := by
  have hlarge := create_fourSectors 36 (by decide +kernel)
  have hsmall := create_fourSectors 8 (by decide +kernel)
  refine ⟨(records_packed hlarge crossedRequests).1 (by decide), by decide +kernel, by decide +kernel,
    ⟨0x08000101, 0x20000000, 0x08000001, 0⟩, ?_, ?_⟩
  · decide +kernel
  · exact (records_packed hsmall crossedRequests).2 (by decide) _ (by decide +kernel)

end Depot

end FlashLink
