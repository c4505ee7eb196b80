import FlashLink.Proofs.GuardedStreaming
import FlashLink.Proofs.Packing

/-!
Whole sectors, handed out one span after another until the region is emptied.

Whatever sizes are asked for, and whatever fails, the next free offset stays a sector boundary of the
partition, and the spans handed out since it was last zero have no byte in common. A request that does not
fit is refused and leaves no trace. The sums on the way fit in words, but for one: a size within a sector of
the largest word may have no multiple of the sector above it, and there rounding up has no answer.
-/

namespace FlashLink

open Act Trial

/-! ### Rounding up -/

namespace Word

/-- There is no word that is a multiple and large enough. -/
lemma alignUp?_eq_none {a b : Nat} (hb : 0 < b) (h : sizeLimit ≤ alignUp a b) : alignUp? a b = none := by
  rw [alignUp?, if_neg (Nat.ne_of_gt hb), mul?, quotient_mul a hb]
  exact if_neg (Nat.not_lt.2 h)

end Word

namespace Trial

variable {σ α β : Type}

/-- Nothing follows a trial that is stuck. -/
lemma stuck_bind {x : Trial σ α} {f : α → Trial σ β} {s : σ} (h : x s = none) : (x >>= f) s = none := by
  change Trial.bind x f s = none
  simp only [Trial.bind, h]

/-- Nothing follows what is needed and missing. -/
lemma stuck_need {o : Option α} {s : σ} (ho : o = none) : (liftM o : Trial σ α) s = none := by
  subst ho
  rfl

/-- A trial is stuck where the rest is. -/
lemma stuck_of_rest {x : Trial σ α} {a : α} {f : α → Trial σ β} {s : σ} (hx : x s = some ⟨.ok a, s, []⟩)
    (h : f a s = none) : (x >>= f) s = none := by
  change Trial.bind x f s = none
  simp only [Trial.bind, hx, h]

end Trial

namespace Guarded

variable {r : Region} {size : Nat}

/-- A reservation whose span is erased at once. -/
def reserveErasedSpan (size : Nat) : Trial Region FlashSpan := do
  let s ← reserveSpan size
  eraseSpan s
  return s

/-- Nothing follows a size that cannot be rounded up. -/
lemma reserveSpan_stuck (hr : r.Sound) (h : sizeLimit ≤ alignUp size r.sector) :
    reserveSpan size r = none := by
  have hnone := Word.alignUp?_eq_none hr.sector_pos h
  unfold reserveSpan
  exact stuck_of_rest rfl (stuck_bind (stuck_need hnone))

lemma reserveErasedSpan_stuck (hr : r.Sound) (h : sizeLimit ≤ alignUp size r.sector) :
    reserveErasedSpan size r = none := stuck_bind (reserveSpan_stuck hr h)

lemma reserveErasedSpan_runs (hr : r.Addressed) (h : alignUp size r.sector < sizeLimit) :
    Runs (reserveErasedSpan size) (Region.reserveErased size) r := by
  refine (reserveSpan_runs_of_lt hr h).bind (Region.reserve_sat size r) ?_
  rintro s r' ⟨hs, hroom, hr'⟩
  have hgrown : Region.Grown r.nextFree r r' := by
    rw [hs] at hroom hr'
    exact hr' ▸ Region.grown_reserved _ hroom
  exact (eraseSpan_runs (hgrown.addressed hr) s).bind_any fun _ _ => runs_pure s

end Guarded

/-! ### Requests -/

/-- A region, and the spans handed out since it was last emptied, the latest first. -/
structure Ledger where
  region : Region
  spans : List FlashSpan
deriving DecidableEq

namespace Ledger

/-- Sizes are words, up to the largest. Failures may be armed at any time. -/
inductive Request where
  | reserve (size : UInt64)
  | reserveErased (size : UInt64)
  | reset
  | arm (f : ArmedFault)
deriving DecidableEq

/-- Nothing has been handed out. -/
def start (r : Region) : Ledger := ⟨r, []⟩

/-- A span is noted if there is one. -/
def noted (l : Ledger) (o : Outcome Region FlashSpan) : Ledger :=
  ⟨o.state, o.result.toOption.toList ++ l.spans⟩

def perform (l : Ledger) : Request → Ledger
  | .reserve size => l.noted (Region.reserve size.toNat l.region)
  | .reserveErased size => l.noted (Region.reserveErased size.toNat l.region)
  | .reset => ⟨(Region.reset l.region).state, []⟩
  | .arm f => { l with region.device := l.region.device.arm f }

/-- Requests one after the other, also after failures. -/
def run (l : Ledger) (requests : List Request) : Ledger := requests.foldl perform l

/-! ### What is to hold -/

/-- The next free offset is a sector boundary of the partition, and the spans are whole sectors of it that
have no byte in common. -/
structure Orderly (l : Ledger) : Prop where
  free_aligned : l.region.nextFree % l.region.sector = 0
  free_le : l.region.nextFree ≤ l.region.partition.size
  aligned : ∀ s ∈ l.spans, s.offset % l.region.sector = 0 ∧ s.len % l.region.sector = 0
  inside : ∀ s ∈ l.spans, s.offset + s.len ≤ l.region.partition.size
  apart : l.spans.Pairwise FlashSpan.Apart

/-- How a request for `size` bytes ends, where `x` does as the trial `t` as long as sums fit in words. -/
structure Answers (r : Region) (size : Nat) (t : Trial Region FlashSpan) (x : Act Region FlashSpan) :
    Prop where
  /-- A span starts at the old offset and has as few sectors as hold all bytes. -/
  span : ∀ s, (x r).result = .ok s → s.offset = r.nextFree ∧ s.addr = r.address r.nextFree ∧
    s.len % r.sector = 0 ∧ size ≤ s.len ∧ s.len < size + r.sector ∧
    (x r).state.nextFree = r.nextFree + s.len
  /-- What fits is granted, unless the device is to fail. -/
  granted : alignUp size r.sector ≤ r.remaining → r.Unarmed → ∃ s, (x r).result = .ok s
  /-- What does not fit is refused, and nothing has changed. -/
  refused : alignUp size r.sector < sizeLimit → r.remaining < alignUp size r.sector →
    x r = ⟨.error (.outOfFlash r.name (alignUp size r.sector) r.remaining), r, []⟩
  /-- Every sum is a word if the rounded size is. -/
  fits : alignUp size r.sector < sizeLimit → t r = some (x r)
  /-- Where it is none, there is no answer. -/
  stuck : sizeLimit ≤ alignUp size r.sector →
    t r = none ∧ x r = ⟨.error (.breach .sizeOverflow), r, []⟩

/-! ### One request -/

variable {r : Region} {size : Nat} {l : Ledger}

lemma reserve_eq (hr : r.Addressed) (hroom : alignUp size r.sector ≤ r.remaining) :
    Region.reserve size r = ⟨.ok (r.nextSpan size), { r with nextFree := r.nextFree + alignUp size r.sector },
      [.regionReserved r.name (alignUp size r.sector) r.nextFree]⟩ := by
  have hfits := hr.sound.fits
  have hdevice := hr.device_lt
  have hword : ¬ sizeLimit ≤ alignUp size r.sector := by
    rw [Region.remaining] at hroom
    omega
  rw [Region.reserve, if_neg hword, if_neg (Nat.not_lt.2 hroom)]
  rfl

lemma answers_reserve (hr : r.Addressed) : Answers r size (Guarded.reserveSpan size) (Region.reserve size) where
  span := by
    intro s hs
    obtain ⟨hspan, -, hstate⟩ := (Region.reserve_sat size r).of_result hs
    have hpos := hr.sound.sector_pos
    rw [hstate, hspan]
    exact ⟨rfl, rfl, Nat.mod_eq_zero_of_dvd (dvd_alignUp size _ hpos), le_alignUp size hpos,
      alignUp_lt size hpos, rfl⟩
  granted hroom _ := ⟨_, congrArg Outcome.result (reserve_eq hr hroom)⟩
  refused := by
    intro hlt hfull
    rw [Region.reserve, if_neg (Nat.not_le.2 hlt), if_pos hfull]
  fits hlt := (Guarded.reserveSpan_runs_of_lt hr hlt).eq
  stuck h := ⟨Guarded.reserveSpan_stuck hr.sound h, by rw [Region.reserve, if_pos h]⟩

/-- What is not reserved is not erased. -/
lemma answers_reserveErased (hr : r.Addressed) :
    Answers r size (Guarded.reserveErasedSpan size) (Region.reserveErased size) where
  span := by
    intro s hs
    obtain ⟨-, hspan, hfree⟩ := (Region.reserveErased_grown size r).of_result hs
    have hpos := hr.sound.sector_pos
    rw [hfree, hspan]
    exact ⟨rfl, rfl, Nat.mod_eq_zero_of_dvd (dvd_alignUp size _ hpos), le_alignUp size hpos,
      alignUp_lt size hpos, rfl⟩
  granted := by
    intro hroom hunarmed
    have hreserve := reserve_eq hr hroom
    have hgrown := Region.grown_reserved r.nextFree hroom
    have hle := (hgrown.sound hr.sound).free_le
    have herase := Region.erase_sat (s := r.nextSpan size) (hgrown.sound hr.sound) (hgrown.unarmed hunarmed)
      hr.sound.free_aligned (Nat.mod_eq_zero_of_dvd (dvd_alignUp _ _ hr.sound.sector_pos)) hle
    have hsat : Sat (Region.reserveErased size) r (fun _ _ => True) fun _ _ => False :=
      Sat.bind_of_ok hreserve (Sat.bind (sat_ofOp.2 herase) (fun _ _ _ => trivial) fun _ _ h => h)
    obtain ⟨s, _, _, hs, -⟩ := hsat.exists_ok
    exact ⟨s, congrArg Outcome.result hs⟩
  refused hlt hfull := bind_of_error ((answers_reserve hr).refused hlt hfull)
  fits hlt := (Guarded.reserveErasedSpan_runs hr hlt).eq
  stuck h := ⟨Guarded.reserveErasedSpan_stuck hr.sound h, bind_of_error ((answers_reserve hr).stuck h).2⟩

/-- What every request keeps. All spans are below the next free offset. -/
structure Inv (l : Ledger) : Prop where
  region : l.region.Addressed
  aligned : ∀ s ∈ l.spans, s.offset % l.region.sector = 0 ∧ s.len % l.region.sector = 0
  below : ∀ s ∈ l.spans, s.offset + s.len ≤ l.region.nextFree
  apart : l.spans.Pairwise FlashSpan.Apart

lemma Inv.orderly (h : l.Inv) : l.Orderly where
  free_aligned := h.region.sound.free_aligned
  free_le := h.region.sound.free_le
  aligned := h.aligned
  inside s hs := Nat.le_trans (h.below s hs) h.region.sound.free_le
  apart := h.apart

/-- A span that is handed out is above all others. -/
lemma Inv.noted (h : l.Inv) {t : Trial Region FlashSpan} {x : Act Region FlashSpan}
    (hx : Answers l.region size t x) (hgrown : Region.Grown l.region.nextFree l.region (x l.region).state) :
    (l.noted (x l.region)).Inv := by
  have hsector : (x l.region).state.sector = l.region.sector := hgrown.sector_eq
  have hlow : ∀ s ∈ l.spans, s.offset + s.len ≤ (x l.region).state.nextFree :=
    fun s hs => Nat.le_trans (h.below s hs) hgrown.free_le
  unfold Ledger.noted
  rcases hresult : (x l.region).result with e | s
  · exact ⟨hgrown.addressed h.region, hsector ▸ h.aligned, hlow, h.apart⟩
  · obtain ⟨hoffset, -, hlen, -, -, hfree⟩ := hx.span s hresult
    have hstart : s.offset % l.region.sector = 0 := hoffset ▸ h.region.sound.free_aligned
    refine ⟨hgrown.addressed h.region, ?_, ?_, ?_⟩
    · exact List.forall_mem_cons.2 ⟨hsector ▸ ⟨hstart, hlen⟩, hsector ▸ h.aligned⟩
    · exact List.forall_mem_cons.2 ⟨by rw [hoffset, hfree], hlow⟩
    · refine List.pairwise_cons.2 ⟨fun q hq => .inl ?_, h.apart⟩
      rw [hoffset]
      exact h.below q hq

lemma Inv.perform (h : l.Inv) (q : Request) : (l.perform q).Inv := by
  cases q with
  | reserve size =>
    refine h.noted (answers_reserve h.region) (Sat.state ((Region.reserve_sat _ _).mono ?_ ?_))
    · rintro s r ⟨hs, hroom, rfl⟩
      subst hs
      exact Region.grown_reserved _ hroom
    · rintro _ _ rfl
      exact .refl _ _
  | reserveErased size =>
    exact h.noted (answers_reserveErased h.region)
      (Sat.state ((Region.reserveErased_grown _ _).mono (fun _ _ hr => hr.1) fun _ _ hr => hr))
  | reset =>
    have hr := h.region.sound
    refine ⟨⟨⟨hr.1, hr.2, hr.3, hr.4, hr.5, Nat.zero_le _, Nat.zero_mod _⟩, h.region.2, h.region.3⟩,
      ?_, ?_, .nil⟩
    · exact nofun
    · exact nofun
  | arm f =>
    have hr := h.region.sound
    exact ⟨⟨⟨hr.1, hr.2, hr.3, hr.4, hr.5, hr.6, hr.7⟩, h.region.2, h.region.3⟩,
      h.aligned, h.below, h.apart⟩

lemma Inv.run (h : l.Inv) (requests : List Request) : (l.run requests).Inv := by
  induction requests generalizing l with
  | nil => exact h
  | cons q requests ih => exact ih (h.perform q)

/-! ### Any requests -/

/-- **Flash is handed out soundly** on every region that can be created, whatever has been asked for and
whatever has failed: what has been handed out is in order, and the next request of any size is answered as it
should be, unless its size cannot be rounded up to a word. -/
theorem requests_answered {name : String} {device : Nor} {p : Partition} {region : Region}
    (hsize : device.size < sizeLimit) (hsector : device.sector < sizeLimit)
    (hcreate : ((Region.create name device p : Act Unit Region) ()).result = .ok region)
    (requests : List Request) :
    ((start region).run requests).Orderly ∧ ∀ size : UInt64,
      Answers ((start region).run requests).region size.toNat (Guarded.reserveSpan size.toNat)
        (Region.reserve size.toNat) ∧
      Answers ((start region).run requests).region size.toNat (Guarded.reserveErasedSpan size.toNat)
        (Region.reserveErased size.toNat) := by
  obtain ⟨hsound, hdevice, -, -⟩ := Region.create_sound.of_result hcreate
  have hstart : (start region).Inv :=
    ⟨⟨hsound, hdevice ▸ hsize, by rwa [start, Region.sector, hdevice]⟩, nofun, nofun, .nil⟩
  have hrun := hstart.run requests
  exact ⟨hrun.orderly, fun size => ⟨answers_reserve hrun.region, answers_reserveErased hrun.region⟩⟩

/-- A span, one that is not erased for a failure, sizes that are too large, and two spans after a reset. -/
def mixedRequests : List Request :=
  [.reserve 20, .arm ⟨.erase, 0⟩, .reserveErased 1, .reserve 0xffffffffffffffff, .reserveErased 17,
    .reset, .reserveErased 33, .reserve 0, .reserve 16]

/-- In four sectors of 16 bytes. The largest size of all is not refused: it is not answered. -/
theorem requests_answered_fourSectors :
    ((start (Depot.fourSectors 16)).run mixedRequests).Orderly ∧
      ((start (Depot.fourSectors 16)).run mixedRequests).spans.map (fun s => (s.offset, s.len)) =
        [(48, 16), (48, 0), (0, 48)] ∧
      Region.reserve 1 ((start (Depot.fourSectors 16)).run mixedRequests).region =
        ⟨.error (.outOfFlash "iflash" 16 0), ((start (Depot.fourSectors 16)).run mixedRequests).region, []⟩ ∧
      Guarded.reserveSpan 0xffffffffffffffff ((start (Depot.fourSectors 16)).run mixedRequests).region =
        none := by
  obtain ⟨horderly, hanswers⟩ := @requests_answered _ (.create 64 16 erasedByte) _ _ (by decide +kernel)
    (by decide) (Depot.create_fourSectors 16 (by decide +kernel)) mixedRequests
  refine ⟨horderly, by decide +kernel, ?_, ?_⟩
  · exact (hanswers 1).1.refused (by decide +kernel) (by decide +kernel)
  · exact ((hanswers 0xffffffffffffffff).1.stuck (by decide +kernel)).1

end Ledger

end FlashLink
