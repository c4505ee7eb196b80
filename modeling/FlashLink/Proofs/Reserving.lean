import FlashLink.Load.Loader
import FlashLink.Proofs.Blocks
import FlashLink.Proofs.Parsing

/-!
Reserving space for a module. Flash spans follow one another from the bump offset on, both blocks come
fresh from the pool, and every section with a class gets exactly one place. Reserving looks at nothing
but the allocators, so buffers and stored bytes have no say in it.
-/

namespace FlashLink

open Act

/-! ### Placements -/

namespace Placement

lemma get?_set (p : Placement) (i j : Nat) (a : Addr) :
    (p.set i a).get? j = if i = j ∧ i < p.bases.size then some a else p.get? j := by
  unfold set get?
  rw [Array.getD_eq_getD_getElem?, Array.getD_eq_getD_getElem?, Array.getElem?_setIfInBounds]
  by_cases hij : i = j
  · subst hij
    by_cases hi : i < p.bases.size
    · simp [hi]
    · simp [hi]
  · simp [hij]

/-- The placement with several sections placed in turn. -/
def setAll (p : Placement) (spots : List (Nat × Addr)) : Placement :=
  spots.foldl (fun p q => p.set q.1 q.2) p

lemma get?_setAll_of_notMem {spots : List (Nat × Addr)} {i : Nat} (p : Placement)
    (h : i ∉ spots.map (·.1)) : (p.setAll spots).get? i = p.get? i := by
  induction spots generalizing p with
  | nil => rfl
  | cons q rest ih =>
    rw [List.map_cons, List.mem_cons, not_or] at h
    refine (ih (p.set q.1 q.2) h.2).trans ?_
    rw [get?_set, if_neg fun hq => h.1 hq.1.symm]

lemma get?_setAll {spots : List (Nat × Addr)} {i : Nat} {a : Addr} (p : Placement)
    (hnodup : (spots.map (·.1)).Nodup) (hi : i < p.bases.size) (h : (i, a) ∈ spots) :
    (p.setAll spots).get? i = some a := by
  induction spots generalizing p with
  | nil => cases h
  | cons q rest ih =>
    rw [List.map_cons, List.nodup_cons] at hnodup
    rcases List.mem_cons.1 h with rfl | h
    · refine (get?_setAll_of_notMem (p.set i a) hnodup.1).trans ?_
      rw [get?_set, if_pos ⟨rfl, hi⟩]
    · exact ih (p.set q.1 q.2) hnodup.2 (by simpa [set] using hi) h

lemma get?_create (n i : Nat) : (create n).get? i = none := by
  unfold create get?
  rw [Array.getD_eq_getD_getElem?, Array.getElem?_replicate]
  split_ifs <;> rfl

end Placement

/-- The places of the sections of a block. -/
def Block.spots (b : Block) : List (Nat × Addr) :=
  b.offsets.map fun q => (q.1.index, address b.ram q.2)

lemma Block.place_eq (b : Block) (p : Placement) : b.place p = p.setAll b.spots := by
  rw [Block.place, Placement.setAll, Block.spots, List.foldl_map]

/-! ### Reservations -/

/-- Spans of whole sectors, one after another from offset `k` on, up to `k'`. -/
def Region.Spans (r : Region) : Nat → Nat → List (SectionInfo × FlashSpan) → Prop
  | k, k', [] => k = k'
  | k, k', (s, span) :: rest => span = ⟨k, alignUp s.size r.sector, r.address k⟩ ∧
    r.Spans (k + span.len) k' rest

/-- The block is fresh from the pool, and laid out for the sections. -/
def Block.Given (sections : List SectionInfo) (p p' : Pool) : Option Block → Prop
  | none => sections = [] ∧ p' = p
  | some b => sections ≠ [] ∧ b.offsets.map (·.1) = sections ∧
    BlockLayout.Laid 0 b.ram.len b.offsets ∧ p.used ≤ b.ram.offset ∧
    b.ram.addr = p.base + UInt32.ofNat b.ram.offset ∧ b.ram.len ≤ p.capacity - b.ram.offset ∧
    p' = { p with used := b.ram.offset + b.ram.len }

lemma Block.reserve_given (sections : List SectionInfo) (p : Pool) :
    Sat (Block.reserve sections) p (fun b p' => Block.Given sections p p' b) (fun _ p' => p' = p) := by
  refine (Block.reserve_sat sections p).mono ?_ fun _ _ h => h
  rintro (_ | b) p' h
  · exact h
  · obtain ⟨hne, hoffsets, hram, hroom, hp⟩ := h
    have hlaid := BlockLayout.layFrom_laid sections 0 1
    have hmap := BlockLayout.layFrom_sections sections 0 1
    have hlen : b.ram.len = (BlockLayout.layFrom sections 0 1).size := by rw [hram]; rfl
    refine ⟨hne, hoffsets ▸ hmap, ?_, ?_, ?_, hroom, hp⟩
    · rw [hoffsets, hlen]
      exact hlaid
    · rw [hram]
      exact Pool.le_nextBlock ..
    · rw [hram]
      rfl

/-- A block of sections that are not empty lies in the pool. -/
lemma Block.Given.fits {sections : List SectionInfo} {p p' : Pool} {b : Block}
    (h : Block.Given sections p p' (some b)) (hpos : ∀ s ∈ sections, 0 < s.size) :
    b.ram.offset + b.ram.len ≤ p.capacity := by
  obtain ⟨hne, hmap, hlaid, -, -, hroom, -⟩ := h
  obtain ⟨s, hs⟩ := List.exists_mem_of_ne_nil _ hne
  obtain ⟨q, hq, rfl⟩ := List.mem_map.1 (hmap ▸ hs)
  have h1 := (hlaid.mem hq).2
  have h2 := hpos q.1 hs
  omega

namespace Region

variable {r : Region} {k k' : Nat} {flash : List (SectionInfo × FlashSpan)}

lemma Spans.le (h : r.Spans k k' flash) : k ≤ k' := by
  induction flash generalizing k with
  | nil => exact Nat.le_of_eq h
  | cons q rest ih =>
    have := ih h.2
    omega

lemma Spans.aligned (h : r.Spans k k' flash) (hsector : 0 < r.sector) (hk : k % r.sector = 0) :
    k' % r.sector = 0 := by
  induction flash generalizing k with
  | nil => exact (show k = k' from h) ▸ hk
  | cons q rest ih =>
    obtain ⟨hspan, hrest⟩ := h
    refine ih hrest (Nat.mod_eq_zero_of_dvd (Nat.dvd_add (Nat.dvd_of_mod_eq_zero hk) ?_))
    rw [hspan]
    exact dvd_alignUp _ _ hsector

lemma Spans.mem_aligned (h : r.Spans k k' flash) (hsector : 0 < r.sector) (hk : k % r.sector = 0)
    {q : SectionInfo × FlashSpan} (hq : q ∈ flash) : q.2.offset % r.sector = 0 := by
  induction flash generalizing k with
  | nil => cases hq
  | cons p rest ih =>
    obtain ⟨hspan, hrest⟩ := h
    rcases List.mem_cons.1 hq with rfl | hq
    · rw [hspan]
      exact hk
    · refine ih hrest (Nat.mod_eq_zero_of_dvd (Nat.dvd_add (Nat.dvd_of_mod_eq_zero hk) ?_)) hq
      rw [hspan]
      exact dvd_alignUp _ _ hsector

/-- There is nothing between the spans. -/
lemma Spans.cover (h : r.Spans k k' flash) {i : Nat} (h1 : k ≤ i) (h2 : i < k') :
    ∃ q ∈ flash, q.2.offset ≤ i ∧ i < q.2.offset + q.2.len := by
  induction flash generalizing k with
  | nil =>
    have : k = k' := h
    omega
  | cons p rest ih =>
    obtain ⟨hspan, hrest⟩ := h
    have hoffset : p.2.offset = k := by rw [hspan]
    by_cases hi : i < k + p.2.len
    · exact ⟨p, .head _, by omega, by omega⟩
    · obtain ⟨q, hq, hin⟩ := ih hrest (by omega)
      exact ⟨q, .tail _ hq, hin⟩

/-- Only the sectors and the partition matter. -/
lemma Spans.congr {r' : Region} (h : r.Spans k k' flash) (hsector : r'.sector = r.sector)
    (hpartition : r'.partition = r.partition) : r'.Spans k k' flash := by
  induction flash generalizing k with
  | nil => exact h
  | cons q rest ih =>
    refine ⟨?_, ih h.2⟩
    rw [hsector, Region.address, hpartition]
    exact h.1

lemma Spans.mem (h : r.Spans k k' flash) {s : SectionInfo} {span : FlashSpan}
    (hs : (s, span) ∈ flash) : k ≤ span.offset ∧ span.offset + span.len ≤ k' ∧
      span = ⟨span.offset, alignUp s.size r.sector, r.address span.offset⟩ := by
  induction flash generalizing k with
  | nil => cases hs
  | cons q rest ih =>
    rcases List.mem_cons.1 hs with rfl | hs
    · obtain ⟨rfl, hrest⟩ := h
      exact ⟨Nat.le_refl _, Spans.le hrest, rfl⟩
    · obtain ⟨h1, h2, h3⟩ := ih h.2 hs
      exact ⟨by omega, h2, h3⟩

end Region

/-- The context with its allocators advanced. -/
def Context.advanced (c : Context) (nextFree used : Nat) : Context :=
  { c with xip := { c.xip with nextFree }, pool := { c.pool with used } }

namespace Job

/-- What reserving makes of a context. -/
structure Reserved (c : Context) (o : Object) (space : Reservation) (c' : Context) : Prop where
  sections_eq : space.flash.map (·.1) = o.inFlash
  spans : c.xip.Spans c.xip.nextFree c'.xip.nextFree space.flash
  /-- There is room, unless nothing is asked for. -/
  room : c.xip.nextFree ≤ c.xip.partition.size → c'.xip.nextFree ≤ c.xip.partition.size
  data : ∃ p, Block.Given (o.ofClass .data) c.pool p space.data ∧
    Block.Given (o.ofClass .bss) p c'.pool space.bss
  advanced : ∃ used, c' = c.advanced c'.xip.nextFree used

namespace Reserved

variable {c c' : Context} {o : Object} {space : Reservation} (h : Reserved c o space c')

include h

/-- Of the region, only the bump offset moves. -/
lemma xip_eq : c'.xip = { c.xip with nextFree := c'.xip.nextFree } := by
  obtain ⟨used, hc⟩ := h.advanced
  conv_lhs => rw [hc]
  rfl

/-- Of the pool, only what is in use changes. -/
lemma pool_eq : c'.pool = { c.pool with used := c'.pool.used } := by
  obtain ⟨used, hc⟩ := h.advanced
  rw [hc]
  rfl

lemma partition_eq : c'.xip.partition = c.xip.partition := by rw [h.xip_eq]

lemma sector_eq : c'.xip.sector = c.xip.sector := by
  rw [h.xip_eq]
  rfl

lemma address_eq (i : Nat) : c'.xip.address i = c.xip.address i := by
  rw [h.xip_eq]
  rfl

lemma base_eq : c'.pool.base = c.pool.base := by rw [h.pool_eq]

lemma mem_eq : c'.pool.mem = c.pool.mem := by rw [h.pool_eq]

lemma capacity_eq : c'.pool.capacity = c.pool.capacity := congrArg Array.size h.mem_eq

lemma sound (hs : c.xip.Sound) : c'.xip.Sound := by
  have hle := h.room hs.free_le
  have haligned := h.spans.aligned hs.sector_pos hs.free_aligned
  rw [h.xip_eq]
  exact ⟨hs.1, hs.2, hs.3, hs.4, hs.5, hle, haligned⟩

lemma unarmed (hc : c.xip.Unarmed) : c'.xip.Unarmed := by
  rw [h.xip_eq]
  exact hc

end Reserved

/-- A block that has been reserved on the way from `c` to `e`, for some sections. -/
structure Housed (c e : Context) (sections : List SectionInfo) (b : Block) : Prop where
  sections_eq : b.offsets.map (·.1) = sections
  laid : BlockLayout.Laid 0 b.ram.len b.offsets
  used_le : c.pool.used ≤ b.ram.offset
  le_used : b.ram.offset + b.ram.len ≤ e.pool.used
  addr_eq : b.ram.addr = c.pool.base + UInt32.ofNat b.ram.offset
  fits : (∀ s ∈ sections, 0 < s.size) → b.ram.offset + b.ram.len ≤ c.pool.capacity

/-- Both blocks are housed, that of the data sections before the other one. -/
lemma Reserved.housed {c c' : Context} {o : Object} {space : Reservation} (h : Reserved c o space c') :
    (∀ b ∈ space.data, Housed c c' (o.ofClass .data) b) ∧
      (∀ b ∈ space.bss, Housed c c' (o.ofClass .bss) b) ∧
      ∀ d ∈ space.data, ∀ b ∈ space.bss, d.ram.offset + d.ram.len ≤ b.ram.offset := by
  obtain ⟨p, hdata, hbss⟩ := h.data
  have hnext : p.used ≤ c'.pool.used := by
    rcases hb : space.bss with _ | b <;> rw [hb] at hbss
    · exact Nat.le_of_eq (by rw [hbss.2])
    · obtain ⟨-, -, -, hle, -, -, hp⟩ := hbss
      rw [hp]
      dsimp only
      omega
  have hfirst : c.pool.used ≤ p.used ∧ p.base = c.pool.base ∧ p.capacity = c.pool.capacity ∧
      ∀ d ∈ space.data, d.ram.offset + d.ram.len = p.used := by
    rcases hd : space.data with _ | d <;> rw [hd] at hdata
    · rw [hdata.2]
      exact ⟨Nat.le_refl _, rfl, rfl, fun _ h => by cases h⟩
    · obtain ⟨-, -, -, hle, -, -, hp⟩ := hdata
      rw [hp]
      exact ⟨by dsimp only; omega, rfl, rfl, fun _ h => by cases h; rfl⟩
  obtain ⟨hle, hbase, hcapacity, hend⟩ := hfirst
  refine ⟨fun b hb => ?_, fun b hb => ?_, fun d hd b hb => ?_⟩
  · have hd := hend b hb
    rw [hb] at hdata
    have hfits := hdata.fits
    obtain ⟨-, h2, h3, h4, h5, -, -⟩ := hdata
    exact ⟨h2, h3, h4, by omega, h5, hfits⟩
  · rw [hb] at hbss
    have hfits := hbss.fits
    obtain ⟨-, h2, h3, h4, h5, -, h7⟩ := hbss
    exact ⟨h2, h3, by omega, Nat.le_of_eq (by rw [h7]), hbase ▸ h5, hcapacity ▸ hfits⟩
  · rw [hb] at hbss
    rw [hend d hd]
    exact hbss.2.2.2.1

lemma reserveFlash_sat (sections : List SectionInfo) (j : Job) :
    Sat (reserveFlash sections) j
      (fun flash j' => flash.map (·.1) = sections ∧
        j.context.xip.Spans j.context.xip.nextFree j'.context.xip.nextFree flash ∧
        (j.context.xip.nextFree ≤ j.context.xip.partition.size →
          j'.context.xip.nextFree ≤ j.context.xip.partition.size) ∧
        j' = ⟨j.desk, j.context.advanced j'.context.xip.nextFree j.context.pool.used⟩)
      (fun _ _ => True) := by
  induction sections generalizing j with
  | nil => exact ⟨rfl, rfl, id, rfl⟩
  | cons s rest ih =>
    unfold reserveFlash
    refine Sat.bind (P := fun span j' => span = j.context.xip.nextSpan s.size ∧
        span.len ≤ j.context.xip.remaining ∧
        j' = ⟨j.desk, j.context.advanced (j.context.xip.nextFree + span.len) j.context.pool.used⟩)
      (G := fun _ _ => True) ?_ ?_ fun _ _ _ => trivial
    · rw [sat_zoom]
      refine (Region.reserve_sat s.size _).mono ?_ fun _ _ _ => trivial
      rintro span _ ⟨h1, h2, rfl⟩
      exact ⟨h1, h2, rfl⟩
    rintro span _ ⟨hspan, hroom, rfl⟩
    refine Sat.bind (ih _) ?_ fun _ _ _ => trivial
    rintro flash j' ⟨h1, h2, h3, h4⟩
    refine ⟨congrArg (s :: ·) h1, ⟨hspan, ?_⟩, fun hle => h3 ?_, h4⟩
    · exact h2.congr rfl rfl
    · change j.context.xip.nextFree + span.len ≤ j.context.xip.partition.size
      rw [Region.remaining] at hroom
      omega

/-- A block of the pool moves the mark of the pool, and nothing else. -/
lemma reserveBlock_advances (sections : List SectionInfo) (desk : Desk) (c : Context) (n used : Nat) :
    Sat (zoom poolPart (Block.reserve sections)) ⟨desk, c.advanced n used⟩
      (fun block j' => ∃ used', Block.Given sections { c.pool with used } { c.pool with used := used' }
        block ∧ j' = ⟨desk, c.advanced n used'⟩) (fun _ _ => True) := by
  rw [sat_zoom]
  refine (Block.reserve_given _ _).mono ?_ fun _ _ _ => trivial
  rintro (_ | b) p hp
  · exact ⟨used, ⟨hp.1, rfl⟩, by rw [hp.2]; rfl⟩
  · obtain ⟨h1, h2, h3, h4, h5, h6, rfl⟩ := hp
    exact ⟨_, ⟨h1, h2, h3, h4, h5, h6, rfl⟩, rfl⟩

lemma reserve_sat (o : Object) (j : Job) :
    Sat (reserve o) j (fun space j' => Reserved j.context o space j'.context ∧ j'.desk = j.desk)
      (fun _ _ => True) := by
  obtain ⟨desk, c⟩ := j
  unfold reserve
  refine Sat.bind (reserveFlash_sat o.inFlash _) ?_ fun _ _ _ => trivial
  rintro flash j' ⟨hsections, hspans, hroom, hj'⟩
  generalize j'.context.xip.nextFree = n at hspans hroom hj'
  subst hj'
  refine Sat.bind (reserveBlock_advances _ desk c n _) ?_ fun _ _ _ => trivial
  rintro data _ ⟨used, hdata, rfl⟩
  refine Sat.bind (reserveBlock_advances _ desk c n used) ?_ fun _ _ _ => trivial
  rintro bss _ ⟨used', hbss, rfl⟩
  exact ⟨⟨hsections, hspans, hroom, ⟨_, hdata, hbss⟩, used', rfl⟩, rfl⟩

/-! ### What reserving depends on -/

/-- The allocators stand alike. -/
structure Alike (c e : Context) : Prop where
  name_eq : e.xip.name = c.xip.name
  partition_eq : e.xip.partition = c.xip.partition
  sector_eq : e.xip.sector = c.xip.sector
  free_eq : e.xip.nextFree = c.xip.nextFree
  base_eq : e.pool.base = c.pool.base
  used_eq : e.pool.used = c.pool.used
  capacity_eq : e.pool.capacity = c.pool.capacity

lemma Alike.refl (c : Context) : Alike c c := ⟨rfl, rfl, rfl, rfl, rfl, rfl, rfl⟩

lemma Alike.advanced {c e : Context} (h : Alike c e) (n u : Nat) :
    Alike (c.advanced n u) (e.advanced n u) := ⟨h.1, h.2, h.3, rfl, h.5, rfl, h.7⟩

/-- Both jobs have moved their allocators on, to the same places. -/
def Abreast (j k j' k' : Job) : Prop :=
  ∃ n u, j' = ⟨j.desk, j.context.advanced n u⟩ ∧ k' = ⟨k.desk, k.context.advanced n u⟩

variable {j k j' k' : Job}

lemma Abreast.refl (h : Alike j.context k.context) : Abreast j k j k := by
  refine ⟨j.context.xip.nextFree, j.context.pool.used, rfl, ?_⟩
  rw [← h.free_eq, ← h.used_eq]
  rfl

lemma Abreast.trans {j' k' j'' k'' : Job} (h : Abreast j k j' k') (h' : Abreast j' k' j'' k'') :
    Abreast j k j'' k'' := by
  obtain ⟨_, _, rfl, rfl⟩ := h
  obtain ⟨n, u, rfl, rfl⟩ := h'
  exact ⟨n, u, rfl, rfl⟩

lemma Abreast.alike (h : Abreast j k j' k') (ha : Alike j.context k.context) :
    Alike j'.context k'.context := by
  obtain ⟨n, u, rfl, rfl⟩ := h
  exact ha.advanced n u

lemma reserveSpan_sim (ha : Alike j.context k.context) (size : Nat) :
    Sim (zoom xipPart (Region.reserve size)) (zoom xipPart (Region.reserve size)) j k
      (fun _ => Abreast j k) (fun _ => Abreast j k) := by
  rw [sim_zoom]
  unfold Sim Region.reserve xipPart
  dsimp only
  rw [Region.remaining, Region.remaining, Region.address, Region.address, ha.partition_eq,
    ha.sector_eq, ha.free_eq, ha.name_eq]
  split_ifs
  · exact ⟨rfl, .refl ha⟩
  · exact ⟨rfl, .refl ha⟩
  · refine ⟨rfl, _, j.context.pool.used, rfl, ?_⟩
    simp only [Context.advanced, ha.name_eq, ha.partition_eq, ← ha.used_eq]

lemma reserveFlash_sim (ha : Alike j.context k.context) (sections : List SectionInfo) :
    Sim (reserveFlash sections) (reserveFlash sections) j k (fun _ => Abreast j k)
      (fun _ => Abreast j k) := by
  induction sections generalizing j k with
  | nil => exact sim_pure.2 (.refl ha)
  | cons s rest ih =>
    refine Sim.bind (reserveSpan_sim ha s.size) ?_ fun _ _ _ h => h
    intro span j' k' h
    refine Sim.bind (ih (h.alike ha)) ?_ fun _ _ _ h' => h.trans h'
    exact fun _ _ _ h' => sim_pure.2 (h.trans h')

lemma reserveBlock_sim (ha : Alike j.context k.context) (sections : List SectionInfo) :
    Sim (zoom poolPart (Block.reserve sections)) (zoom poolPart (Block.reserve sections)) j k
      (fun _ => Abreast j k) (fun _ => Abreast j k) := by
  rw [sim_zoom]
  unfold Block.reserve
  split_ifs
  · exact sim_pure.2 (.refl ha)
  refine Sim.bind (S := fun _ p q => Abreast j k ((poolPart j).2 p) ((poolPart k).2 q))
    (G := fun _ p q => Abreast j k ((poolPart j).2 p) ((poolPart k).2 q)) ?_
    (fun _ _ _ h => Sim.note_bind (sim_pure.2 h)) fun _ _ _ h => h
  unfold Sim Pool.reserve poolPart
  dsimp only
  rw [ha.used_eq, ha.base_eq, ha.capacity_eq]
  split_ifs
  · exact ⟨rfl, .refl ha⟩
  · exact ⟨rfl, .refl ha⟩
  · refine ⟨rfl, j.context.xip.nextFree, _, rfl, ?_⟩
    simp only [Context.advanced, ha.base_eq, ← ha.free_eq]

/-- Two jobs whose allocators stand alike reserve the same space. -/
lemma reserve_sim (ha : Alike j.context k.context) (o : Object) :
    Sim (reserve o) (reserve o) j k (fun _ => Abreast j k) (fun _ => Abreast j k) := by
  refine Sim.bind (reserveFlash_sim ha _) ?_ fun _ _ _ h => h
  intro flash j' k' h1
  refine Sim.bind (reserveBlock_sim (h1.alike ha) _) ?_ fun _ _ _ h => h1.trans h
  intro data j'' k'' h2
  refine Sim.bind (reserveBlock_sim ((h1.trans h2).alike ha) _) ?_
    fun _ _ _ h => (h1.trans h2).trans h
  exact fun _ _ _ h => sim_pure.2 ((h1.trans h2).trans h)

end Job

end FlashLink
