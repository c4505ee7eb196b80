import FlashLink.Proofs.GuardedCopying
import FlashLink.Proofs.Sectors

/-!
One block for the variables of a class, whatever their sizes and alignments are.

The sections lie in the block in their order, each at a multiple of its alignment and past the one before it,
and the block ends with the last of them. The block itself lies past all blocks before it, and in the pool
unless it has no bytes: room is only looked for where there are bytes, and the offset of a block of empty
sections may be past the end. A block that does not fit leaves no trace.
-/

namespace FlashLink

open Act Trial

/-! ### Layout -/

namespace BlockLayout

variable {start stop : Nat} {offsets : List (SectionInfo × Nat)}

/-- Each section ends before all that follow it. -/
lemma Laid.pairwise (h : Laid start stop offsets) :
    offsets.Pairwise fun q r => q.2 + q.1.size ≤ r.2 := by
  induction offsets generalizing start with
  | nil => exact .nil
  | cons q rest ih => exact .cons (fun r hr => (h.2.mem hr).1) (ih h.2)

lemma layFrom_aligned (sections : List SectionInfo) (size align : Nat) :
    ∀ q ∈ (layFrom sections size align).offsets, q.2 % q.1.header.align = 0 := by
  induction sections generalizing size align with
  | nil => simp [layFrom]
  | cons s rest ih =>
    have hs := Nat.mod_eq_zero_of_dvd (dvd_alignUp size _ (align_lt s.header).1)
    exact List.forall_mem_cons.2 ⟨hs, ih _ _⟩

/-- A layout ends with its last section. -/
lemma layFrom_last (sections : List SectionInfo) (size align : Nat) :
    ∀ q ∈ (layFrom sections size align).offsets.getLast?,
      q.2 + q.1.size = (layFrom sections size align).size := by
  induction sections generalizing size align with
  | nil => simp [layFrom]
  | cons s rest ih =>
    have hrest := ih (alignUp size s.header.align + s.size) (max align s.header.align)
    have hmap := layFrom_sections rest (alignUp size s.header.align + s.size) (max align s.header.align)
    rw [layFrom]
    dsimp only
    rcases rest with _ | ⟨t, rest⟩
    · simp [layFrom]
    · -- what is last is among the rest
      rcases hoffsets : (layFrom (t :: rest) (alignUp size s.header.align + s.size)
        (max align s.header.align)).offsets with _ | ⟨q, tail⟩
      · rw [hoffsets] at hmap
        cases hmap
      · rw [hoffsets] at hrest
        rwa [List.getLast?_cons_cons]

end BlockLayout

namespace Placement

/-- The last place that a section is given is the one that counts. -/
lemma get?_setAll_last {before after : List (Nat × Addr)} {i : Nat} {a : Addr} (p : Placement)
    (hi : i < p.bases.size) (h : i ∉ after.map (·.1)) :
    (p.setAll (before ++ (i, a) :: after)).get? i = some a := by
  have hsplit : p.setAll (before ++ (i, a) :: after) = ((p.setAll before).set i a).setAll after := by
    rw [setAll, List.foldl_append, List.foldl_cons]
    rfl
  rw [hsplit, get?_setAll_of_notMem _ h, get?_set, if_pos ⟨rfl, by rwa [size_setAll]⟩]

end Placement

/-! ### Words -/

namespace Guarded

variable {p : Pool} {size align : Nat}

end Guarded

namespace Pool

variable {p : Pool} {size align : Nat}

lemma reserve_room (hoffset : (p.nextBlock size align).offset < sizeLimit)
    (hroom : size ≤ p.capacity - (p.nextBlock size align).offset) :
    p.reserve size align = ⟨.ok (p.nextBlock size align),
      { p with used := (p.nextBlock size align).offset + size },
      [.poolReserved size (p.nextBlock size align).offset]⟩ := by
  rw [nextBlock] at hoffset hroom
  unfold reserve
  dsimp only at hoffset hroom ⊢
  rw [if_neg (Nat.not_le.2 hoffset), if_neg (Nat.not_lt.2 hroom)]
  rfl

end Pool

/-! ### Reserving and placing -/

/-- The placement with the sections of a block in it, if there is a block. -/
def Placement.enter (pl : Placement) (b : Option Block) : Placement := (b.map (·.place pl)).getD pl

namespace Block

/-- Reserves one block for all sections and places them, unless there are none. -/
def settle (sections : List SectionInfo) : Act (Pool × Placement) (Option Block) := do
  let b ← Act.zoom Part.first (reserve sections)
  modify fun s => (s.1, s.2.enter b)
  return b

/-- The same, with everything demanded on the way. -/
def settleTrial (sections : List SectionInfo) : Trial (Pool × Placement) (Option Block) := do
  let b ← Trial.zoom Part.first (Guarded.reserveBlock sections)
  modify fun s => (s.1, s.2.enter b)
  return b

/-- The block that sections need next. -/
def wanted (sections : List SectionInfo) (p : Pool) : RamBlock :=
  p.nextBlock (BlockLayout.ofSections sections).size (BlockLayout.ofSections sections).align

/-! ### What is to hold -/

/-- The block `b` is for the sections. It is from the pool `p`, which is `p'` then, and where the sections are
is noted in `pl`, which is `pl'` then. -/
structure Settled (sections : List SectionInfo) (p p' : Pool) (pl pl' : Placement) (b : Block) : Prop where
  order : b.offsets.map (·.1) = sections
  aligned : ∀ q ∈ b.offsets, q.2 % q.1.header.align = 0
  /-- Each section ends before all that follow it. -/
  apart : b.offsets.Pairwise fun q r => q.2 + q.1.size ≤ r.2
  /-- The block ends with its last section. -/
  last : ∀ q ∈ b.offsets.getLast?, q.2 + q.1.size = b.ram.len
  above : p.used ≤ b.ram.offset
  /-- A block with bytes lies in the pool. -/
  inside : (∃ s ∈ sections, 0 < s.size) → b.ram.offset + b.ram.len ≤ p.capacity
  addr_eq : b.ram.addr = p.base + UInt32.ofNat b.ram.offset
  pool_eq : p' = { p with used := b.ram.offset + b.ram.len }
  /-- The last section with an index is where the placement says. -/
  placed : ∀ before q after, b.offsets = before ++ q :: after → q.1.index ∉ after.map (·.1.index) →
    q.1.index < pl.bases.size → pl'.get? q.1.index = some (b.ram.addr + UInt32.ofNat q.2)
  kept : ∀ i ∉ sections.map (·.index), pl'.get? i = pl.get? i

/-- How settling sections ends, whatever they are. -/
structure Answers (sections : List SectionInfo) (p : Pool) (pl : Placement) : Prop where
  none_iff : (settle sections (p, pl)).result = .ok none ↔ sections = []
  /-- For no sections nothing is done. -/
  nothing : sections = [] → settle sections (p, pl) = ⟨.ok none, (p, pl), []⟩
  settled : ∀ b, (settle sections (p, pl)).result = .ok (some b) → b.ram = wanted sections p ∧
    Settled sections p (settle sections (p, pl)).state.1 pl (settle sections (p, pl)).state.2 b
  /-- A failure leaves no trace. -/
  failed : ∀ e, (settle sections (p, pl)).result = .error e → (settle sections (p, pl)).state = (p, pl)
  granted : sections ≠ [] → (wanted sections p).offset < sizeLimit →
    (wanted sections p).len ≤ p.capacity - (wanted sections p).offset →
    ∃ b, (settle sections (p, pl)).result = .ok (some b)
  refused : sections ≠ [] → (wanted sections p).len < sizeLimit → (wanted sections p).offset < sizeLimit →
    p.capacity - (wanted sections p).offset < (wanted sections p).len →
    settle sections (p, pl) =
      ⟨.error (.outOfMemory (wanted sections p).len (p.capacity - (wanted sections p).offset)), (p, pl), []⟩
  /-- Every sum is a word if the offset and the length of the block are. -/
  fits : (wanted sections p).len < sizeLimit → (wanted sections p).offset < sizeLimit →
    settleTrial sections (p, pl) = some (settle sections (p, pl))
  /-- Where one of them is none, there is no answer. -/
  stuck : sections ≠ [] → sizeLimit ≤ (wanted sections p).len ∨ sizeLimit ≤ (wanted sections p).offset →
    settleTrial sections (p, pl) = none

/-! ### Single blocks -/

variable {sections : List SectionInfo} {p p' : Pool} {pl : Placement} {b : Option Block} {e : Error}
  {es : List Event}

lemma reserve_of_ne (h : sections ≠ []) :
    reserve sections = (do
      let ram ← Pool.reserve (BlockLayout.ofSections sections).size (BlockLayout.ofSections sections).align
      Act.note (.blockPlaced (BlockLayout.ofSections sections).size ram.addr)
      return some ⟨ram, (BlockLayout.ofSections sections).offsets⟩) := by
  unfold reserve
  rw [if_neg (by simpa using h)]

lemma settle_ok (h : reserve sections p = ⟨.ok b, p', es⟩) :
    settle sections (p, pl) = ⟨.ok b, (p', pl.enter b), es⟩ := by
  have hzoom : Act.zoom Part.first (reserve sections) (p, pl) = ⟨.ok b, (p', pl), es⟩ := by
    rw [zoom_eq, show (Part.first (p, pl)).1 = p from rfl, h]
    rfl
  refine (bind_of_ok hzoom).trans ?_
  simp only [modify, modifyGet, MonadStateOf.modifyGet, Bind.bind, Act.bind, Pure.pure, Act.pure,
    List.append_nil]

/-- The sections of a block are entered one after the other, each in the place of any before it. -/
lemma enter_placed {b : Block} (pl : Placement) {before after : List (SectionInfo × Nat)} {q : SectionInfo × Nat}
    (hoffsets : b.offsets = before ++ q :: after) (hlast : q.1.index ∉ after.map (·.1.index))
    (hindex : q.1.index < pl.bases.size) :
    (pl.enter (some b)).get? q.1.index = some (address b.ram q.2) := by
  change (b.place pl).get? _ = _
  rw [place_eq, spots, hoffsets, List.map_append, List.map_cons]
  refine Placement.get?_setAll_last pl hindex ?_
  rwa [List.map_map]

lemma enter_kept {b : Block} (pl : Placement) {i : Nat} (hi : i ∉ b.offsets.map (·.1.index)) :
    (pl.enter (some b)).get? i = pl.get? i := by
  change (b.place pl).get? _ = _
  rw [place_eq, spots]
  refine Placement.get?_setAll_of_notMem pl ?_
  rwa [List.map_map]

lemma reserve_settled (sections : List SectionInfo) (p : Pool) (pl : Placement) :
    Sat (reserve sections) p
      (fun b p' => match b with
        | none => sections = [] ∧ p' = p
        | some b => sections ≠ [] ∧ b.ram = wanted sections p ∧
          Settled sections p p' pl (pl.enter (some b)) b)
      (fun _ p' => p' = p) := by
  refine (reserve_sat sections p).mono ?_ fun _ _ h => h
  rintro (_ | b) p' h
  · exact h
  obtain ⟨hne, hoffsets, hram, hroom, hp'⟩ := h
  have horder : b.offsets.map (·.1) = sections := hoffsets ▸ BlockLayout.layFrom_sections sections 0 1
  have hlaid : BlockLayout.Laid 0 b.ram.len b.offsets := by
    rw [hoffsets, hram]
    exact BlockLayout.layFrom_laid sections 0 1
  have hindices : b.offsets.map (·.1.index) = sections.map (·.index) := by rw [← horder, List.map_map]; rfl
  refine ⟨hne, hram, horder, ?_, hlaid.pairwise, ?_, ?_, ?_, ?_, hp', fun before q after => enter_placed pl, ?_⟩
  · rw [hoffsets]
    exact BlockLayout.layFrom_aligned sections 0 1
  · rw [hoffsets, hram]
    exact BlockLayout.layFrom_last sections 0 1
  · rw [hram]
    exact Pool.le_nextBlock ..
  · rintro ⟨s, hs, hpos⟩
    obtain ⟨q, hq, rfl⟩ := List.mem_map.1 (horder ▸ hs)
    have hend := (hlaid.mem hq).2
    omega
  · rw [hram]
    rfl
  · exact fun i hi => enter_kept pl (hindices ▸ hi)

lemma reserve_granted (hne : sections ≠ []) (hoffset : (wanted sections p).offset < sizeLimit)
    (hroom : (wanted sections p).len ≤ p.capacity - (wanted sections p).offset) :
    ∃ b p' es, reserve sections p = ⟨.ok (some b), p', es⟩ := by
  rw [reserve_of_ne hne, bind_of_ok (Pool.reserve_room hoffset hroom)]
  exact ⟨_, _, _, rfl⟩

lemma settle_sat (sections : List SectionInfo) (p : Pool) (pl : Placement) :
    Sat (settle sections) (p, pl)
      (fun b s => match b with
        | none => sections = [] ∧ s = (p, pl)
        | some b => b.ram = wanted sections p ∧ Settled sections p s.1 pl s.2 b)
      (fun _ s => s = (p, pl)) := by
  refine Sat.bind (P := fun b s => s.2 = pl ∧ match b with
      | none => sections = [] ∧ s.1 = p
      | some b => b.ram = wanted sections p ∧ Settled sections p s.1 pl (pl.enter (some b)) b)
    (G := fun _ s => s = (p, pl)) ?_ ?_ fun _ _ h => h
  · rw [sat_zoom]
    refine (reserve_settled sections p pl).mono ?_ ?_
    · rintro (_ | b) p' h
      · exact ⟨rfl, h⟩
      · exact ⟨rfl, h.2⟩
    · rintro _ _ rfl
      rfl
  · rintro (_ | b) ⟨p', _⟩ ⟨rfl, h⟩
    · obtain ⟨hnil, rfl⟩ := h
      exact Sat.modify_bind (sat_pure.2 ⟨hnil, rfl⟩)
    · exact Sat.modify_bind (sat_pure.2 h)

end Block

/-! ### Whole modules -/

namespace Job

/-- The placement with the sections in flash only. -/
def Reservation.inFlash (r : Reservation) (o : Object) : Placement :=
  r.flash.foldl (fun pl q => pl.set q.1.index q.2.addr) (.create o.sections.size)

/-- Reserving a block for some sections is half of settling them. -/
lemma reserveBlock_sat (sections : List SectionInfo) (j : Job) :
    Sat (Act.zoom poolPart (Block.reserve sections)) j
      (fun b j' => ∀ pl, ∃ es, Block.settle sections (j.context.pool, pl) =
        ⟨.ok b, (j'.context.pool, pl.enter b), es⟩)
      (fun _ _ => True) := by
  rw [sat_zoom]
  unfold Sat
  rcases hrun : Block.reserve sections (poolPart j).1 with ⟨e | b, p', es⟩
  · trivial
  · exact fun pl => ⟨es, Block.settle_ok hrun⟩

/-- **The variables of a module are settled** in two blocks, those that are copied from the file first: the
placement that the module is linked with is what becomes of the placement of the sections in flash. -/
theorem reserve_settles (o : Object) (j : Job) :
    Sat (reserve o) j
      (fun r j' => ∃ p pl es es',
        Block.settle (o.ofClass .data) (j.context.pool, r.inFlash o) = ⟨.ok r.data, (p, pl), es⟩ ∧
          Block.settle (o.ofClass .bss) (p, pl) = ⟨.ok r.bss, (j'.context.pool, r.placement o), es'⟩)
      (fun _ _ => True) := by
  unfold reserve
  refine Sat.bind (reserveFlash_sat o.inFlash j) ?_ fun _ _ _ => trivial
  rintro flash j1 ⟨-, -, -, hj1⟩
  have hpool : j1.context.pool = j.context.pool := by
    rw [hj1]
    rfl
  refine Sat.bind (reserveBlock_sat (o.ofClass .data) j1) ?_ fun _ _ _ => trivial
  intro data j2 hdata
  refine Sat.bind (reserveBlock_sat (o.ofClass .bss) j2) ?_ fun _ _ _ => trivial
  intro bss j3 hbss
  obtain ⟨es, hes⟩ := hdata (Reservation.inFlash ⟨flash, data, bss⟩ o)
  obtain ⟨es', hes'⟩ := hbss ((Reservation.inFlash ⟨flash, data, bss⟩ o).enter data)
  exact ⟨_, _, es, es', hpool ▸ hes, hes'⟩

end Job

end FlashLink
