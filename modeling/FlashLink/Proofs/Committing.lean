import FlashLink.Proofs.Reserving

/-!
Committing a module to the space reserved for it. Nothing but that space is written, whatever fails on
the way. Committing succeeds exactly if every section can be linked and every flash section can be cut
into chunks, and then every section is there, linked.
-/

namespace FlashLink

open Act Relocation

lemma SectionInfo.size_lt (s : SectionInfo) : s.size < sizeLimit :=
  Nat.lt_trans (UInt32.toNat_lt s.header.rawSize) (by decide)

/-- The first of the spans is large enough for its section. -/
lemma Region.Spans.fits {r : Region} {k n : Nat} {s : SectionInfo} {span : FlashSpan}
    {rest : List (SectionInfo × FlashSpan)} (h : r.Spans k n ((s, span) :: rest)) (hsound : r.Sound)
    (hunarmed : r.Unarmed) (hk : k % r.sector = 0) (hn : n ≤ r.partition.size) :
    Bench.Fits s span r := by
  obtain ⟨hspan, hrest⟩ := h
  have hle := hrest.le
  have hoffset : span.offset = k := by rw [hspan]
  refine ⟨hsound, hunarmed, by rw [hoffset]; exact hk, ?_, ?_, by omega⟩
  · rw [hspan]
    exact Nat.mod_eq_zero_of_dvd (dvd_alignUp _ _ hsound.sector_pos)
  · rw [hspan]
    exact le_alignUp _ hsound.sector_pos

namespace Job

variable {chunk k : Nat} {src : Source} {j : Job} {scope c : Scope} {strict : Bool}
  {space : Reservation}

/-- Every section of the list is linked in its span. -/
def Streamable (chunk : Nat) (c : Scope) (src : Source) (strict : Bool)
    (flash : List (SectionInfo × FlashSpan)) : Prop :=
  ∀ q ∈ flash, Divisible (q.1.entries src.data) chunk q.1.size 0 ∧
    ∃ out, q.1.Links src q.2.addr strict (c.rule src) 0 q.1.size out

/-- One section is streamed after the other. -/
lemma streamAll_rule {s : SectionInfo} {span : FlashSpan} {rest : List (SectionInfo × FlashSpan)}
    {sum : Tally} {P : Tally → Job → Prop} {G : Error → Job → Prop}
    (h : Sat (Bench.stream c strict s span) (j.desk, j.context.xip)
      (fun done w => Sat (streamAll c strict rest (sum.add done)) ⟨w.1, { j.context with xip := w.2 }⟩ P G)
      fun e w => G e ⟨w.1, { j.context with xip := w.2 }⟩) :
    Sat (streamAll c strict ((s, span) :: rest) sum) j P G := by
  unfold streamAll
  exact Sat.seq (sat_zoom.2 h)

/-- Streaming several sections touches the flash from their first span on. -/
lemma streamAll_sat {flash : List (SectionInfo × FlashSpan)} {k n : Nat} {sum : Tally}
    (hd : j.desk.Ready chunk c src) (hword : chunk % wordSize = 0) (hpos : 0 < chunk)
    (hsound : j.context.xip.Sound) (hunarmed : j.context.xip.Unarmed)
    (hspans : j.context.xip.Spans k n flash) (hk : k % j.context.xip.sector = 0)
    (hn : n ≤ j.context.xip.partition.size) (hheld : ∀ q ∈ flash, q.1.TableHeld src) :
    Sat (streamAll c strict flash sum) j
      (fun _ j' => j'.desk.Ready chunk c src ∧
        Region.Touched k j.context.xip j'.context.xip ∧
        j'.context = { j.context with xip := j'.context.xip } ∧
        ∀ q ∈ flash, Divisible (q.1.entries src.data) chunk q.1.size 0 ∧
          q.1.Links src q.2.addr strict (c.rule src) 0 q.1.size
            (j'.context.xip.bytes q.2.offset q.1.size))
      (fun _ _ => ¬ Streamable chunk c src strict flash) := by
  induction flash generalizing k sum j with
  | nil => exact ⟨hd, .refl _ _, rfl, fun q hq => by cases hq⟩
  | cons q rest ih =>
    obtain ⟨s, span⟩ := q
    have hfits := hspans.fits hsound hunarmed hk hn
    obtain ⟨hspan, hrest⟩ := hspans
    have hoffset : span.offset = k := by rw [hspan]
    refine streamAll_rule ((Bench.stream_sat hd (hheld _ (.head _)) hword hpos s.size_lt hfits).mono ?_
      fun _ _ h h' => h (h' _ (.head _)))
    rintro done ⟨d₁, r₁⟩ ⟨hd₁, ht₁, hdiv, hlinks⟩
    rw [hoffset] at ht₁
    refine (ih hd₁ (ht₁.sound hsound) (ht₁.unarmed hunarmed)
      (hrest.congr ht₁.sector_eq ht₁.partition_eq) ?_ (by rw [ht₁.partition_eq]; exact hn)
      fun q hq => hheld q (.tail _ hq)).mono ?_ fun _ _ h h' => h fun q hq => h' q (.tail _ hq)
    · dsimp only
      rw [ht₁.sector_eq]
      exact Nat.mod_eq_zero_of_dvd (Nat.dvd_add (Nat.dvd_of_mod_eq_zero hk)
        (Nat.dvd_of_mod_eq_zero hfits.len_aligned))
    · rintro _ j2 ⟨hd2, ht2, hc2, hrest2⟩
      refine ⟨hd2, ht₁.trans (ht2.mono fun _ h => by omega), hc2, ?_⟩
      refine List.forall_mem_cons.2 ⟨⟨hdiv, ?_⟩, hrest2⟩
      -- the later sections lie above
      dsimp only
      rw [ht2.bytes_eq fun k _ _ => by have := hfits.size_le; omega]
      exact hlinks

/-- Every section of the block, if there is one, can be linked. -/
def Copyable (c : Scope) (src : Source) (strict : Bool) (data : Option Block) : Prop :=
  ∀ b ∈ data, ∀ q ∈ b.offsets, ∃ out,
    q.1.Links src (Block.address b.ram q.2) strict (c.rule src) 0 q.1.size out

/-- The pool places that a reservation is written to: its copied sections, and its cleared block. -/
def Reservation.Covers (r : Reservation) (i : Nat) : Prop :=
  (∃ b ∈ r.data, ∃ q ∈ b.offsets, Workshop.Within b.ram q.1 q.2 i) ∨
    ∃ b ∈ r.bss, b.ram.offset ≤ i ∧ i < b.ram.offset + b.ram.len

/-! ### Footprint -/

/-- What committing a reservation writes to, in flash from offset `k` on. -/
structure Wrote (space : Reservation) (k : Nat) (e e' : Context) : Prop where
  xip : Region.Touched k e.xip e'.xip
  others : e' = { e with xip := e'.xip, pool := e'.pool }
  pool : Pool.Changed space.Covers e.pool e'.pool

lemma Wrote.refl (space : Reservation) (k : Nat) (e : Context) : Wrote space k e e :=
  ⟨.refl _ _, rfl, .refl _⟩

lemma Wrote.trans {e e' e'' : Context} (h : Wrote space k e e') (h' : Wrote space k e' e'') :
    Wrote space k e e'' :=
  ⟨h.1.trans h'.1, by rw [h'.2, h.2], h.3.trans h'.3⟩

/-- The last thing that committing does. -/
def clearLast (space : Reservation) (sum : Tally) : Act Job Tally :=
  match space.bss with
  | some b => do zoom poolPart b.clear; return sum
  | _ => return sum

/-- Clearing the last block changes nothing else. -/
lemma clear_sat (space : Reservation) (sum : Tally) (j : Job) :
    Sat (clearLast space sum) j
      (fun _ j' => ∃ p, j' = ⟨j.desk, { j.context with pool := p }⟩ ∧
        Pool.Changed (fun i => ∃ b ∈ space.bss, b.ram.offset ≤ i ∧ i < b.ram.offset + b.ram.len)
          j.context.pool p ∧
        ∀ b ∈ space.bss, ∀ i, b.ram.offset ≤ i → i < b.ram.offset + b.ram.len → i < p.mem.size →
          p.mem[i]? = some 0)
      (fun _ _ => False) := by
  unfold clearLast
  rcases hb : space.bss with _ | b <;> dsimp only
  · exact ⟨j.context.pool, rfl, .refl _, fun _ h => by cases h⟩
  refine Sat.bind (P := fun _ j' => j' = ⟨j.desk, { j.context with pool := j.context.pool.clear b.ram }⟩)
    (G := fun _ _ => False) (sat_zoom.2 ((Block.clear_sat b j.context.pool).mono
      (fun _ _ h => by rw [h]; rfl) fun _ _ h => h)) ?_ fun _ _ h => h.elim
  rintro _ _ rfl
  refine ⟨_, rfl, Pool.changed_clear fun i h1 h2 => ⟨b, rfl, h1, h2⟩, ?_⟩
  rintro _ ⟨⟩ i h1 h2 hi
  rw [Pool.clear, Bytes.size_fill] at hi
  change (j.context.pool.mem.fill _ _ _)[i]? = _
  rw [Bytes.getElem?_fill, if_pos ⟨h1, h2⟩, Array.getElem?_eq_getElem hi]
  rfl

lemma streamAll_wrote {flash : List (SectionInfo × FlashSpan)} (hk : ∀ q ∈ flash, k ≤ q.2.offset)
    (sum : Tally) (j : Job) :
    Sat (streamAll scope strict flash sum) j (fun _ j' => Wrote space k j.context j'.context)
      (fun _ j' => Wrote space k j.context j'.context) := by
  induction flash generalizing sum j with
  | nil => exact .refl _ _ _
  | cons q rest ih =>
    refine streamAll_rule ((Bench.stream_touched (hk q (.head _)) scope strict q.1 _).mono (fun done w h => ?_)
      fun _ _ h => ⟨h, rfl, .refl _⟩)
    have hwrote : Wrote space k j.context { j.context with xip := w.2 } := ⟨h, rfl, .refl _⟩
    exact (ih (fun p hp => hk p (.tail _ hp)) _ _).mono (fun _ _ h' => hwrote.trans h')
      fun _ _ h' => hwrote.trans h'

/-- Committing writes nothing but what is reserved, also if it fails. -/
lemma commit_wrote (hk : ∀ q ∈ space.flash, k ≤ q.2.offset) (j : Job) :
    Sat (commit scope strict space) j (fun _ j' => Wrote space k j.context j'.context)
      (fun _ j' => Wrote space k j.context j'.context) := by
  have hclear : ∀ (sum : Tally) (j2 : Job), Wrote space k j.context j2.context →
      Sat (clearLast space sum) j2 (fun _ j' => Wrote space k j.context j'.context)
        (fun _ j' => Wrote space k j.context j'.context) := by
    intro sum j2 h2
    refine (clear_sat space sum j2).mono ?_ fun _ _ h => h.elim
    rintro _ _ ⟨p, rfl, hp, -⟩
    exact h2.trans ⟨.refl _ _, rfl, hp.mono fun i hi => .inr hi⟩
  unfold commit
  refine Sat.bind (streamAll_wrote hk .zero j) (fun sum j1 h1 => ?_) fun _ _ h => h
  rcases hd : space.data with _ | b <;> dsimp only
  · exact Sat.pure_bind (hclear sum j1 h1)
  · have hcovers : ∀ i, (∃ q ∈ b.offsets, Workshop.Within b.ram q.1 q.2 i) → space.Covers i :=
      fun i hi => .inl ⟨b, hd, hi⟩
    refine Sat.bind (P := fun _ j' => Wrote space k j.context j'.context)
      (G := fun _ j' => Wrote space k j.context j'.context) ?_ (fun sum' j2 h2 => hclear sum' j2 h2)
      fun _ _ h => h
    rw [sat_zoom]
    exact (Workshop.copyAll_changed scope strict b.ram b.offsets sum _).mono
      (fun _ _ h => h1.trans ⟨.refl _ _, rfl, h.mono hcovers⟩)
      fun _ _ h => h1.trans ⟨.refl _ _, rfl, h.mono hcovers⟩

/-! ### Contents -/

/-- Every section of the reservation is in its place, linked. -/
structure Linked (chunk : Nat) (scope : Scope) (src : Source) (strict : Bool) (space : Reservation)
    (e' : Context) : Prop where
  divisible : ∀ q ∈ space.flash, Divisible (q.1.entries src.data) chunk q.1.size 0
  flash : ∀ q ∈ space.flash, q.1.Links src q.2.addr strict (scope.rule src) 0 q.1.size
    (e'.xip.bytes q.2.offset q.1.size)
  data : ∀ b ∈ space.data, ∀ q ∈ b.offsets,
    q.1.Links src (Block.address b.ram q.2) strict (scope.rule src) 0 q.1.size
      (e'.pool.mem.slice (b.ram.offset + q.2) q.1.size)
  bss : ∀ b ∈ space.bss, ∀ i, b.ram.offset ≤ i → i < b.ram.offset + b.ram.len →
    e'.pool.mem[i]? = some 0

/-- What committing leaves behind. Space has been reserved in a context `c`, which made it `e`. -/
structure Committed (chunk : Nat) (scope : Scope) (src : Source) (strict : Bool)
    (space : Reservation) (c e e' : Context) : Prop extends
  Wrote space c.xip.nextFree e e', Linked chunk scope src strict space e'

/-- Every section of the copied block is in its place in the pool, linked. -/
def DataLinked (c : Scope) (src : Source) (strict : Bool) (space : Reservation) (mem : Bytes) : Prop :=
  ∀ b ∈ space.data, ∀ q ∈ b.offsets,
    q.1.Links src (Block.address b.ram q.2) strict (c.rule src) 0 q.1.size
      (mem.slice (b.ram.offset + q.2) q.1.size)

section

variable {o : Object} {e e' : Context}

lemma ofClass_pos (hsections : ∀ s ∈ o.sections.toList, s.TableHeld src ∧ (s.cls.isSome → 0 < s.size))
    {cls : SectionClass} {s : SectionInfo} (hs : s ∈ o.ofClass cls) : 0 < s.size := by
  obtain ⟨hmem, hcls⟩ := List.mem_filter.1 hs
  exact (hsections s hmem).2 (by rw [eq_of_beq hcls]; rfl)

/-- The copied block is filled if all of its sections can be linked. -/
lemma copyBlock_sat {b : Block} (hb : space.data = some b) (hd : j.desk.Ready chunk c src)
    (hreserved : Reserved e o space e')
    (hsections : ∀ s ∈ o.sections.toList, s.TableHeld src ∧ (s.cls.isSome → 0 < s.size))
    (hcapacity : j.context.pool.mem.size = e.pool.capacity) (sum : Tally) :
    Sat (zoom workshopPart (Workshop.copyAll c strict b.ram b.offsets sum)) j
      (fun _ j' => ∃ d p, j' = ⟨d, { j.context with pool := p }⟩ ∧ d.Ready chunk c src ∧
        p.mem.size = e.pool.capacity ∧ DataLinked c src strict space p.mem)
      (fun _ _ => ¬ Copyable c src strict space.data) := by
  have hhoused := hreserved.housed.1 b hb
  have hmembers : ∀ q ∈ b.offsets, q.1.TableHeld src ∧ 0 < q.1.size ∧ q.1.size < sizeLimit := by
    intro q hq
    have hmem : q.1 ∈ o.ofClass .data := hhoused.sections_eq ▸ List.mem_map_of_mem hq
    exact ⟨(hsections q.1 (List.mem_filter.1 hmem).1).1, ofClass_pos hsections hmem, q.1.size_lt⟩
  have hfits : b.ram.offset + b.ram.len ≤ j.context.pool.mem.size :=
    hcapacity ▸ hhoused.fits fun _ hs => ofClass_pos hsections hs
  rw [sat_zoom]
  refine ((Workshop.copyAll_sat hd hmembers hhoused.laid hfits).and
    (Workshop.copyAll_changed c strict b.ram b.offsets sum _)).mono ?_ ?_
  · rintro _ ⟨d, p⟩ ⟨⟨hd', hcopied⟩, hchanged⟩
    refine ⟨d, p, rfl, hd', hchanged.size_eq.trans hcapacity, fun b' hb' => ?_⟩
    obtain rfl : b = b' := Option.some.inj (hb.symm.trans hb')
    exact hcopied
  · rintro _ _ ⟨h, -⟩ h'
    exact h (h' b hb)

/-- The cleared block comes after the copied one, which stays. -/
lemma clearLast_linked (hreserved : Reserved e o space e')
    (hsections : ∀ s ∈ o.sections.toList, s.TableHeld src ∧ (s.cls.isSome → 0 < s.size))
    (hcapacity : j.context.pool.mem.size = e.pool.capacity)
    (hdata : DataLinked c src strict space j.context.pool.mem) (sum : Tally) :
    Sat (clearLast space sum) j
      (fun _ j' => j'.desk = j.desk ∧ j'.context.xip = j.context.xip ∧
        DataLinked c src strict space j'.context.pool.mem ∧
        ∀ b ∈ space.bss, ∀ i, b.ram.offset ≤ i → i < b.ram.offset + b.ram.len →
          j'.context.pool.mem[i]? = some 0)
      (fun _ _ => False) := by
  obtain ⟨hdatas, hbsss, hapart⟩ := hreserved.housed
  refine (clear_sat space sum j).mono ?_ fun _ _ h => h.elim
  rintro _ _ ⟨p, rfl, hchanged, hzero⟩
  refine ⟨rfl, rfl, fun b hb q hq => ?_, fun b hb i h1 h2 => hzero b hb i h1 h2 ?_⟩
  · have hkeep := hchanged.slice_eq (s := b.ram.offset + q.2) (n := q.1.size) (by
      rintro i h1 h2 ⟨d, hd, h3, -⟩
      have := hapart b hb d hd
      have := ((hdatas b hb).laid.mem hq).2
      omega)
    dsimp only at hkeep ⊢
    rw [hkeep]
    exact hdata b hb q hq
  · have hfits := (hbsss b hb).fits fun _ hs => ofClass_pos hsections hs
    have hsize := hchanged.size_eq
    omega

end

/-- **Committing** succeeds exactly if every section can be linked, and every flash section can be cut
into chunks. -/
lemma commit_sat {o : Object} {e : Context} (hd : j.desk.Ready chunk c src)
    (hword : chunk % wordSize = 0) (hpos : 0 < chunk) (hreserved : Reserved e o space j.context)
    (hsound : e.xip.Sound) (hunarmed : e.xip.Unarmed)
    (hsections : ∀ s ∈ o.sections.toList, s.TableHeld src ∧ (s.cls.isSome → 0 < s.size)) :
    Sat (commit c strict space) j
      (fun _ j' => j'.desk.Ready chunk c src ∧
        Committed chunk c src strict space e j.context j'.context)
      (fun _ _ => ¬ (Streamable chunk c src strict space.flash ∧
        Copyable c src strict space.data)) := by
  have hsound' := hreserved.sound hsound
  refine Sat.mono (P := fun _ j' => (j'.desk.Ready chunk c src ∧
      Linked chunk c src strict space j'.context) ∧ Wrote space e.xip.nextFree j.context j'.context)
    (E := fun _ j' => ¬ (Streamable chunk c src strict space.flash ∧
      Copyable c src strict space.data) ∧ Wrote space e.xip.nextFree j.context j'.context)
    (Sat.and ?_ (commit_wrote (fun q hq => (hreserved.spans.mem hq).1) j))
    (fun _ _ ⟨⟨h1, h2⟩, hw⟩ => ⟨h1, hw, h2⟩) fun _ _ h => h.1
  unfold commit
  -- the flash sections
  refine Sat.bind (streamAll_sat (k := e.xip.nextFree) (n := j.context.xip.nextFree) hd hword hpos
    hsound' (hreserved.unarmed hunarmed) (hreserved.spans.congr hreserved.sector_eq hreserved.partition_eq)
    (hreserved.sector_eq ▸ hsound.free_aligned) hsound'.free_le ?_) ?_ fun _ _ h h' => h h'.1
  · intro q hq
    have hmem : q.1 ∈ o.inFlash := hreserved.sections_eq ▸ List.mem_map_of_mem hq
    exact (hsections q.1 (List.mem_filter.1 hmem).1).1
  rintro sum j1 ⟨hd1, -, hc1, hflash⟩
  have hcapacity : j1.context.pool.mem.size = e.pool.capacity := by
    rw [hc1]
    exact hreserved.capacity_eq
  -- the cleared block, after the copied one
  have hlast : ∀ (sum : Tally) (j2 : Job), j2.desk.Ready chunk c src →
      j2.context.xip = j1.context.xip → j2.context.pool.mem.size = e.pool.capacity →
      DataLinked c src strict space j2.context.pool.mem →
      Sat (clearLast space sum) j2
        (fun _ j' => j'.desk.Ready chunk c src ∧ Linked chunk c src strict space j'.context)
        (fun _ _ => ¬ (Streamable chunk c src strict space.flash ∧
          Copyable c src strict space.data)) := by
    intro sum j2 hd2 hxip hsize hdata
    refine (clearLast_linked hreserved hsections hsize hdata sum).mono ?_ fun _ _ h => h.elim
    rintro _ j3 ⟨hdesk, hxip', hdata', hzero⟩
    refine ⟨hdesk ▸ hd2, fun q hq => (hflash q hq).1, fun q hq => ?_, hdata', hzero⟩
    rw [hxip', hxip]
    exact (hflash q hq).2
  rcases hdata : space.data with _ | b <;> dsimp only
  · refine Sat.pure_bind ?_
    rw [← hdata]
    refine hlast sum j1 hd1 rfl hcapacity fun b hb => ?_
    rw [hdata] at hb
    cases hb
  · rw [← hdata]
    refine Sat.bind (copyBlock_sat hdata hd1 hreserved hsections hcapacity sum) ?_
      fun _ _ h h' => h h'.2
    rintro sum' _ ⟨d2, p2, rfl, hd2, hsize, hlinked⟩
    exact hlast sum' _ hd2 rfl hsize hlinked

end Job

end FlashLink
