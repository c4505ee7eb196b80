import FlashLink.Proofs.Arranging
import FlashLink.Proofs.OneShot

/-!
Addresses of variables, against the alignment that their sections ask for.

A section is aligned in its block and the block is in the pool. Where alignments are powers of two the largest of
them is a multiple of all others, so that the offset of a section in the pool is a multiple of its alignment. Its
address is as far from the base of the pool, and no more is promised: an address is exactly as well aligned as the
base is.
-/

namespace FlashLink

open Act

/-! ### Powers of two -/

section PowersOfTwo

variable {a b : Nat}

/-- The larger of two powers of two is a multiple of both. -/
lemma dvd_max_of_isPowerOfTwo (ha : a.isPowerOfTwo) (hb : b.isPowerOfTwo) : a ∣ max a b ∧ b ∣ max a b := by
  obtain ⟨k, rfl⟩ := ha
  obtain ⟨l, rfl⟩ := hb
  rcases Nat.le_total k l with h | h
  · have hpow := Nat.pow_le_pow_right (n := 2) (by decide) h
    rw [max_eq_right hpow]
    exact ⟨Nat.pow_dvd_pow 2 h, Nat.dvd_refl _⟩
  · have hpow := Nat.pow_le_pow_right (n := 2) (by decide) h
    rw [max_eq_left hpow]
    exact ⟨Nat.dvd_refl _, Nat.pow_dvd_pow 2 h⟩

lemma isPowerOfTwo_max (ha : a.isPowerOfTwo) (hb : b.isPowerOfTwo) : (max a b).isPowerOfTwo := by
  rcases Nat.le_total a b with h | h
  · rwa [max_eq_right h]
  · rwa [max_eq_left h]

/-- A power of two below the number of addresses divides it. -/
lemma dvd_addresses (ha : a.isPowerOfTwo) (hlt : a < 2 ^ 32) : a ∣ 2 ^ 32 := by
  obtain ⟨k, rfl⟩ := ha
  exact Nat.pow_dvd_pow 2 (Nat.le_of_lt ((Nat.pow_lt_pow_iff_right (by decide)).1 hlt))

/-- Going on by a multiple, around the end of all addresses too, keeps what is left over. -/
lemma toNat_add_ofNat_mod (base : Addr) (ha : a ∣ 2 ^ 32) (hb : a ∣ b) :
    (base + UInt32.ofNat b).toNat % a = base.toNat % a := by
  rw [UInt32.toNat_add, UInt32.toNat_ofNat', Nat.mod_mod_of_dvd _ ha, Nat.add_mod, Nat.mod_mod_of_dvd _ ha,
    Nat.mod_eq_zero_of_dvd hb, Nat.add_zero, Nat.mod_mod]

end PowersOfTwo

/-! ### Blocks -/

namespace BlockLayout

variable {sections : List SectionInfo} {align : Nat}

/-- The alignment of a layout is a multiple of every one that went into it. -/
lemma layFrom_dvd (h : ∀ s ∈ sections, s.header.align.isPowerOfTwo) (size : Nat) (halign : align.isPowerOfTwo) :
    (layFrom sections size align).align.isPowerOfTwo ∧ align ∣ (layFrom sections size align).align ∧
      ∀ s ∈ sections, s.header.align ∣ (layFrom sections size align).align := by
  induction sections generalizing size align with
  | nil => exact ⟨halign, Nat.dvd_refl _, nofun⟩
  | cons s rest ih =>
    obtain ⟨hs, hrest⟩ := List.forall_mem_cons.1 h
    obtain ⟨hleft, hright⟩ := dvd_max_of_isPowerOfTwo halign hs
    obtain ⟨hpow, hmax, hall⟩ := ih hrest (alignUp size s.header.align + s.size) (isPowerOfTwo_max halign hs)
    exact ⟨hpow, Nat.dvd_trans hleft hmax, List.forall_mem_cons.2 ⟨Nat.dvd_trans hright hmax, hall⟩⟩

end BlockLayout

namespace Block

variable {sections : List SectionInfo} {p p' : Pool} {pl pl' : Placement} {b : Block}

/-- The block is at a multiple of the alignment of each of its sections, and of that of all blocks. -/
lemma wanted_dvd (h : ∀ s ∈ sections, s.header.align.isPowerOfTwo) (p : Pool) :
    Pool.minAlign ∣ (wanted sections p).offset ∧
      ∀ s ∈ sections, s.header.align ∣ (wanted sections p).offset := by
  obtain ⟨hpow, -, hall⟩ := BlockLayout.layFrom_dvd h 0 Nat.isPowerOfTwo_one
  have hmin : Pool.minAlign.isPowerOfTwo := ⟨2, rfl⟩
  obtain ⟨hleft, hright⟩ := dvd_max_of_isPowerOfTwo hpow hmin
  have hpos : 0 < max (BlockLayout.ofSections sections).align Pool.minAlign :=
    Nat.lt_of_lt_of_le (by decide) (Nat.le_max_right ..)
  have hoffset := dvd_alignUp p.used _ hpos
  exact ⟨Nat.dvd_trans hright hoffset, fun s hs => Nat.dvd_trans (hall s hs) (Nat.dvd_trans hleft hoffset)⟩

/-- A block is as well aligned as the pool. -/
lemma Settled.addr_mod (h : Settled sections p p' pl pl' b) (hram : b.ram = wanted sections p)
    (hpow : ∀ s ∈ sections, s.header.align.isPowerOfTwo) :
    b.ram.addr.toNat % Pool.minAlign = p.base.toNat % Pool.minAlign := by
  rw [h.addr_eq]
  exact toNat_add_ofNat_mod p.base (by decide) (hram ▸ (wanted_dvd hpow p).1)

/-- So is every section of it. -/
lemma Settled.section_mod (h : Settled sections p p' pl pl' b) (hram : b.ram = wanted sections p)
    (hpow : ∀ s ∈ sections, s.header.align.isPowerOfTwo) {s : SectionInfo} {offset : Nat}
    (hs : (s, offset) ∈ b.offsets) :
    (address b.ram offset).toNat % s.header.align = p.base.toNat % s.header.align := by
  have hmem : s ∈ sections := h.order ▸ List.mem_map_of_mem hs
  have haddresses := dvd_addresses (hpow s hmem) (BlockLayout.align_lt s.header).2
  have hblock : s.header.align ∣ b.ram.offset := hram ▸ (wanted_dvd hpow p).2 s hmem
  calc (address b.ram offset).toNat % s.header.align
      = b.ram.addr.toNat % s.header.align :=
        toNat_add_ofNat_mod b.ram.addr haddresses (Nat.dvd_of_mod_eq_zero (h.aligned _ hs))
    _ = p.base.toNat % s.header.align := by
        rw [h.addr_eq]
        exact toNat_add_ofNat_mod p.base haddresses hblock

end Block

/-! ### Modules -/

namespace Job

variable {o : Object} {space : Reservation} {c e : Context}

/-- Both blocks of a module are settled, in a pool at the base that it had. -/
lemma Granted.settled (h : Granted o space c e) :
    (∀ b ∈ space.data, ∃ p p' pl pl', p.base = c.pool.base ∧ b.ram = Block.wanted (o.ofClass .data) p ∧
      Block.Settled (o.ofClass .data) p p' pl pl' b) ∧
    ∀ b ∈ space.bss, ∃ p p' pl pl', p.base = c.pool.base ∧ b.ram = Block.wanted (o.ofClass .bss) p ∧
      Block.Settled (o.ofClass .bss) p p' pl pl' b := by
  let d : Desk := ⟨⟨#[], #[], []⟩, ⟨.ofBytes "" #[], .create 0⟩⟩
  obtain ⟨space', j, es, hrun, rfl, rfl⟩ := (h d).exists_ok
  obtain ⟨p, pl, es, es', hdata, hbss⟩ := (reserve_settles o ⟨d, c⟩).of_ok hrun
  have hfirst := (Block.settle_sat _ _ _).of_ok hdata
  have hsecond := (Block.settle_sat _ _ _).of_ok hbss
  have hbase : p.base = c.pool.base := by
    rcases hb : space'.data with _ | b <;> rw [hb] at hfirst
    · exact congrArg (fun s : Pool × Placement => s.1.base) hfirst.2
    · have hpool : p = _ := hfirst.2.pool_eq
      rw [hpool]
  refine ⟨fun b hb => ?_, fun b hb => ?_⟩
  · rw [Option.mem_def.1 hb] at hfirst
    exact ⟨_, _, _, _, rfl, hfirst⟩
  · rw [Option.mem_def.1 hb] at hsecond
    exact ⟨_, _, _, _, hbase, hsecond⟩

/-- A load that succeeds has settled a plan, whatever else it has met with. -/
lemma run_settled {config : LoaderConfig} {src : Source} {name entry : String} {exports : Lookup} {j : Job}
    (hsrc : Source.Same src j.desk.linker.source) (hbatch : 0 < j.desk.scratch.batchSize) :
    Sat (run config name exports entry) j
      (fun image _ => ∃ p e, Plan.Settled config src j.context e p ∧ image = p.image name image.entry)
      (fun _ _ => True) := by
  unfold run
  refine Sat.bind (inspect_sat name hsrc hbatch) ?_ fun _ _ _ => trivial
  rintro ⟨o, symbols⟩ j1 ⟨hinspected, -, hcontext⟩
  refine Sat.bind (reserve_granted o j1) ?_ fun _ _ _ => trivial
  rintro space j2 ⟨hgranted, -⟩
  rw [hcontext] at hgranted
  refine Sat.bind (sat_any _ _) (fun sum j3 _ => ?_) fun _ _ _ => trivial
  refine Sat.bind (sat_any _ _) (fun address j4 _ => ?_) fun _ _ _ => trivial
  exact Sat.note_bind (Sat.get_bind (Sat.note_bind (sat_pure.2
    ⟨⟨o, symbols, space⟩, _, ⟨hinspected, hgranted⟩, rfl⟩)))

/-- Every section of variables is as well aligned as the pool. -/
lemma Plan.Settled.section_mod {config : LoaderConfig} {src : Source} {p : Plan} {name : String} {a : Addr}
    {q : PlacedSection} (h : p.Settled config src c e) (hq : q ∈ (p.image name a).sections)
    (hcls : q.cls.isFlash = false)
    (hpow : ∀ s ∈ p.object.ofClass q.cls, s.header.align.isPowerOfTwo) :
    ∃ header, (Object.rawHeaders src.data)[q.index]? = some header ∧ header.class? = some q.cls ∧
      q.addr.toNat % header.align = c.pool.base.toNat % header.align := by
  obtain ⟨hdata, hbss⟩ := h.granted.settled
  obtain ⟨s, b, offset, hoffset, hqs, ha, hb⟩ := h.block_section hq hcls
  have hblock : ∃ r r' pl pl', r.base = c.pool.base ∧ b.ram = Block.wanted (p.object.ofClass q.cls) r ∧
      Block.Settled (p.object.ofClass q.cls) r r' pl pl' b := by
    rcases hb with ⟨hd, hb⟩ | ⟨hd, hb⟩ <;> rw [hd]
    · exact hdata b hb
    · exact hbss b hb
  obtain ⟨r, r', pl, pl', hbase, hram, hsettled⟩ := hblock
  have hmem : s ∈ p.object.ofClass q.cls := hsettled.order ▸ List.mem_map_of_mem hoffset
  have hs : s ∈ p.object.sections.toList := (List.mem_filter.1 hmem).1
  refine ⟨s.header, (h.header_eq hs hqs).1, ?_, ?_⟩
  · rw [← h.inspected.describes.cls_eq _ s (index_lt h.inspected.describes hs).2, hqs.mem_cls]
  · rw [ha, ← hbase]
    exact hsettled.section_mod hram hpow hoffset

end Job

namespace Loader

open Job

variable {s s' : State} {name entry : String} {exports : Lookup} {image : Image} {es : List Event}

/-- **Variables are as well aligned as the pool**, whatever has been taken from it before: where their sections ask
for powers of two, the address of each is a multiple of what it asks for exactly if the base of the pool is, and the
two blocks begin at words exactly if the pool does. -/
theorem load_aligned (hl : s.loader.Sized) (hload : load name exports entry s = ⟨.ok image, s', es⟩)
    (hpow : ∀ h ∈ Object.rawHeaders s.source.data, h.class? = some .data ∨ h.class? = some .bss →
      h.align.isPowerOfTwo) :
    (∀ q ∈ image.sections, q.cls = .data ∨ q.cls = .bss →
      ∃ h, (Object.rawHeaders s.source.data)[q.index]? = some h ∧ h.class? = some q.cls ∧
        q.addr.toNat % h.align = s.context.pool.base.toNat % h.align) ∧
    ∀ b, image.data = some b ∨ image.bss = some b →
      b.addr.toNat % Pool.minAlign = s.context.pool.base.toNat % Pool.minAlign := by
  obtain ⟨⟨config, scratch⟩, source, context⟩ := s
  have hsettled : Sat (load name exports entry) ⟨⟨config, scratch⟩, source, context⟩
      (fun image _ => ∃ p e, Plan.Settled config source context e p ∧ image = p.image name image.entry)
      (fun _ _ => True) := by
    unfold load
    exact Sat.get_bind (sat_zoom.2 ((run_settled (.refl _) hl.batch).mono (fun _ _ h => h) fun _ _ h => h))
  obtain ⟨p, e, hp, himage⟩ := hsettled.of_ok hload
  have hsections : ∀ cls, cls = .data ∨ cls = .bss → ∀ t ∈ p.object.ofClass cls,
      t.header.align.isPowerOfTwo := by
    intro cls hcls t ht
    obtain ⟨hmem, hclass⟩ := List.mem_filter.1 ht
    have hd := hp.inspected.describes
    have hi := (index_lt hd hmem).2
    refine hpow t.header (List.mem_of_getElem? (hd.header_eq _ t hi)) ?_
    rw [← hd.cls_eq _ t hi, eq_of_beq hclass]
    exact hcls.imp (congrArg some) (congrArg some)
  obtain ⟨hdata, hbss⟩ := hp.granted.settled
  rw [himage]
  refine ⟨fun q hq hcls => hp.section_mod hq ?_ (hsections _ hcls), fun b hb => ?_⟩
  · rcases hcls with h | h <;> rw [h] <;> rfl
  · rcases hb with hb | hb
    · obtain ⟨b', hb', rfl⟩ := Option.map_eq_some_iff.1 hb
      obtain ⟨r, r', pl, pl', hbase, hram, hblock⟩ := hdata b' hb'
      exact hbase ▸ hblock.addr_mod hram (hsections _ (.inl rfl))
    · obtain ⟨b', hb', rfl⟩ := Option.map_eq_some_iff.1 hb
      obtain ⟨r, r', pl, pl', hbase, hram, hblock⟩ := hbss b' hb'
      exact hbase ▸ hblock.addr_mod hram (hsections _ (.inr rfl))

/-- The board with a pool that begins in the middle of a word, of which a byte is taken. -/
def oddContext : Context :=
  { Small.context with pool := { Pool.create 0x20000002 48 with used := 1 } }

/-- Code, a variable at a multiple of 8, and two words to clear. -/
def wideObject : Bytes := Small.object
  (Small.ofWords [0xbf004770, 42, 0, 0, 0, 0, 1, 0, 0, 0x10012] ++
    (Bytes.ofText "\x00e\x00.text\x00.data\x00.bss\x00").toList)
  [.replicate 10 0, [3, 1, 6, 0, 52, 4, 0, 0, 4, 0], [9, 1, 3, 0, 56, 4, 0, 0, 8, 0],
    [15, 8, 3, 0, 60, 8, 0, 0, 4, 0], [0, 2, 0, 0, 60, 32, 5, 1, 4, 16], [0, 3, 0, 0, 92, 20, 0, 0, 1, 0]]

/-- The variable that is to be at a multiple of 8 is 2 past one, as the pool is. -/
theorem load_aligned_oddContext :
    ∃ image s' es, Small.load 16 wideObject oddContext = ⟨.ok image, s', es⟩ ∧
      image.sections.map (fun q => (q.index, q.cls, q.addr)) =
        [(1, .text, 0x10000000), (2, .data, 0x2000000a), (3, .bss, 0x2000000e)] ∧
      ∀ q ∈ image.sections, q.cls = .data ∨ q.cls = .bss →
        ∃ h, (Object.rawHeaders wideObject)[q.index]? = some h ∧ h.class? = some q.cls ∧
          q.addr.toNat % h.align = oddContext.pool.base.toNat % h.align := by
  have hpow : ∀ h ∈ Object.rawHeaders wideObject, h.align.isPowerOfTwo := by
    have hall : ∀ h ∈ Object.rawHeaders wideObject, h.align = 2 ^ 0 ∨ h.align = 2 ^ 2 ∨ h.align = 2 ^ 3 := by
      decide +kernel
    exact fun h hh => (hall h hh).elim (⟨0, ·⟩) (·.elim (⟨2, ·⟩) (⟨3, ·⟩))
  have hsections : ((Small.load 16 wideObject oddContext).result.map fun i =>
      i.sections.map fun q => (q.index, q.cls, q.addr)) =
      .ok [(1, .text, 0x10000000), (2, .data, 0x2000000a), (3, .bss, 0x2000000e)] := by decide +kernel
  generalize hload : Small.load 16 wideObject oddContext = o at hsections
  obtain ⟨e | image, s', es⟩ := o
  · cases hsections
  refine ⟨image, s', es, rfl, Except.ok.inj hsections, ?_⟩
  exact (load_aligned (s := ⟨Small.loader 16, .ofBytes "m" wideObject, oddContext⟩)
    (Small.loader_sized (by decide) rfl) hload fun h hh _ => hpow h hh).1

end Loader

end FlashLink
