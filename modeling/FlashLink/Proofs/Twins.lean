import FlashLink.Proofs.Committing
import Mathlib.Data.List.Find

/-!
Loading the same module twice, over different remains. Two states are twins if they agree but for the
contents of what is free, which nobody has looked after. A load never reads what it has not written
before, so twins stay twins, both loads end alike, and every place that is written is a place where the
twins agree from then on.
-/

namespace FlashLink

open Act

/-! ### Regions -/

namespace Region

/-- The regions agree, but for the bytes at the offsets `F` and for statistics. No failure is armed, as
failures go by statistics. -/
structure Twin (F : Nat → Prop) (r s : Region) : Prop where
  eq : s = r.withContents s.device.contents s.device.stats
  unarmed : r.Unarmed
  same : Bytes.SameOn (r.Spared F) r.device.contents s.device.contents

namespace Twin

variable {F G : Nat → Prop} {r s : Region}

lemma mono (h : Twin F r s) (hF : ∀ k, F k → k < r.partition.size → G k) : Twin G r s :=
  ⟨h.1, h.2, h.3.mono fun _ hi k hk hlt => hi k (hF k hk hlt) hlt⟩

/-- Work on a region, with its allocations given up. -/
lemma of_edited (h : Edited F r s) (hu : r.Unarmed) : Twin F r { s with nextFree := r.nextFree } := by
  refine ⟨?_, hu, h.same⟩
  have hu' := h.unarmed hu
  have hsector := h.sector_eq
  obtain ⟨hname, hpartition, -, hreported, -⟩ := h
  obtain ⟨name, ⟨contents, sector, reported, stats, armed⟩, partition, free⟩ := r
  obtain ⟨name', ⟨contents', sector', reported', stats', armed'⟩, partition', free'⟩ := s
  simp only [Unarmed, Region.sector] at hu hu' hname hpartition hreported hsector
  subst hu hu' hname hpartition hreported hsector
  rfl

lemma name_eq (h : Twin F r s) : s.name = r.name := by rw [h.eq]; rfl

lemma partition_eq (h : Twin F r s) : s.partition = r.partition := by rw [h.eq]; rfl

lemma sector_eq (h : Twin F r s) : s.device.sector = r.device.sector := by rw [h.eq]; rfl

lemma reported_eq (h : Twin F r s) : s.device.reported = r.device.reported := by rw [h.eq]; rfl

lemma free_eq (h : Twin F r s) : s.nextFree = r.nextFree := by rw [h.eq]; rfl

lemma unarmed' (h : Twin F r s) : s.Unarmed := by rw [h.eq]; exact h.unarmed

lemma size_eq (h : Twin F r s) : s.device.size = r.device.size := h.same.size_eq.symm

/-- Bytes where the regions agree. -/
lemma bytes_eq (h : Twin F r s) {offset len : Nat}
    (hF : ∀ k, offset ≤ k → k < offset + len → ¬ F k) : s.bytes offset len = r.bytes offset len := by
  rw [bytes, bytes, h.partition_eq]
  refine (h.same.slice_eq fun i h1 h2 k hk _ hi => ?_).symm
  exact hF k (by omega) (by omega) hk

variable {offset len : Nat}

lemma checkSpan_sim (h : Twin F r s) :
    Op.Sim (checkSpan offset len) (checkSpan offset len) r s
      (fun _ r' s' => r' = r ∧ s' = s ∧ offset + len ≤ r.partition.size)
      (fun _ r' s' => r' = r ∧ s' = s) := by
  unfold Op.Sim checkSpan
  rw [h.partition_eq, h.name_eq]
  split_ifs with hle
  · exact ⟨rfl, rfl, rfl, hle⟩
  · exact ⟨rfl, rfl, rfl⟩

lemma strikes_eq (hu : r.Unarmed) (op : FlashOperation) : r.device.strikes op = false := by
  rw [Unarmed] at hu
  simp [Nor.strikes, hu]

/-- Erased places agree. -/
lemma erase_sim (h : Twin F r s) (span : FlashSpan) :
    Op.Sim (erase span) (erase span) r s
      (fun _ => Twin fun k => F k ∧ ¬ (span.offset ≤ k ∧ k < span.offset + span.len))
      (fun _ => Twin F) := by
  unfold erase
  split_ifs with hlen
  · exact Op.sim_pure.2 (h.mono fun k hk _ => ⟨hk, by omega⟩)
  refine Op.Sim.bind h.checkSpan_sim ?_ fun _ r' s' h' => by rw [h'.1, h'.2]; exact h
  rintro _ r' s' ⟨hr, hs, hle⟩
  rw [hr, hs]
  refine Op.Sim.get_bind (Op.sim_zoom.2 ?_)
  rw [h.partition_eq]
  unfold Op.Sim Nor.erase devicePart
  dsimp only
  rw [h.sector_eq, h.size_eq, strikes_eq h.unarmed, strikes_eq h.unarmed']
  simp only [Bool.false_eq_true, if_false]
  split_ifs
  · exact ⟨rfl, h⟩
  · exact ⟨rfl, h⟩
  · refine ⟨trivial, by rw [h.eq]; rfl, h.unarmed, h.same.fill fun i hi => ?_⟩
    by_cases hspan : r.partition.offset + span.offset ≤ i ∧
        i < r.partition.offset + span.offset + span.len
    · exact .inr hspan
    · refine .inl fun k hk hlt heq => hi k ⟨hk, fun hin => hspan ?_⟩ hlt heq
      omega

/-- Where the regions agree, they take the same bytes or refuse them. -/
lemma write_sim (h : Twin F r s) {data : Bytes}
    (hF : offset % wordSize = 0 → ∀ k, offset ≤ k → k < offset + data.size → ¬ F k) :
    Op.Sim (write offset data) (write offset data) r s (fun _ => Twin F) (fun _ => Twin F) := by
  unfold write
  refine Op.Sim.get_bind ?_
  rw [h.name_eq]
  split_ifs with hword
  · exact Op.Sim.throw_bind h
  refine Op.Sim.bind h.checkSpan_sim ?_ fun _ r' s' h' => by rw [h'.1, h'.2]; exact h
  rintro _ r' s' ⟨hr, hs, hle⟩
  rw [hr, hs]
  refine Op.Sim.get_bind (Op.sim_zoom.2 ?_)
  rw [h.partition_eq]
  have hagree : ∀ i, r.partition.offset + offset ≤ i →
      i < r.partition.offset + offset + data.size → r.Spared F i := by
    intro i h1 h2 k hk _ heq
    exact hF (by omega) k (by omega) (by omega) hk
  have hrise : Nor.firstRise? s.device.contents (r.partition.offset + offset) data =
      Nor.firstRise? r.device.contents (r.partition.offset + offset) data := by
    unfold Nor.firstRise?
    refine List.find?_congr fun i hi => ?_
    have hi := List.mem_range.1 hi
    rw [Bytes.byte_eq s.device.contents, Bytes.byte_eq r.device.contents,
      h.same.get_eq _ (hagree _ (by omega) (by omega))]
  unfold Op.Sim Nor.write devicePart
  dsimp only
  rw [h.size_eq, strikes_eq h.unarmed, strikes_eq h.unarmed', hrise]
  simp only [Bool.false_eq_true, if_false]
  split_ifs
  · exact ⟨rfl, h⟩
  · exact ⟨rfl, h⟩
  · rcases Nor.firstRise? _ _ _ with _ | i
    · exact ⟨trivial, by rw [h.eq]; rfl, h.unarmed, h.same.updateSpan fun i hi => .inl hi⟩
    · exact ⟨rfl, h⟩

/-- Where the regions agree, they are read alike. -/
lemma read_sim (h : Twin F r s) (hF : ∀ k, offset ≤ k → k < offset + len → ¬ F k) :
    Op.Sim (read offset len) (read offset len) r s (fun _ => Twin F) (fun _ => Twin F) := by
  unfold read
  refine Op.Sim.bind h.checkSpan_sim ?_ fun _ r' s' h' => by rw [h'.1, h'.2]; exact h
  rintro _ r' s' ⟨hr, hs, hle⟩
  rw [hr, hs]
  refine Op.Sim.get_bind (Op.sim_zoom.2 ?_)
  have hbytes := h.bytes_eq hF
  rw [bytes, bytes, h.partition_eq] at hbytes
  rw [h.partition_eq]
  unfold Op.Sim Nor.read devicePart
  dsimp only
  rw [h.size_eq]
  split_ifs
  · exact ⟨rfl, h⟩
  · exact ⟨hbytes.symm, by rw [h.eq]; rfl, h.unarmed, h.same⟩

end Twin

end Region

/-! ### Pools -/

namespace Pool

/-- The pools agree, but for the bytes at the places `G`. -/
structure Twin (G : Nat → Prop) (p q : Pool) : Prop where
  eq : q = { p with mem := q.mem }
  same : Bytes.SameOn (fun i => ¬ G i) p.mem q.mem

namespace Twin

variable {G H : Nat → Prop} {p q : Pool}

lemma mono (h : Twin G p q) (hG : ∀ i, G i → H i) : Twin H p q :=
  ⟨h.1, h.2.mono fun i hi hg => hi (hG i hg)⟩

lemma base_eq (h : Twin G p q) : q.base = p.base := by rw [h.eq]

lemma used_eq (h : Twin G p q) : q.used = p.used := by rw [h.eq]

lemma capacity_eq (h : Twin G p q) : q.capacity = p.capacity := h.same.size_eq.symm

/-- Pools that agree everywhere are equal. -/
lemma eq_of (h : Twin G p q) (hG : ∀ i, ¬ G i) : q = p := by
  have hmem : q.mem = p.mem := Bytes.ext_get fun i => (h.same.get_eq i (hG i)).symm
  rw [h.eq, hmem]

/-- Contents that agree after something has been done to both. -/
lemma withMem (h : Twin G p q) {mem mem' : Bytes} (hsame : Bytes.SameOn (fun i => ¬ H i) mem mem') :
    Twin H { p with mem } { q with mem := mem' } :=
  ⟨by rw [h.eq], hsame⟩

end Twin

end Pool

/-! ### Contexts -/

/-- The contexts agree in what a load works on, but for flash at the offsets `F` and the pool at the
places `G`. -/
structure Context.LoadTwin (F G : Nat → Prop) (c e : Context) : Prop where
  xip : c.xip.Twin F e.xip
  pool : c.pool.Twin G e.pool

lemma Context.LoadTwin.alike {F G : Nat → Prop} {c e : Context} (h : c.LoadTwin F G e) :
    Job.Alike c e :=
  ⟨h.xip.name_eq, h.xip.partition_eq, h.xip.sector_eq, h.xip.free_eq, h.pool.base_eq,
    h.pool.used_eq, h.pool.capacity_eq⟩

/-- The contexts agree, but for flash at the offsets `F` and the pool at the places `G`. -/
structure Context.Twin (F G : Nat → Prop) (c e : Context) : Prop extends c.LoadTwin F G e where
  iflash_eq : e.iflash = c.iflash
  trampolines_eq : e.trampolines = c.trampolines

/-! ### Desks -/

/-- Buffers that agree where it matters are filled alike. -/
lemma Source.readInto_sim {I J : Nat → Prop} {start len : Nat} {buf buf' : Bytes}
    (h : Bytes.SameOn I buf buf') (hJ : ∀ i, J i → I i ∨ start ≤ i ∧ i < start + len)
    (offset : Nat) (s : Source) :
    Sim (readInto start offset len) (readInto start offset len) (buf, s) (buf', s)
      (fun _ t u => u.2 = t.2 ∧ Bytes.SameOn J t.1 u.1)
      (fun _ t u => u.2 = t.2 ∧ Bytes.SameOn I t.1 u.1) := by
  unfold Sim readInto
  rcases hd : s.deliver offset len with ⟨got, _ | e⟩ <;> simp only [hd]
  · have hf : s.fetch offset len = .ok got := by rw [fetch, hd]
    refine ⟨trivial, trivial, h.overwrite ?_⟩
    rw [(fetch_eq_ok hf).2.1]
    exact hJ
  · exact ⟨trivial, trivial, h.overwrite fun i hi => .inl hi⟩

namespace Desk

/-- The desks agree, but for what the last load left in the buffers; the chunk buffers agree at the
places `I`. -/
structure Twin (I : Nat → Prop) (d e : Desk) : Prop where
  linker_eq : e.linker = d.linker
  raw_size_eq : e.scratch.raw.size = d.scratch.raw.size
  same : Bytes.SameOn I d.scratch.staging e.scratch.staging

namespace Twin

variable {I J : Nat → Prop} {d e : Desk} {t : RelocationTable}

lemma mono (h : Twin I d e) (hJ : ∀ i, J i → I i) : Twin J d e := ⟨h.1, h.2, h.3.mono hJ⟩

lemma batchSize_eq (h : Twin I d e) : e.scratch.batchSize = d.scratch.batchSize := by
  rw [Scratch.batchSize, Scratch.batchSize, h.raw_size_eq]

lemma readBatch_sim (h : Twin I d e) (t : RelocationTable) (first : Nat) :
    Sim (readBatch t first) (readBatch t first) d e (fun _ => Twin I) (fun _ => Twin I) := by
  unfold readBatch
  refine Sim.get_bind ?_
  rw [h.batchSize_eq]
  generalize min d.scratch.batchSize (t.count - first) = count
  obtain ⟨⟨staging, raw, batch⟩, source, cache⟩ := d
  obtain ⟨⟨staging', raw', batch'⟩, linker⟩ := e
  obtain ⟨hlinker, hraw, hsame⟩ := h
  dsimp only at hlinker hraw hsame
  subst hlinker
  refine Sim.bind (S := fun _ d' e' => Twin I d' e' ∧
      Bytes.SameOn (· < count * Relocation.width) d'.scratch.raw e'.scratch.raw)
    (G := fun _ => Twin I) ?_ ?_ fun _ _ _ h => h
  · rw [sim_zoom]
    refine (Source.readInto_sim (I := fun _ => False) (J := (· < count * Relocation.width))
      ⟨hraw.symm, fun _ h => h.elim⟩ (fun i hi => .inr (by omega)) _ source).mono ?_ ?_
    · rintro _ ⟨b, s⟩ ⟨b', s'⟩ ⟨hs, hb⟩
      dsimp only at hs
      subst hs
      exact ⟨⟨rfl, hb.size_eq.symm, hsame⟩, hb⟩
    · rintro _ ⟨b, s⟩ ⟨b', s'⟩ ⟨hs, hb⟩
      dsimp only at hs
      subst hs
      exact ⟨rfl, hb.size_eq.symm, hsame⟩
  · rintro _ d' e' ⟨⟨hlinker, hraw', hsame'⟩, hbatch⟩
    refine Sim.modify_bind (Sim.get_bind (sim_pure_of ?_ ⟨hlinker, hraw', hsame'⟩))
    refine List.map_congr_left fun i hi => ?_
    have hi := List.mem_range.1 hi
    have hfit : i * Relocation.width + Relocation.width ≤ count * Relocation.width := by
      rw [← Nat.succ_mul]
      exact Nat.mul_le_mul_right _ hi
    rw [hbatch.slice_eq fun j _ hj => by omega]

/-- A fold whose steps go alike goes alike. -/
lemma foldBatches_sim {β : Type} {f : β → List Relocation → Act Desk β} (h : Twin I d e) (b : β)
    (hf : ∀ b batch d e, Twin I d e →
      Sim (f b batch) (f b batch) d e (fun _ => Twin I) (fun _ => Twin I)) :
    Sim (foldBatches t b f) (foldBatches t b f) d e (fun _ => Twin I) (fun _ => Twin I) := by
  have hfold : ∀ (fuel first : Nat) (b : β) (d e : Desk), Twin I d e →
      Sim (foldFrom t f fuel first b) (foldFrom t f fuel first b) d e (fun _ => Twin I)
        (fun _ => Twin I) := by
    intro fuel
    induction fuel with
    | zero => exact fun _ _ _ _ h => sim_pure.2 h
    | succ fuel ih =>
      intro first b d e h
      unfold foldFrom
      split_ifs
      · exact sim_pure.2 h
      refine Sim.bind (h.readBatch_sim t first) ?_ fun _ _ _ h => h
      intro batch d' e' h'
      refine Sim.bind (hf b batch d' e' h') ?_ fun _ _ _ h => h
      exact fun b' d'' e'' h'' => ih _ b' d'' e'' h''
  exact hfold t.count 0 b d e h

lemma checkFields_sim (h : Twin I d e) (size : Nat) :
    Sim (checkFields t size) (checkFields t size) d e (fun _ => Twin I) (fun _ => Twin I) := by
  refine h.foldBatches_sim () fun _ batch d' e' h' => ?_
  split
  · exact sim_throw.2 h'
  · exact sim_pure.2 h'

lemma boundaryFrom_sim (h : Twin I d e) (start fuel stop : Nat) :
    Sim (boundaryFrom t start fuel stop) (boundaryFrom t start fuel stop) d e (fun _ => Twin I)
      (fun _ => Twin I) := by
  induction fuel generalizing stop d e with
  | zero => exact sim_throw.2 h
  | succ fuel ih =>
    unfold boundaryFrom
    refine Sim.bind (h.foldBatches_sim stop fun _ _ _ _ h' => sim_pure.2 h') ?_ fun _ _ _ h => h
    intro low d' e' h'
    split_ifs
    · exact sim_pure.2 h'
    · exact Sim.throw_bind h'
    · exact Sim.note_bind (ih h' low)

end Twin

end Desk

end FlashLink
