import FlashLink.Proofs.Boundaries
import FlashLink.Proofs.Buffers
import FlashLink.Proofs.Loops
import Mathlib.Order.Bounds.Basic

/-!
The search for the end of a chunk, as the loop it is. A pass over the table, batch by batch, finds how far
the boundary has to go down for the fields that straddle it, and another pass follows until none does. No
pass counts towards a bound here: each one moves the boundary down, and none moves it to where the chunk
begins, so the search ends by itself. It ends at the greatest cut within reach.
-/

namespace FlashLink

open Act

namespace Desk

open Relocation

/-- A search on its way: the boundary, and a pass over the table up to entry `first`, after which the
boundary has to go down to `low`. -/
structure Search where
  stop : Nat
  first : Nat
  low : Nat

/-- One round of the search: one more batch of the table, or the end of a pass. -/
def look (t : RelocationTable) (start : Nat) (q : Search) : Act Desk (Search ⊕ Nat) := do
  if q.first < t.count then
    let batch ← readBatch t q.first
    return .inl ⟨q.stop, q.first + batch.length, lowest q.stop q.low batch⟩
  else if q.low = q.stop then return .inr q.stop
  else if q.low ≤ start then throw (.parse (.straddled q.stop))
  else
    note (.chunkShortened q.stop q.low)
    return .inl ⟨q.low, 0, q.low⟩

variable {t : RelocationTable} {d d' : Desk} {start stop first low fuel : Nat}

/-! ### A pass -/

lemma look_of_read {q : Search} {batch : List Relocation} {es : List Event} (hfirst : q.first < t.count)
    (h : readBatch t q.first d = ⟨.ok batch, d', es⟩) :
    look t start q d =
      ⟨.ok (.inl ⟨q.stop, q.first + batch.length, lowest q.stop q.low batch⟩), d', es⟩ := by
  unfold look
  rw [if_pos hfirst, bind_of_ok h]
  exact congrArg _ (List.append_nil es)

lemma look_of_unread {q : Search} {e : Error} {es : List Event} (hfirst : q.first < t.count)
    (h : readBatch t q.first d = ⟨.error e, d', es⟩) : look t start q d = ⟨.error e, d', es⟩ := by
  unfold look
  rw [if_pos hfirst, bind_of_error h]

/-- A fold over the rest of the table is the rounds of a pass, and the loop goes on with what has been
found. -/
lemma fold_loops {f : Nat → Act Desk Nat} (hbatch : 0 < d.scratch.batchSize) (hlow : low ≤ stop)
    (hfuel : t.count ≤ first + fuel)
    (hf : ∀ e first low, 0 < e.scratch.batchSize → low ≤ stop → t.count ≤ first →
      ∃ n, Loops (look t start) ⟨stop, first, low⟩ e n (f low e)) :
    ∃ n, Loops (look t start) ⟨stop, first, low⟩ d n
      ((foldFrom t (fun low batch => return lowest stop low batch) fuel first low >>= f) d) := by
  induction fuel generalizing first low d with
  | zero =>
    unfold foldFrom
    rw [Act.pure_bind]
    exact hf d first low hbatch hlow hfuel
  | succ fuel ih =>
    unfold foldFrom
    by_cases hend : t.count ≤ first
    · rw [if_pos hend, Act.pure_bind]
      exact hf d first low hbatch hlow hend
    rw [if_neg hend, Act.bind_assoc]
    have hfirst : first < t.count := by omega
    rcases hread : readBatch t first d with ⟨e | batch, d', es⟩
    · rw [bind_of_error hread]
      exact ⟨1, .fail (look_of_unread hfirst hread)⟩
    obtain ⟨hre, k, hk, hcount, hentries, -⟩ := (readBatch_sat (.refl _) hbatch hfirst).of_ok hread
    have hlen : 0 < batch.length := by
      rw [hentries, List.length_take, List.length_drop, RelocationTable.length_entries]
      omega
    have hbatch' : 0 < d'.scratch.batchSize := hre.batchSize_eq ▸ hbatch
    have hlow' : lowest stop low batch ≤ stop := (Bench.lowest_le stop low batch).trans hlow
    have hfuel' : t.count ≤ first + batch.length + fuel := by omega
    obtain ⟨n, hloop⟩ := ih hbatch' hlow' hfuel'
    rw [bind_of_ok hread, Act.pure_bind]
    exact ⟨n + 1, .next (look_of_read hfirst hread) hloop⟩

/-! ### The search -/

/-- The search is its loop: the bound on the number of passes is never met. -/
lemma boundaryFrom_loops (hbatch : 0 < d.scratch.batchSize) (hlt : start < stop)
    (hfuel : stop - start ≤ fuel) :
    ∃ n, Loops (look t start) ⟨stop, 0, stop⟩ d n (boundaryFrom t start fuel stop d) := by
  induction fuel generalizing stop d with
  | zero => omega
  | succ fuel ih =>
    unfold boundaryFrom foldBatches
    refine fold_loops hbatch (Nat.le_refl _) (by omega) fun e first low hbatch hlow hfirst => ?_
    have hover : ¬ first < t.count := by omega
    by_cases hsame : low = stop
    · rw [if_pos hsame]
      refine ⟨1, .stop ?_⟩
      unfold look
      rw [if_neg hover, if_pos hsame]
      rfl
    by_cases hle : low ≤ start
    · rw [if_neg hsame, if_pos hle]
      refine ⟨1, .fail ?_⟩
      unfold look
      rw [if_neg hover, if_neg hsame, if_pos hle]
      rfl
    · -- the boundary moves down, and stays above the start of the chunk
      have hstart : start < low := by omega
      have hless : low - start ≤ fuel := by omega
      obtain ⟨n, hloop⟩ := ih hbatch hstart hless
      have hround : look t start ⟨stop, first, low⟩ e =
          ⟨.ok (.inl ⟨low, 0, low⟩), e, [.chunkShortened stop low]⟩ := by
        unfold look
        rw [if_neg hover, if_neg hsame, if_neg hle]
        rfl
      rw [if_neg hsame, if_neg hle]
      exact ⟨n + 1, .next hround hloop⟩

/-- **The end of a chunk.** Where the source holds the table, the search for a boundary down from a word
boundary comes to its end. It answers the greatest word boundary after `start` that no field straddles,
and it fails for the fields exactly if each word boundary after `start` is straddled by one. -/
theorem boundary_greatest (hheld : t.Held d.linker.source) (hbatch : 0 < d.scratch.batchSize)
    (hstop : stop % wordSize = 0) (hlt : start < stop) :
    (∃ n, Loops (look t start) ⟨stop, 0, stop⟩ d n (boundary t start stop d)) ∧
      (∀ e, (boundary t start stop d).result = .ok e ↔
        IsGreatest {b | start < b ∧ b ≤ stop ∧ Cut (t.entries d.linker.source.data) b} e) ∧
      ((∃ why, (boundary t start stop d).result = .error (.parse why)) ↔
        ∀ b, start < b → b ≤ stop → b % wordSize = 0 →
          ∃ r ∈ t.entries d.linker.source.data, r.Straddles b) := by
  have hsat := boundaryFrom_sat hheld (.refl _) hbatch hstop hlt (Nat.le_refl _)
  refine ⟨boundaryFrom_loops hbatch hlt (Nat.le_refl _), ?_⟩
  unfold boundary
  rcases hrun : boundaryFrom t start (stop - start) stop d with ⟨e | e, d', es⟩
  · obtain ⟨⟨b, rfl⟩, hnone⟩ := hsat.of_error hrun
    have hall : ∀ b, start < b → b ≤ stop → ¬ Cut (t.entries d.linker.source.data) b := by
      intro b hb hle hcut
      exact absurd (hnone b hcut hle) (Nat.not_le_of_lt hb)
    refine ⟨fun e => ⟨nofun, fun h => (hall e h.1.1 h.1.2.1 h.1.2.2).elim⟩, fun _ b hb hle hword => ?_,
      fun _ => ⟨_, rfl⟩⟩
    by_contra hfree
    exact hall b hb hle ⟨hword, fun r hr hstraddles => hfree ⟨r, hr, hstraddles⟩⟩
  · obtain ⟨-, hlow, hle, hcut, hmax⟩ := hsat.of_ok hrun
    have hgreatest : IsGreatest {b | start < b ∧ b ≤ stop ∧ Cut (t.entries d.linker.source.data) b} e :=
      ⟨⟨hlow, hle, hcut⟩, fun b hb => hmax b hb.2.2 hb.2.1⟩
    refine ⟨fun e' => ⟨?_, fun h => congrArg _ (hgreatest.unique h)⟩, nofun, fun h => ?_⟩
    · rintro ⟨⟩
      exact hgreatest
    · obtain ⟨r, hr, hstraddles⟩ := h e hlow hle hcut.1
      exact (hcut.2 r hr hstraddles).elim

/-- A desk that reads one entry at a time from a source of three, whose fields begin at 10, 6 and 2. -/
def crossing : Desk :=
  ⟨⟨#[], .zeros 8, []⟩, .ofBytes "m" (Small.ofWords [10, 0, 6, 0, 2, 0]).toArray, .create 1⟩

/-- Down from 12 the first two fields leave the boundary at 4, and down from 8 the last two leave none. -/
theorem boundary_greatest_crossing :
    IsGreatest {b | 0 < b ∧ b ≤ 12 ∧
        Cut ((⟨0, 2⟩ : RelocationTable).entries crossing.linker.source.data) b} 4 ∧
      (∀ b, 0 < b → b ≤ 8 → b % wordSize = 0 →
        ∃ r ∈ (⟨8, 2⟩ : RelocationTable).entries crossing.linker.source.data, r.Straddles b) ∧
      ∃ n, Loops (look ⟨8, 2⟩ 0) ⟨8, 0, 8⟩ crossing n (boundary ⟨8, 2⟩ 0 8 crossing) := by
  have hfound : (boundary ⟨0, 2⟩ 0 12 crossing).result = .ok 4 := by decide +kernel
  have hfails : (boundary ⟨8, 2⟩ 0 8 crossing).result = .error (.parse (.straddled 4)) := by
    decide +kernel
  have hfirst := boundary_greatest (t := ⟨0, 2⟩) (d := crossing) (fun _ => by decide) (by decide)
    (by decide : 12 % wordSize = 0) (by decide : 0 < 12)
  have hlast := boundary_greatest (t := ⟨8, 2⟩) (d := crossing) (fun _ => by decide) (by decide)
    (by decide : 8 % wordSize = 0) (by decide : 0 < 8)
  exact ⟨(hfirst.2.1 4).1 hfound, hlast.2.2.1 ⟨_, hfails⟩, hlast.1⟩

end Desk

end FlashLink
