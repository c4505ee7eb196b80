import FlashLink.Proofs.Logic

/-!
Loops without a bound.

The definitions that run have a bound on their rounds. Whether a loop comes to its end by itself cannot be
said in terms of them: a bound that is too small ends every loop. `Loops` tells how a loop ends that nothing
cuts short, if it ends. A loop that does so makes one number of rounds and has one outcome, so a bounded run
with the outcome of its loop has been given rounds enough.
-/

namespace FlashLink.Act

variable {σ α β : Type}

/-- The loop that repeats `body`, first with `b` in state `s`, ends after `n` rounds with this outcome. A
round hands a value on to the next one, or it is the last and answers. -/
inductive Loops (body : β → Act σ (β ⊕ α)) : β → σ → Nat → Outcome σ α → Prop
  | stop {b : β} {s t : σ} {a : α} {es : List Event} (h : body b s = ⟨.ok (.inr a), t, es⟩) :
    Loops body b s 1 ⟨.ok a, t, es⟩
  | fail {b : β} {s t : σ} {e : Error} {es : List Event} (h : body b s = ⟨.error e, t, es⟩) :
    Loops body b s 1 ⟨.error e, t, es⟩
  | next {b b' : β} {s t : σ} {n : Nat} {es : List Event} {o : Outcome σ α}
    (h : body b s = ⟨.ok (.inl b'), t, es⟩) (hrest : Loops body b' t n o) :
    Loops body b s (n + 1) ⟨o.result, o.state, es ++ o.events⟩

namespace Loops

variable {body : β → Act σ (β ⊕ α)} {b b' : β} {s t : σ} {n m : Nat} {o p : Outcome σ α}

/-- A loop ends in one way. -/
lemma unique (h : Loops body b s n o) (h' : Loops body b s m p) : n = m ∧ o = p := by
  induction h generalizing m p with
  | stop h =>
    cases h' with
    | stop h' => simpa using h.symm.trans h'
    | fail h' => simp [h] at h'
    | next h' => simp [h] at h'
  | fail h =>
    cases h' with
    | stop h' => simp [h] at h'
    | fail h' => simpa using h.symm.trans h'
    | next h' => simp [h] at h'
  | next h _ ih =>
    cases h' with
    | stop h' => simp [h] at h'
    | fail h' => simp [h] at h'
    | next h' hrest' =>
      obtain ⟨⟨rfl⟩, rfl, rfl⟩ := by simpa using h.symm.trans h'
      obtain ⟨rfl, rfl⟩ := ih hrest'
      exact ⟨rfl, rfl⟩

end Loops

end FlashLink.Act
