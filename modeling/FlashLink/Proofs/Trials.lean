import FlashLink.Proofs.ByteSpans
import FlashLink.Proofs.Logic

/-!
Actions that may get stuck.

A machine whose sizes are 64-bit words stops dead where a sum does not fit in a word, a difference goes
below zero, a slice or an index is out of bounds, or a loop never ends. The actions of this library know
none of that: their sizes are natural numbers and their buffers read as zeros past the end. A `Trial` does:
it is an action that may also end in nothing.

`Runs x y s` says that, from `s`, the trial `x` is never stuck and does exactly what the action `y` does.
Whatever `x` demands on its way is then met. `Meets x y s P` says besides what `y` answers.
-/

namespace FlashLink

variable {σ τ α β : Type}

/-! ### Words and slices -/

namespace Word

/-- A size, if it fits in a word. -/
def ofNat? (n : Nat) : Option Nat := if n < sizeLimit then some n else none

def add? (a b : Nat) : Option Nat := ofNat? (a + b)

def mul? (a b : Nat) : Option Nat := ofNat? (a * b)

def sub? (a b : Nat) : Option Nat := if b ≤ a then some (a - b) else none

/-- The quotient rounded up, times the divisor; there is nothing to divide by zero. -/
def alignUp? (value align : Nat) : Option Nat :=
  if align = 0 then none
  else mul? (value / align + if value % align = 0 then 0 else 1) align

variable {a b : Nat}

lemma add?_eq (h : a + b < sizeLimit) : add? a b = some (a + b) := if_pos h

lemma mul?_eq (h : a * b < sizeLimit) : mul? a b = some (a * b) := if_pos h

lemma sub?_eq (h : b ≤ a) : sub? a b = some (a - b) := if_pos h

/-- Rounding up the quotient is rounding up the value. -/
lemma quotient_mul (value : Nat) {align : Nat} (ha : 0 < align) :
    (value / align + if value % align = 0 then 0 else 1) * align = alignUp value align := by
  have hdiv := Nat.div_add_mod value align
  have hmod := Nat.mod_lt value ha
  have hcomm := Nat.mul_comm align (value / align)
  have hle := le_alignUp value ha
  have hlt := alignUp_lt value ha
  split_ifs with h
  · rw [alignUp_eq ha h, Nat.add_zero]
    omega
  · -- the next multiple is the only one in reach
    refine Nat.le_antisymm ?_ (alignUp_le ha (Nat.dvd_mul_left ..) (by rw [Nat.add_mul]; omega))
    obtain ⟨k, hk⟩ := dvd_alignUp value align ha
    have hq : value / align < k := by
      by_contra hc
      have := Nat.mul_le_mul_left align (Nat.le_of_not_lt hc)
      omega
    rw [hk, Nat.mul_comm align k]
    exact Nat.mul_le_mul_right align hq

lemma alignUp?_eq (ha : 0 < b) (h : alignUp a b < sizeLimit) : alignUp? a b = some (alignUp a b) := by
  rw [alignUp?, if_neg (Nat.ne_of_gt ha), mul?, quotient_mul a ha]
  exact if_pos h

end Word

namespace Bytes

/-- The bytes from `start` up to `stop`, if they are in order and in the buffer. -/
def span? (b : Bytes) (start stop : Nat) : Option Bytes :=
  if start ≤ stop ∧ stop ≤ b.size then some (b.extract start stop) else none

lemma span?_eq {b : Bytes} {start stop : Nat} (h : start ≤ stop) (h' : stop ≤ b.size) :
    b.span? start stop = some (b.extract start stop) := if_pos ⟨h, h'⟩

end Bytes

/-! ### Trials -/

/-- An action that may get stuck. -/
def Trial (σ α : Type) : Type := σ → Option (Outcome σ α)

namespace Trial

protected def pure (a : α) : Trial σ α := fun s => some ⟨.ok a, s, []⟩

protected def bind (x : Trial σ α) (f : α → Trial σ β) : Trial σ β := fun s =>
  match x s with
  | none => none
  | some ⟨.error e, s, es⟩ => some ⟨.error e, s, es⟩
  | some ⟨.ok a, s, es⟩ =>
    match f a s with
    | none => none
    | some ⟨r, s, es'⟩ => some ⟨r, s, es ++ es'⟩

instance : Monad (Trial σ) where
  pure := Trial.pure
  bind := Trial.bind

/-- What an action does; it never gets stuck. -/
def act (x : Act σ α) : Trial σ α := fun s => some (x s)

instance : MonadLift (Act σ) (Trial σ) := ⟨act⟩

/-- Stuck, unless there is something. -/
def need : Option α → Trial σ α
  | some a => Pure.pure a
  | none => fun _ => none

instance : MonadLift Option (Trial σ) := ⟨need⟩

/-- Stuck, unless `p` holds. -/
def check (p : Prop) [Decidable p] : Trial σ Unit := fun s => if p then some ⟨.ok (), s, []⟩ else none

def fail (e : Error) : Trial σ α := act (Act.fail e)

def note (e : Event) : Trial σ Unit := act (Act.note e)

def ofExcept (r : Except Error α) : Trial σ α := act (Act.ofExcept r)

/-- Runs a trial on a part of the state. -/
def zoom (part : Part τ σ) (x : Trial σ α) : Trial τ α := fun t =>
  match x (part t).1 with
  | none => none
  | some ⟨r, s, es⟩ => some ⟨r, (part t).2 s, es⟩

/-- No promise was found broken, after which nothing sensible can follow. -/
def Unbroken (r : Except Error α) : Prop := ∀ b, r ≠ .error (.breach b)

/-- From `s`, the trial is never stuck and does what the action does, which finds no promise broken. -/
structure Runs (x : Trial σ α) (y : Act σ α) (s : σ) : Prop where
  eq : x s = some (y s)
  unbroken : Unbroken (y s).result

variable {x : Trial σ α} {y : Act σ α} {f : α → Trial σ β} {g : α → Act σ β} {s : σ}

lemma Runs.bind {P : α → σ → Prop} {E : Error → σ → Prop} (h : Runs x y s) (hy : y.Sat s P E)
    (hf : ∀ a t, P a t → Runs (f a) (g a) t) : Runs (x >>= f) (y >>= g) s := by
  suffices hboth : Trial.bind x f s = some (Act.bind y g s) ∧ Unbroken (Act.bind y g s).result from
    ⟨hboth.1, hboth.2⟩
  obtain ⟨h, hunbroken⟩ := h
  unfold Act.Sat at hy
  unfold Trial.bind Act.bind
  rw [h]
  generalize y s = o at hy hunbroken ⊢
  rcases o with ⟨e | a, t, es⟩
  · refine ⟨rfl, ?_⟩
    rintro b ⟨⟩
    exact hunbroken b rfl
  · obtain ⟨hfa, hunbroken⟩ := hf a t hy
    simp only [hfa]
    exact ⟨trivial, hunbroken⟩

/-- What only fails in other ways. -/
lemma unbroken_of_sat {P : α → σ → Prop} (h : y.Sat s P fun e _ => ∀ b, e ≠ .breach b) :
    Unbroken (y s).result := by
  unfold Act.Sat at h
  generalize y s = o at h ⊢
  rcases o with ⟨e | a, t, es⟩
  · exact fun b hb => h b (Except.error.inj hb)
  · exact nofun

/-- Where nothing is known of the answer. -/
lemma Runs.bind_any (h : Runs x y s) (hf : ∀ a t, Runs (f a) (g a) t) : Runs (x >>= f) (y >>= g) s :=
  h.bind (P := fun _ _ => True) (E := fun _ _ => True)
    (by unfold Act.Sat; rcases y s with ⟨_ | _, _, _⟩ <;> trivial) fun a t _ => hf a t

lemma runs_pure (a : α) : Runs (Pure.pure a : Trial σ α) (Pure.pure a) s := ⟨rfl, nofun⟩

lemma runs_act (h : Unbroken (y s).result) : Runs (act y) y s := ⟨rfl, h⟩

lemma runs_lift (h : Unbroken (y s).result) : Runs (liftM y : Trial σ α) y s := ⟨rfl, h⟩

lemma runs_fail {e : Error} (h : ∀ b, e ≠ .breach b) : Runs (fail e : Trial σ α) (throw e) s :=
  ⟨rfl, fun b hb => h b (Except.error.inj hb)⟩

/-- Nothing comes after an error. -/
lemma runs_fail_bind {e : Error} (h : ∀ b, e ≠ .breach b) : Runs (fail e >>= f) (throw e >>= g) s :=
  ⟨rfl, fun b hb => h b (Except.error.inj hb)⟩

lemma Runs.pure_bind {a : α} {y : Act σ β} (h : Runs (f a) y s) : Runs (Pure.pure a >>= f) y s := by
  refine ⟨?_, h.unbroken⟩
  change Trial.bind (Trial.pure a) f s = _
  unfold Trial.bind Trial.pure
  simp only [h.eq]
  rfl

/-- What is done besides may not change a thing. -/
lemma Runs.met_bind {a : α} {y : Act σ β} (hx : Runs x (Pure.pure a) s) (h : Runs (f a) y s) :
    Runs (x >>= f) y s := by
  rw [← Act.pure_bind a fun _ => y]
  exact hx.bind (P := fun b t => b = a ∧ t = s) (E := fun _ _ => False) ⟨rfl, rfl⟩
    fun _ _ ⟨hb, ht⟩ => hb ▸ ht ▸ h

lemma runs_need {o : Option α} {a : α} (ho : o = some a) :
    Runs (liftM o : Trial σ α) (Pure.pure a) s := by
  subst ho
  exact runs_pure a

/-- A demand that is met adds nothing to what is done. -/
lemma Runs.need_bind {o : Option α} {a : α} {y : Act σ β} (ho : o = some a) (h : Runs (f a) y s) :
    Runs (liftM o >>= f) y s := by
  subst ho
  exact h.pure_bind

lemma Runs.check_bind {p : Prop} [Decidable p] {f : Unit → Trial σ β} {y : Act σ β} (hp : p)
    (h : Runs (f ()) y s) : Runs (check p >>= f) y s := by
  have hcheck : (check p : Trial σ Unit) = Pure.pure () := by
    funext t
    exact if_pos hp
  rw [hcheck]
  exact h.pure_bind

/-- What the trial looks up besides. -/
lemma Runs.peek_bind {f : σ → Trial σ β} {y : Act σ β} (h : Runs (f s) y s) :
    Runs (get >>= f) y s := by
  refine ⟨?_, h.unbroken⟩
  change Trial.bind (fun s => some ⟨.ok s, s, []⟩) f s = _
  unfold Trial.bind
  simp only [h.eq]
  rfl

lemma Runs.get_bind {f : σ → Trial σ β} {g : σ → Act σ β} (h : Runs (f s) (g s) s) :
    Runs (get >>= f) (get >>= g) s :=
  Runs.bind (P := fun a t => a = s ∧ t = s) (E := fun _ _ => False) ⟨rfl, nofun⟩ ⟨rfl, rfl⟩
    fun _ _ ⟨ha, ht⟩ => ha ▸ ht ▸ h

lemma Runs.modify_bind {m : σ → σ} {f : PUnit → Trial σ β} {g : PUnit → Act σ β}
    (h : Runs (f ⟨⟩) (g ⟨⟩) (m s)) : Runs (modify m >>= f) (modify m >>= g) s :=
  Runs.bind (P := fun _ t => t = m s) (E := fun _ _ => False) ⟨rfl, nofun⟩ rfl fun _ _ ht => ht ▸ h

lemma Runs.note_bind {ev : Event} {f : Unit → Trial σ β} {g : Unit → Act σ β}
    (h : Runs (f ()) (g ()) s) :
    Runs (note ev >>= f) (Act.note ev >>= g) s :=
  Runs.bind (P := fun _ t => t = s) (E := fun _ _ => False) ⟨rfl, nofun⟩ rfl fun _ _ ht => ht ▸ h

lemma Runs.zoom {part : Part τ σ} {t : τ} (h : Runs x y (part t).1) :
    Runs (zoom part x) (Act.zoom part y) t := by
  obtain ⟨h, hunbroken⟩ := h
  refine ⟨?_, hunbroken⟩
  unfold Trial.zoom Act.zoom
  rw [h]

/-- What only looks at a part only looks. -/
lemma Runs.peek_second {τ σ : Type} {x : Trial τ α} {a : α} {t : τ} {s : σ}
    (h : Runs x (Pure.pure a) t) : Runs (Trial.zoom Part.second x) (Pure.pure a) (s, t) := by
  refine ⟨?_, nofun⟩
  unfold Trial.zoom
  rw [show (Part.second (s, t)).1 = t from rfl, h.eq]
  rfl

/-! ### Trials and what they answer -/

/-- From `s`, the trial is never stuck and does what the action does, and an answer satisfies `P`. -/
structure Meets (x : Trial σ α) (y : Act σ α) (s : σ) (P : α → σ → Prop) : Prop where
  runs : Runs x y s
  sat : y.Sat s P fun _ _ => True

variable {P P' : α → σ → Prop} {Q : β → σ → Prop}

namespace Meets

lemma mono (h : Meets x y s P) (hP : ∀ a t, P a t → P' a t) : Meets x y s P' :=
  ⟨h.runs, h.sat.mono hP fun _ _ h => h⟩

lemma bind (h : Meets x y s P) (hf : ∀ a t, P a t → Meets (f a) (g a) t Q) :
    Meets (x >>= f) (y >>= g) s Q :=
  ⟨h.runs.bind h.sat fun a t ha => (hf a t ha).runs,
    Act.Sat.bind h.sat (fun a t ha => (hf a t ha).sat) fun _ _ h => h⟩

lemma pure {a : α} (h : P a s) : Meets (Pure.pure a) (Pure.pure a) s P := ⟨runs_pure a, h⟩

lemma fail {e : Error} (h : ∀ b, e ≠ .breach b) : Meets (Trial.fail e) (throw e) s P :=
  ⟨runs_fail h, trivial⟩

lemma fail_bind {e : Error} (h : ∀ b, e ≠ .breach b) : Meets (Trial.fail e >>= f) (throw e >>= g) s Q :=
  ⟨runs_fail_bind h, Act.Sat.throw_bind trivial⟩

lemma need_bind {o : Option α} {a : α} {y : Act σ β} (ho : o = some a) (h : Meets (f a) y s Q) :
    Meets (liftM o >>= f) y s Q :=
  ⟨.need_bind ho h.runs, h.sat⟩

lemma met_bind {a : α} {y : Act σ β} (hx : Runs x (Pure.pure a) s) (h : Meets (f a) y s Q) :
    Meets (x >>= f) y s Q :=
  ⟨.met_bind hx h.runs, h.sat⟩

lemma check_bind {p : Prop} [Decidable p] {f : Unit → Trial σ β} {y : Act σ β} (hp : p)
    (h : Meets (f ()) y s Q) : Meets (check p >>= f) y s Q :=
  ⟨.check_bind hp h.runs, h.sat⟩

lemma peek_bind {f : σ → Trial σ β} {y : Act σ β} (h : Meets (f s) y s Q) :
    Meets (get >>= f) y s Q :=
  ⟨h.runs.peek_bind, h.sat⟩

lemma get_bind {f : σ → Trial σ β} {g : σ → Act σ β} (h : Meets (f s) (g s) s Q) :
    Meets (get >>= f) (get >>= g) s Q :=
  ⟨h.runs.get_bind, h.sat.get_bind⟩

lemma modify_bind {m : σ → σ} {f : PUnit → Trial σ β} {g : PUnit → Act σ β}
    (h : Meets (f ⟨⟩) (g ⟨⟩) (m s) Q) : Meets (modify m >>= f) (modify m >>= g) s Q :=
  ⟨h.runs.modify_bind, h.sat.modify_bind⟩

lemma note_bind {ev : Event} {f : Unit → Trial σ β} {g : Unit → Act σ β}
    (h : Meets (f ()) (g ()) s Q) : Meets (note ev >>= f) (Act.note ev >>= g) s Q :=
  ⟨h.runs.note_bind, h.sat.note_bind⟩

lemma zoom {part : Part τ σ} {t : τ} {P : α → τ → Prop}
    (h : Meets x y (part t).1 fun a s => P a ((part t).2 s)) :
    Meets (zoom part x) (Act.zoom part y) t P :=
  ⟨h.runs.zoom, Act.sat_zoom.2 h.sat⟩

end Meets

end Trial

end FlashLink
