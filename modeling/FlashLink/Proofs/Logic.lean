import FlashLink.Act
import Mathlib.Tactic.Common

/-!
Reasoning about actions.

`Sat x s P E` says how the action `x` ends when it starts in `s`: with an answer and a state in
`P`, or with an error and a state in `E`. An action always ends, so both halves together are a full
specification; what an action leaves alone is a specification with one relation in both places.

`Sim x y s t S F` compares two runs: both end with one answer and states in `S`, or both end with one
error and states in `F`.
-/

namespace FlashLink

variable {σ τ α β : Type}

namespace Act

def Sat (x : Act σ α) (s : σ) (P : α → σ → Prop) (E : Error → σ → Prop) : Prop :=
  match x s with
  | ⟨.ok a, t, _⟩ => P a t
  | ⟨.error e, t, _⟩ => E e t

variable {x : Act σ α} {f : α → Act σ β} {s : σ} {P P' : α → σ → Prop} {E E' : Error → σ → Prop}
  {Q : β → σ → Prop}

lemma Sat.of_ok {a : α} {t : σ} {es : List Event} (h : Sat x s P E) (hx : x s = ⟨.ok a, t, es⟩) :
    P a t := by
  simpa [Sat, hx] using h

lemma Sat.of_result {a : α} (h : Sat x s P E) (hx : (x s).result = .ok a) : P a (x s).state := by
  rcases hxs : x s with ⟨r, t, es⟩
  rw [hxs] at hx
  cases hx
  exact h.of_ok hxs

lemma Sat.of_error {e : Error} {t : σ} {es : List Event} (h : Sat x s P E)
    (hx : x s = ⟨.error e, t, es⟩) : E e t := by
  simpa [Sat, hx] using h

lemma Sat.of_failure {e : Error} (h : Sat x s P E) (hx : (x s).result = .error e) :
    E e (x s).state := by
  rcases hxs : x s with ⟨r, t, es⟩
  rw [hxs] at hx
  cases hx
  exact h.of_error hxs

lemma exists_ok {o : Outcome σ α} (h : o.result.toOption.isSome) :
    ∃ a t es, o = ⟨.ok a, t, es⟩ := by
  rcases o with ⟨_ | a, t, es⟩
  · cases h
  · exact ⟨a, t, es, rfl⟩

/-- What holds of the state however the run ends. -/
lemma Sat.state {R : σ → Prop} (h : Sat x s (fun _ => R) fun _ => R) : R (x s).state := by
  unfold Sat at h
  generalize x s = o at h ⊢
  rcases o with ⟨_ | a, t, es⟩
  · exact h
  · exact h

/-- What cannot fail answers. -/
lemma Sat.exists_ok (h : Sat x s P fun _ _ => False) : ∃ a t es, x s = ⟨.ok a, t, es⟩ ∧ P a t := by
  unfold Sat at h
  generalize x s = o at h ⊢
  rcases o with ⟨_ | a, t, es⟩
  · exact h.elim
  · exact ⟨a, t, es, rfl, h⟩

lemma Sat.mono (h : Sat x s P E) (hP : ∀ a t, P a t → P' a t) (hE : ∀ e t, E e t → E' e t) :
    Sat x s P' E' := by
  unfold Sat at h ⊢
  generalize x s = o at h ⊢
  rcases o with ⟨_ | a, t, es⟩
  · exact hE _ _ h
  · exact hP _ _ h

lemma Sat.and (h : Sat x s P E) (h' : Sat x s P' E') :
    Sat x s (fun a t => P a t ∧ P' a t) (fun e t => E e t ∧ E' e t) := by
  unfold Sat at h h' ⊢
  generalize x s = o at h h' ⊢
  rcases o with ⟨_ | a, t, es⟩
  · exact ⟨h, h'⟩
  · exact ⟨h, h'⟩

/-- A sequence meets what its second action meets wherever the first one answers. -/
lemma Sat.bind {G : Error → σ → Prop} (h : Sat x s P G) (hf : ∀ a t, P a t → Sat (f a) t Q E)
    (hE : ∀ e t, G e t → E e t) : Sat (x >>= f) s Q E := by
  change Sat (Act.bind x f) s Q E
  unfold Sat at h ⊢
  unfold Act.bind
  generalize x s = o at h ⊢
  rcases o with ⟨_ | a, t, es⟩
  · exact hE _ _ h
  · have := hf a t h
    unfold Sat at this
    rcases hfa : f a t with ⟨_ | b, u, es'⟩ <;> simpa [hfa] using this

/-- Nothing is known of an action. -/
lemma sat_any (x : Act σ α) (s : σ) : Sat x s (fun _ _ => True) fun _ _ => True := by
  unfold Sat
  rcases x s with ⟨_ | _, _, _⟩ <;> trivial

/-- The first part has to leave what the second one asks for. -/
lemma Sat.seq (h : Sat x s (fun a t => Sat (f a) t Q E) E) : Sat (x >>= f) s Q E :=
  h.bind (fun _ _ h => h) fun _ _ h => h

@[simp] lemma sat_pure {a : α} : Sat (Pure.pure a : Act σ α) s P E ↔ P a s := Iff.rfl

@[simp] lemma sat_throw {e : Error} : Sat (throw e : Act σ α) s P E ↔ E e s := Iff.rfl

@[simp] lemma sat_note {ev : Event} {P : Unit → σ → Prop} : Sat (note ev) s P E ↔ P () s := Iff.rfl

@[simp] lemma sat_get {P : σ → σ → Prop} : Sat (get : Act σ σ) s P E ↔ P s s := Iff.rfl

@[simp] lemma sat_modify {g : σ → σ} {P : PUnit → σ → Prop} :
    Sat (modify g : Act σ PUnit) s P E ↔ P ⟨⟩ (g s) := Iff.rfl

@[simp] lemma sat_modifyGet {g : σ → α × σ} :
    Sat (modifyGet g : Act σ α) s P E ↔ P (g s).1 (g s).2 := Iff.rfl

lemma sat_ofExcept {r : Except Error α} (hok : ∀ a, r = .ok a → P a s)
    (herr : ∀ e, r = .error e → E e s) : Sat (ofExcept r) s P E := by
  cases r with
  | error e => exact herr e rfl
  | ok a => exact hok a rfl

@[simp] lemma sat_zoom {part : Part τ σ} {t : τ} {P : α → τ → Prop} {E : Error → τ → Prop} :
    Sat (zoom part x) t P E ↔
      Sat x (part t).1 (fun a s => P a ((part t).2 s)) (fun e s => E e ((part t).2 s)) := by
  unfold Sat zoom
  rcases part t with ⟨u, back⟩
  simp only
  rcases x u with ⟨_ | a, v, es⟩ <;> rfl

/-! ### Single runs -/

lemma bind_of_ok {a : α} {t : σ} {es : List Event} (hx : x s = ⟨.ok a, t, es⟩) :
    (x >>= f) s = ⟨(f a t).result, (f a t).state, es ++ (f a t).events⟩ := by
  show Act.bind x f s = _
  simp only [Act.bind, hx]

lemma bind_of_error {e : Error} {t : σ} {es : List Event} (hx : x s = ⟨.error e, t, es⟩) :
    (x >>= f) s = ⟨.error e, t, es⟩ := by
  show Act.bind x f s = _
  simp only [Act.bind, hx]

lemma get_bind (g : σ → Act σ β) : (get >>= g) s = g s s := rfl

lemma zoom_eq (part : Part τ σ) (x : Act σ α) (t : τ) :
    zoom part x t =
      ⟨(x (part t).1).result, (part t).2 (x (part t).1).state, (x (part t).1).events⟩ := rfl

/-! ### Parts and sequences -/

/-- An action on a part leaves alone what does not depend on the part. -/
lemma zoom_keeps {γ : Type} {part : Part τ σ} (x : Act σ α) (t : τ) (g : τ → γ)
    (hg : ∀ s, g ((part t).2 s) = g t) :
    Sat (zoom part x) t (fun _ u => g u = g t) (fun _ u => g u = g t) := by
  rw [sat_zoom]
  unfold Sat
  rcases x (part t).1 with ⟨_ | _, _, _⟩ <;> exact hg _

lemma Sat.pure_bind {a : α} {g : α → Act σ β} (h : Sat (g a) s Q E) :
    Sat (Pure.pure a >>= g) s Q E := by
  rwa [Act.pure_bind]

lemma Sat.throw_bind {e : Error} {g : α → Act σ β} (h : E e s) : Sat (throw e >>= g) s Q E := h

lemma Sat.note_bind {ev : Event} {g : PUnit → Act σ β} (h : Sat (g ⟨⟩) s Q E) :
    Sat (note ev >>= g) s Q E :=
  Sat.bind (P := fun _ t => t = s) (G := fun _ _ => False) (sat_note.2 rfl)
    (fun _ _ ht => ht ▸ h) (fun _ _ h => h.elim)

lemma Sat.get_bind {g : σ → Act σ β} (h : Sat (g s) s Q E) : Sat (get >>= g) s Q E :=
  Sat.bind (P := fun a t => a = s ∧ t = s) (G := fun _ _ => False) (sat_get.2 ⟨rfl, rfl⟩)
    (fun _ _ ⟨ha, ht⟩ => ha ▸ ht ▸ h) (fun _ _ h => h.elim)

lemma Sat.modify_bind {m : σ → σ} {g : PUnit → Act σ β} (h : Sat (g ⟨⟩) (m s) Q E) :
    Sat (modify m >>= g) s Q E :=
  Sat.bind (P := fun _ t => t = m s) (G := fun _ _ => False) (sat_modify.2 rfl)
    (fun _ _ ht => ht ▸ h) (fun _ _ h => h.elim)

/-- Going on however the run ended. -/
lemma Sat.attempt_bind {g : Except Error α → Act σ β} (h : Sat x s P E)
    (hok : ∀ a t, P a t → Sat (g (.ok a)) t Q E')
    (herror : ∀ e t, E e t → Sat (g (.error e)) t Q E') : Sat (attempt x >>= g) s Q E' := by
  refine Sat.bind (P := fun r t => Sat (g r) t Q E') (G := fun _ _ => False) ?_ (fun _ _ h => h)
    fun _ _ h => h.elim
  unfold Sat attempt at *
  generalize x s = o at h ⊢
  rcases o with ⟨_ | a, t, es⟩
  · exact herror _ _ h
  · exact hok _ _ h

lemma Sat.bind_of_ok {a : α} {t : σ} {es : List Event} (hx : x s = ⟨.ok a, t, es⟩)
    (h : Sat (f a) t Q E) : Sat (x >>= f) s Q E := by
  refine Sat.bind (P := fun b u => b = a ∧ u = t) (G := fun _ _ => False) ?_ ?_ fun _ _ h => h.elim
  · unfold Sat
    rw [hx]
    exact ⟨rfl, rfl⟩
  · rintro _ _ ⟨rfl, rfl⟩
    exact h

lemma Sat.bind_of_error {e : Error} {t : σ} {es : List Event} (hx : x s = ⟨.error e, t, es⟩)
    (h : E e t) : Sat (x >>= f) s Q E := by
  refine Sat.bind (P := fun _ _ => False) (G := fun e' u => e' = e ∧ u = t) ?_ (fun _ _ h => h.elim) ?_
  · unfold Sat
    rw [hx]
    exact ⟨rfl, rfl⟩
  · rintro _ _ ⟨rfl, rfl⟩
    exact h

/-- What a sequence that succeeds went through. -/
lemma ok_of_bind {r : Except Error α} {g : α → Except Error β} {b : β} (h : r >>= g = .ok b) :
    ∃ a, r = .ok a ∧ g a = .ok b := by
  cases r with
  | error e => cases h
  | ok a => exact ⟨a, rfl, h⟩

/-- An action whose answer or error is known, and whose state is in `R`. -/
def Yields (x : Act σ α) (s : σ) (r : Except Error α) (R : σ → Prop) : Prop :=
  Sat x s (fun a t => r = .ok a ∧ R t) (fun e t => r = .error e ∧ R t)

/-! ### What stays as it is -/

/-- Whatever the action does, `g` of the state stays. -/
def Keeps {γ : Type} (g : σ → γ) (x : Act σ α) : Prop :=
  ∀ s, Sat x s (fun _ t => g t = g s) fun _ t => g t = g s

section Keeps

variable {γ δ : Type} {g : σ → γ}

lemma Keeps.bind (h : Keeps g x) (hf : ∀ a, Keeps g (f a)) : Keeps g (x >>= f) :=
  fun s => (h s).bind (fun a t ht => (hf a t).mono (fun _ _ h => h.trans ht) fun _ _ h => h.trans ht)
    fun _ _ h => h

lemma Keeps.pure (a : α) : Keeps g (Pure.pure a : Act σ α) := fun _ => rfl

lemma Keeps.throw (e : Error) : Keeps g (throw e : Act σ α) := fun _ => rfl

lemma Keeps.note (ev : Event) : Keeps g (Act.note ev) := fun _ => rfl

lemma Keeps.get : Keeps g (get : Act σ σ) := fun _ => rfl

lemma Keeps.modify {m : σ → σ} (h : ∀ s, g (m s) = g s) : Keeps g (modify m : Act σ PUnit) :=
  fun s => h s

/-- What is a function of a part stays if the part keeps it. -/
lemma Keeps.zoom {part : Part τ σ} {k : τ → δ} (h : Keeps g x)
    (hk : ∀ t s, g s = g (part t).1 → k ((part t).2 s) = k t) : Keeps k (zoom part x) :=
  fun t => sat_zoom.2 ((h (part t).1).mono (fun _ s hs => hk t s hs) fun _ s hs => hk t s hs)

/-- What does not depend on a part stays. -/
lemma Keeps.zoom_other {part : Part τ σ} {k : τ → δ} (x : Act σ α)
    (hk : ∀ t s, k ((part t).2 s) = k t) : Keeps k (Act.zoom part x) :=
  fun t => zoom_keeps x t k (hk t)

end Keeps

/-! ### What stays true -/

/-- However it ends, the action leaves a state in `I` in a state in `I`. -/
def Preserves (I : σ → Prop) (x : Act σ α) : Prop :=
  ∀ s, I s → Sat x s (fun _ t => I t) fun _ t => I t

section Preserves

variable {I : σ → Prop} {J : τ → Prop}

lemma Preserves.bind (h : Preserves I x) (hf : ∀ a, Preserves I (f a)) : Preserves I (x >>= f) :=
  fun s hs => (h s hs).bind (fun a t ht => hf a t ht) fun _ _ ht => ht

lemma Preserves.ite {y : Act σ α} {p : Prop} [Decidable p] (h : Preserves I x) (h' : Preserves I y) :
    Preserves I (if p then x else y) := by
  split_ifs
  · exact h
  · exact h'

lemma Preserves.pure (a : α) : Preserves I (Pure.pure a : Act σ α) := fun _ hs => hs

lemma Preserves.throw (e : Error) : Preserves I (throw e : Act σ α) := fun _ hs => hs

lemma Preserves.note (ev : Event) : Preserves I (Act.note ev) := fun _ hs => hs

lemma Preserves.get : Preserves I (get : Act σ σ) := fun _ hs => hs

lemma Preserves.modify {m : σ → σ} (h : ∀ s, I s → I (m s)) : Preserves I (modify m : Act σ PUnit) := h

lemma Preserves.ofExcept (r : Except Error α) : Preserves I (Act.ofExcept r : Act σ α) := by
  intro s hs
  exact sat_ofExcept (fun _ _ => hs) fun _ _ => hs

/-- If the part stays in what puts the whole in `J`, the whole stays in `J`. -/
lemma Preserves.zoom {part : Part τ σ}
    (h : ∀ t, J t → Sat x (part t).1 (fun _ s => J ((part t).2 s)) fun _ s => J ((part t).2 s)) :
    Preserves J (Act.zoom part x) := fun t ht => sat_zoom.2 (h t ht)

end Preserves

/-! ### Two runs -/

/-- Two runs that both succeed, with one answer and states in `S`, or that both fail, with one error
and states in `F`. -/
def Sim (x y : Act σ α) (s t : σ) (S : α → σ → σ → Prop) (F : Error → σ → σ → Prop) : Prop :=
  match x s, y t with
  | ⟨.ok a, s', _⟩, ⟨.ok b, t', _⟩ => a = b ∧ S a s' t'
  | ⟨.error e, s', _⟩, ⟨.error e', t', _⟩ => e = e' ∧ F e s' t'
  | _, _ => False

section Sim

variable {x y : Act σ α} {f g : α → Act σ β} {s t : σ} {S S' : α → σ → σ → Prop}
  {F F' : Error → σ → σ → Prop} {T : β → σ → σ → Prop}

lemma Sim.mono (h : Sim x y s t S F) (hS : ∀ a s' t', S a s' t' → S' a s' t')
    (hF : ∀ e s' t', F e s' t' → F' e s' t') : Sim x y s t S' F' := by
  unfold Sim at h ⊢
  generalize x s = o at h ⊢
  generalize y t = o' at h ⊢
  rcases o with ⟨_ | a, s', es⟩ <;> rcases o' with ⟨_ | b, t', es'⟩
  · exact ⟨h.1, hF _ _ _ h.2⟩
  · exact h
  · exact h
  · exact ⟨h.1, hS _ _ _ h.2⟩

lemma Sim.bind {G : Error → σ → σ → Prop} (h : Sim x y s t S G)
    (hfg : ∀ a s' t', S a s' t' → Sim (f a) (g a) s' t' T F)
    (hF : ∀ e s' t', G e s' t' → F e s' t') : Sim (x >>= f) (y >>= g) s t T F := by
  change Sim (Act.bind x f) (Act.bind y g) s t T F
  unfold Sim at h ⊢
  unfold Act.bind
  generalize x s = o at h ⊢
  generalize y t = o' at h ⊢
  rcases o with ⟨_ | a, s', es⟩ <;> rcases o' with ⟨_ | b, t', es'⟩
  · exact ⟨h.1, hF _ _ _ h.2⟩
  · exact False.elim h
  · exact False.elim h
  · obtain ⟨rfl, h⟩ := h
    have := hfg a s' t' h
    unfold Sim at this
    dsimp only
    rcases hfa : f a s' with ⟨_ | c, u, fs⟩ <;> rcases hga : g a t' with ⟨_ | d, v, gs⟩ <;>
      rw [hfa, hga] at this <;> exact this

/-- Where the first run succeeds, so does the second. -/
lemma Sim.of_ok {a : α} {s' : σ} {es : List Event} (h : Sim x y s t S F) (hx : x s = ⟨.ok a, s', es⟩) :
    Sat y t (fun b t' => b = a ∧ S a s' t') fun _ _ => False := by
  unfold Sim at h
  unfold Sat
  rw [hx] at h
  generalize y t = o at h ⊢
  rcases o with ⟨_ | b, t', es'⟩
  · exact h
  · exact ⟨h.1.symm, h.2⟩

/-- Both runs end alike. -/
lemma Sim.result_eq (h : Sim x y s t S F) : (y t).result = (x s).result := by
  unfold Sim at h
  generalize x s = o at h ⊢
  generalize y t = o' at h ⊢
  rcases o with ⟨_ | a, s', es⟩ <;> rcases o' with ⟨_ | b, t', es'⟩
  · exact congrArg Except.error h.1.symm
  · exact h.elim
  · exact h.elim
  · exact congrArg Except.ok h.1.symm

lemma Sim.of_result {a : α} (h : Sim x y s t S F) (hx : (x s).result = .ok a) :
    S a (x s).state (y t).state := by
  rcases hxs : x s with ⟨r, s', es⟩
  rw [hxs] at hx
  cases hx
  rcases hyt : y t with ⟨r', t', es'⟩
  have hsat := h.of_ok hxs
  unfold Sat at hsat
  rw [hyt] at hsat
  rcases r' with e | b
  · exact hsat.elim
  · exact hsat.2

/-- What holds of both states however the runs end. -/
lemma Sim.states {R : σ → σ → Prop} (h : Sim x y s t (fun _ => R) fun _ => R) :
    R (x s).state (y t).state := by
  unfold Sim at h
  generalize x s = o at h ⊢
  generalize y t = o' at h ⊢
  rcases o with ⟨_ | a, s', es⟩ <;> rcases o' with ⟨_ | b, t', es'⟩
  · exact h.2
  · exact h.elim
  · exact h.elim
  · exact h.2

/-- How both runs end. -/
lemma Sim.ends {R : Except Error α → σ → σ → Prop}
    (h : Sim x y s t (fun a => R (.ok a)) fun e => R (.error e)) :
    (y t).result = (x s).result ∧ R (x s).result (x s).state (y t).state := by
  unfold Sim at h
  generalize x s = o at h ⊢
  generalize y t = o' at h ⊢
  rcases o with ⟨_ | a, s', es⟩ <;> rcases o' with ⟨_ | b, t', es'⟩
  · exact ⟨congrArg Except.error h.1.symm, h.2⟩
  · exact h.elim
  · exact h.elim
  · exact ⟨congrArg Except.ok h.1.symm, h.2⟩

@[simp] lemma sim_pure {a : α} : Sim (Pure.pure a : Act σ α) (Pure.pure a) s t S F ↔ S a s t :=
  ⟨fun h => h.2, fun h => ⟨rfl, h⟩⟩

lemma sim_pure_of {a b : α} (h : a = b) (hS : S a s t) :
    Sim (Pure.pure a : Act σ α) (Pure.pure b) s t S F := ⟨h, hS⟩

@[simp] lemma sim_throw {e : Error} : Sim (throw e : Act σ α) (throw e) s t S F ↔ F e s t :=
  ⟨fun h => h.2, fun h => ⟨rfl, h⟩⟩

@[simp] lemma sim_zoom {part : Part τ σ} {u v : τ} {S : α → τ → τ → Prop}
    {F : Error → τ → τ → Prop} :
    Sim (zoom part x) (zoom part y) u v S F ↔ Sim x y (part u).1 (part v).1
      (fun a s t => S a ((part u).2 s) ((part v).2 t))
      (fun e s t => F e ((part u).2 s) ((part v).2 t)) := by
  unfold Sim zoom
  rcases part u with ⟨s, back⟩
  rcases part v with ⟨t, back'⟩
  simp only
  rcases x s with ⟨_ | a, s', es⟩ <;> rcases y t with ⟨_ | b, t', es'⟩ <;> rfl

/-- Two runs from one state are the same run. -/
lemma sim_same (x : Act σ α) (s : σ) :
    Sim x x s s (fun _ s' t' => s' = t') fun _ s' t' => s' = t' := by
  unfold Sim
  rcases x s with ⟨_ | a, s', es⟩ <;> exact ⟨rfl, rfl⟩

/-- What is known of the first run besides. -/
lemma Sim.and_sat {P : α → σ → Prop} {E : Error → σ → Prop} (h : Sim x y s t S F)
    (hx : Sat x s P E) :
    Sim x y s t (fun a s' t' => S a s' t' ∧ P a s') fun e s' t' => F e s' t' ∧ E e s' := by
  unfold Sim at h ⊢
  unfold Sat at hx
  generalize x s = o at h hx ⊢
  generalize y t = o' at h ⊢
  rcases o with ⟨_ | a, s', es⟩ <;> rcases o' with ⟨_ | b, t', es'⟩
  · exact ⟨h.1, h.2, hx⟩
  · exact h
  · exact h
  · exact ⟨h.1, h.2, hx⟩

/-- What is known of the second run besides. -/
lemma Sim.and_sat_right {P : α → σ → Prop} {E : Error → σ → Prop} (h : Sim x y s t S F)
    (hy : Sat y t P E) :
    Sim x y s t (fun a s' t' => S a s' t' ∧ P a t') fun e s' t' => F e s' t' ∧ E e t' := by
  unfold Sim at h ⊢
  unfold Sat at hy
  generalize x s = o at h ⊢
  generalize y t = o' at h hy ⊢
  rcases o with ⟨_ | a, s', es⟩ <;> rcases o' with ⟨_ | b, t', es'⟩
  · obtain ⟨rfl, h⟩ := h
    exact ⟨rfl, h, hy⟩
  · exact h
  · exact h
  · obtain ⟨rfl, h⟩ := h
    exact ⟨rfl, h, hy⟩

lemma Sim.pure_bind {a : α} (h : Sim (f a) (g a) s t T F) :
    Sim (Pure.pure a >>= f) (Pure.pure a >>= g) s t T F := by
  rwa [Act.pure_bind, Act.pure_bind]

lemma Sim.throw_bind {e : Error} (h : F e s t) : Sim (throw e >>= f) (throw e >>= g) s t T F :=
  ⟨rfl, h⟩

lemma Sim.note_bind {ev ev' : Event} {f g : PUnit → Act σ β} (h : Sim (f ⟨⟩) (g ⟨⟩) s t T F) :
    Sim (note ev >>= f) (note ev' >>= g) s t T F :=
  Sim.bind (S := fun _ s' t' => s' = s ∧ t' = t) (G := fun _ _ _ => False) ⟨rfl, rfl, rfl⟩
    (fun _ _ _ ⟨hs, ht⟩ => hs ▸ ht ▸ h) fun _ _ _ h => h.elim

lemma Sim.get_bind {f g : σ → Act σ β} (h : Sim (f s) (g t) s t T F) :
    Sim (get >>= f) (get >>= g) s t T F := by
  unfold Sim at h
  change Sim (Act.bind (fun s => ⟨.ok s, s, []⟩) f) (Act.bind (fun s => ⟨.ok s, s, []⟩) g) s t T F
  unfold Sim Act.bind
  dsimp only
  rcases hf : f s s with ⟨_ | a, s', es⟩ <;> rcases hg : g t t with ⟨_ | b, t', es'⟩ <;>
    rw [hf, hg] at h <;> exact h

lemma Sim.modify_bind {m n : σ → σ} {f g : PUnit → Act σ β}
    (h : Sim (f ⟨⟩) (g ⟨⟩) (m s) (n t) T F) :
    Sim (modify m >>= f) (modify n >>= g) s t T F :=
  Sim.bind (S := fun _ s' t' => s' = m s ∧ t' = n t) (G := fun _ _ _ => False) ⟨rfl, rfl, rfl⟩
    (fun _ _ _ ⟨hs, ht⟩ => hs ▸ ht ▸ h) fun _ _ _ h => h.elim

end Sim

end Act

/-! ### Silent actions -/

namespace Op

def Sat (x : Op σ α) (s : σ) (P : α → σ → Prop) (E : Error → σ → Prop) : Prop :=
  match x s with
  | .ok a t => P a t
  | .error e t => E e t

variable {x : Op σ α} {f : α → Op σ β} {s : σ} {P P' : α → σ → Prop} {E E' : Error → σ → Prop}
  {Q : β → σ → Prop}

lemma Sat.mono (h : Sat x s P E) (hP : ∀ a t, P a t → P' a t) (hE : ∀ e t, E e t → E' e t) :
    Sat x s P' E' := by
  unfold Sat at h ⊢
  generalize x s = o at h ⊢
  rcases o with ⟨a, t⟩ | ⟨e, t⟩
  · exact hP _ _ h
  · exact hE _ _ h

lemma sat_any (x : Op σ α) (s : σ) : Sat x s (fun _ _ => True) fun _ _ => True := by
  unfold Sat
  rcases x s with ⟨_, _⟩ | ⟨_, _⟩ <;> trivial

lemma Sat.and (h : Sat x s P E) (h' : Sat x s P' E') :
    Sat x s (fun a t => P a t ∧ P' a t) (fun e t => E e t ∧ E' e t) := by
  unfold Sat at h h' ⊢
  generalize x s = o at h h' ⊢
  rcases o with ⟨a, t⟩ | ⟨e, t⟩
  · exact ⟨h, h'⟩
  · exact ⟨h, h'⟩

lemma Sat.bind {G : Error → σ → Prop} (h : Sat x s P G) (hf : ∀ a t, P a t → Sat (f a) t Q E)
    (hE : ∀ e t, G e t → E e t) : Sat (x >>= f) s Q E := by
  change Sat (EStateM.bind x f) s Q E
  unfold Sat at h ⊢
  unfold EStateM.bind
  generalize x s = o at h ⊢
  rcases o with ⟨a, t⟩ | ⟨e, t⟩
  · exact hf a t h
  · exact hE _ _ h

lemma Sat.seq (h : Sat x s (fun a t => Sat (f a) t Q E) E) : Sat (x >>= f) s Q E :=
  h.bind (fun _ _ h => h) fun _ _ h => h

/-- What cannot fail answers. -/
lemma Sat.exists_ok (h : Sat x s P fun _ _ => False) : ∃ a t, x s = .ok a t ∧ P a t := by
  unfold Sat at h
  generalize x s = o at h ⊢
  rcases o with ⟨a, t⟩ | ⟨e, t⟩
  · exact ⟨a, t, rfl, h⟩
  · exact h.elim

lemma bind_of_ok {a : α} {t : σ} (h : x s = .ok a t) (f : α → Op σ β) : (x >>= f) s = f a t := by
  simp only [Bind.bind, EStateM.bind, h]

lemma bind_of_error {e : Error} {t : σ} (h : x s = .error e t) (f : α → Op σ β) :
    (x >>= f) s = .error e t := by
  simp only [Bind.bind, EStateM.bind, h]

@[simp] lemma sat_pure {a : α} : Sat (pure a : Op σ α) s P E ↔ P a s := Iff.rfl

@[simp] lemma sat_throw {e : Error} : Sat (throw e : Op σ α) s P E ↔ E e s := Iff.rfl

@[simp] lemma sat_get {P : σ → σ → Prop} : Sat (get : Op σ σ) s P E ↔ P s s := Iff.rfl

@[simp] lemma sat_zoom {part : Part τ σ} {t : τ} {P : α → τ → Prop} {E : Error → τ → Prop} :
    Sat (zoom part x) t P E ↔
      Sat x (part t).1 (fun a s => P a ((part t).2 s)) (fun e s => E e ((part t).2 s)) := by
  unfold Sat zoom
  rcases part t with ⟨u, back⟩
  simp only
  rcases x u with ⟨a, v⟩ | ⟨e, v⟩ <;> rfl

lemma Sat.throw_bind {e : Error} {g : α → Op σ β} (h : E e s) : Sat (throw e >>= g) s Q E := h

lemma Sat.get_bind {g : σ → Op σ β} (h : Sat (g s) s Q E) : Sat (get >>= g) s Q E :=
  Sat.bind (P := fun a t => a = s ∧ t = s) (G := fun _ _ => False) (sat_get.2 ⟨rfl, rfl⟩)
    (fun _ _ ⟨ha, ht⟩ => ha ▸ ht ▸ h) (fun _ _ h => h.elim)

lemma Sat.modify_bind {m : σ → σ} {g : PUnit → Op σ β} (h : Sat (g ⟨⟩) (m s) Q E) :
    Sat (modify m >>= g) s Q E := h

/-! ### Two silent runs -/

/-- As `Act.Sim`, for silent actions. -/
def Sim (x y : Op σ α) (s t : σ) (S : α → σ → σ → Prop) (F : Error → σ → σ → Prop) : Prop :=
  match x s, y t with
  | .ok a s', .ok b t' => a = b ∧ S a s' t'
  | .error e s', .error e' t' => e = e' ∧ F e s' t'
  | _, _ => False

section Sim

variable {x y : Op σ α} {f g : α → Op σ β} {s t : σ} {S S' : α → σ → σ → Prop}
  {F F' : Error → σ → σ → Prop} {T : β → σ → σ → Prop}

lemma Sim.mono (h : Sim x y s t S F) (hS : ∀ a s' t', S a s' t' → S' a s' t')
    (hF : ∀ e s' t', F e s' t' → F' e s' t') : Sim x y s t S' F' := by
  unfold Sim at h ⊢
  generalize x s = o at h ⊢
  generalize y t = o' at h ⊢
  rcases o with ⟨a, s'⟩ | ⟨e, s'⟩ <;> rcases o' with ⟨b, t'⟩ | ⟨e', t'⟩
  · exact ⟨h.1, hS _ _ _ h.2⟩
  · exact h
  · exact h
  · exact ⟨h.1, hF _ _ _ h.2⟩

lemma Sim.bind {G : Error → σ → σ → Prop} (h : Sim x y s t S G)
    (hfg : ∀ a s' t', S a s' t' → Sim (f a) (g a) s' t' T F)
    (hF : ∀ e s' t', G e s' t' → F e s' t') : Sim (x >>= f) (y >>= g) s t T F := by
  change Sim (EStateM.bind x f) (EStateM.bind y g) s t T F
  unfold Sim at h ⊢
  unfold EStateM.bind
  generalize x s = o at h ⊢
  generalize y t = o' at h ⊢
  rcases o with ⟨a, s'⟩ | ⟨e, s'⟩ <;> rcases o' with ⟨b, t'⟩ | ⟨e', t'⟩
  · obtain ⟨rfl, h⟩ := h
    exact hfg a s' t' h
  · exact h.elim
  · exact h.elim
  · exact ⟨h.1, hF _ _ _ h.2⟩

lemma Sim.and_sat {P : α → σ → Prop} {E : Error → σ → Prop} (h : Sim x y s t S F)
    (hx : Sat x s P E) :
    Sim x y s t (fun a s' t' => S a s' t' ∧ P a s') fun e s' t' => F e s' t' ∧ E e s' := by
  unfold Sim at h ⊢
  unfold Sat at hx
  generalize x s = o at h hx ⊢
  generalize y t = o' at h ⊢
  rcases o with ⟨a, s'⟩ | ⟨e, s'⟩ <;> rcases o' with ⟨b, t'⟩ | ⟨e', t'⟩
  · exact ⟨h.1, h.2, hx⟩
  · exact h
  · exact h
  · exact ⟨h.1, h.2, hx⟩

/-- Two runs from one state are the same run. -/
lemma sim_same (x : Op σ α) (s : σ) :
    Sim x x s s (fun _ s' t' => s' = t') fun _ s' t' => s' = t' := by
  unfold Sim
  rcases x s with ⟨a, s'⟩ | ⟨e, s'⟩ <;> exact ⟨rfl, rfl⟩

lemma Sim.get_bind {f g : σ → Op σ β} (h : Sim (f s) (g t) s t T F) :
    Sim (get >>= f) (get >>= g) s t T F := h

lemma Sim.modify_bind {m n : σ → σ} {f g : PUnit → Op σ β}
    (h : Sim (f ⟨⟩) (g ⟨⟩) (m s) (n t) T F) : Sim (modify m >>= f) (modify n >>= g) s t T F := h

lemma Sim.throw_bind {e : Error} (h : F e s t) : Sim (throw e >>= f) (throw e >>= g) s t T F :=
  ⟨rfl, h⟩

@[simp] lemma sim_pure {a : α} : Sim (pure a : Op σ α) (pure a) s t S F ↔ S a s t :=
  ⟨fun h => h.2, fun h => ⟨rfl, h⟩⟩

@[simp] lemma sim_zoom {part : Part τ σ} {u v : τ} {S : α → τ → τ → Prop}
    {F : Error → τ → τ → Prop} :
    Sim (zoom part x) (zoom part y) u v S F ↔ Sim x y (part u).1 (part v).1
      (fun a s t => S a ((part u).2 s) ((part v).2 t))
      (fun e s t => F e ((part u).2 s) ((part v).2 t)) := by
  unfold Sim zoom
  rcases part u with ⟨s, back⟩
  rcases part v with ⟨t, back'⟩
  simp only
  rcases x s with ⟨a, s'⟩ | ⟨e, s'⟩ <;> rcases y t with ⟨b, t'⟩ | ⟨e', t'⟩ <;> rfl

end Sim

end Op

@[simp] lemma Act.sat_ofOp {x : Op σ α} {s : σ} {P : α → σ → Prop} {E : Error → σ → Prop} :
    Act.Sat (Act.ofOp x) s P E ↔ Op.Sat x s P E := by
  unfold Act.Sat Op.Sat Act.ofOp
  rcases x s with ⟨a, t⟩ | ⟨e, t⟩ <;> rfl

@[simp] lemma Act.sim_ofOp {x y : Op σ α} {s t : σ} {S : α → σ → σ → Prop}
    {F : Error → σ → σ → Prop} :
    Act.Sim (Act.ofOp x) (Act.ofOp y) s t S F ↔ Op.Sim x y s t S F := by
  unfold Act.Sim Op.Sim Act.ofOp
  rcases x s with ⟨a, s'⟩ | ⟨e, s'⟩ <;> rcases y t with ⟨b, t'⟩ | ⟨e', t'⟩ <;> rfl

end FlashLink
