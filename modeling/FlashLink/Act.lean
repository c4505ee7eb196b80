import FlashLink.Event

/-!
Actions on a state. An action ends with an answer or with an error; either way it leaves a state,
as far as it got, and the events of the way there. Events are only ever added, so neither answers
nor states can depend on them.

A silent action (`Op`) notes nothing. `zoom` runs an action on a part of a larger state.
-/

namespace FlashLink

structure Outcome (σ α : Type) where
  result : Except Error α
  state : σ
  events : List Event

def Act (σ α : Type) : Type := σ → Outcome σ α

/-- An action without events. -/
abbrev Op (σ α : Type) : Type := EStateM Error σ α

/-- A part of a state: its value, and how a new value is put back. -/
abbrev Part (τ σ : Type) : Type := τ → σ × (σ → τ)

namespace Act

variable {σ τ α β : Type}

@[always_inline, inline]
def pure (a : α) : Act σ α := fun s => ⟨.ok a, s, []⟩

@[always_inline, inline]
def fail (e : Error) : Act σ α := fun s => ⟨.error e, s, []⟩

@[always_inline, inline]
def bind (x : Act σ α) (f : α → Act σ β) : Act σ β := fun s =>
  match x s with
  | ⟨.ok a, s, es⟩ =>
    match f a s with
    | ⟨r, s, es'⟩ => ⟨r, s, es ++ es'⟩
  | ⟨.error e, s, es⟩ => ⟨.error e, s, es⟩

instance : Monad (Act σ) where
  pure := Act.pure
  bind := Act.bind

@[always_inline, inline]
def catching (x : Act σ α) (f : Error → Act σ α) : Act σ α := fun s =>
  match x s with
  | ⟨.ok a, s, es⟩ => ⟨.ok a, s, es⟩
  | ⟨.error e, s, es⟩ =>
    match f e s with
    | ⟨r, s, es'⟩ => ⟨r, s, es ++ es'⟩

instance : MonadExceptOf Error (Act σ) where
  throw := Act.fail
  tryCatch := Act.catching

instance : MonadStateOf σ (Act σ) where
  get := fun s => ⟨.ok s, s, []⟩
  set s := fun _ => ⟨.ok (), s, []⟩
  modifyGet f := fun s => match f s with | (a, s) => ⟨.ok a, s, []⟩

def note (e : Event) : Act σ Unit := fun s => ⟨.ok (), s, [e]⟩

def ofExcept (r : Except Error α) : Act σ α := fun s => ⟨r, s, []⟩

@[always_inline, inline]
def ofOp (x : Op σ α) : Act σ α := fun s =>
  match x s with
  | .ok a s => ⟨.ok a, s, []⟩
  | .error e s => ⟨.error e, s, []⟩

instance : MonadLift (EStateM Error σ) (Act σ) := ⟨ofOp⟩

/-- Runs an action on a part of the state. -/
@[always_inline, inline]
def zoom (part : Part τ σ) (x : Act σ α) : Act τ α := fun t =>
  match part t with
  | (s, back) =>
    match x s with
    | ⟨r, s, es⟩ => ⟨r, back s, es⟩

/-- Turns failure into an answer; the state stays as far as the action got. -/
def attempt (x : Act σ α) : Act σ (Except Error α) := fun s =>
  match x s with
  | ⟨r, s, es⟩ => ⟨.ok r, s, es⟩

@[ext] theorem ext {x y : Act σ α} (h : ∀ s, x s = y s) : x = y := funext h

theorem id_map (x : Act σ α) : id <$> x = x := by
  ext s
  show Act.bind x Act.pure s = x s
  simp only [Act.bind, Act.pure]
  rcases x s with ⟨_ | _, _, _⟩ <;> simp

theorem pure_bind (a : α) (f : α → Act σ β) : (Pure.pure a : Act σ α) >>= f = f a := by
  ext s
  show Act.bind (Act.pure a) f s = f a s
  simp [Act.bind, Act.pure]

theorem bind_assoc {γ : Type} (x : Act σ α) (f : α → Act σ β) (g : β → Act σ γ) :
    x >>= f >>= g = x >>= fun a => f a >>= g := by
  ext s
  show Act.bind (Act.bind x f) g s = Act.bind x (fun a => Act.bind (f a) g) s
  simp only [Act.bind]
  rcases x s with ⟨_ | a, s, es⟩
  · rfl
  · simp only
    rcases f a s with ⟨_ | b, s', es'⟩
    · rfl
    · simp

instance : LawfulMonad (Act σ) := LawfulMonad.mk' (Act σ) id_map pure_bind bind_assoc

end Act

namespace Op

variable {σ τ α : Type}

/-- Runs a silent action on a part of the state. -/
@[always_inline, inline]
def zoom (part : Part τ σ) (x : Op σ α) : Op τ α := fun t =>
  match part t with
  | (s, back) =>
    match x s with
    | .ok a s => .ok a (back s)
    | .error e s => .error e (back s)

end Op

/-! ### Parts of parts -/

namespace Part

variable {α β : Type}

def first : Part (α × β) α := fun p => match p with | (a, b) => (a, fun a => (a, b))

def second : Part (α × β) β := fun p => match p with | (a, b) => (b, fun b => (a, b))

/-- A part of a part. -/
@[always_inline, inline]
def comp {γ : Type} (outer : Part α β) (inner : Part β γ) : Part α γ := fun a =>
  match outer a with
  | (b, back) =>
    match inner b with
    | (c, within) => (c, fun c => back (within c))

end Part

end FlashLink
