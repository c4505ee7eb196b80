import FlashLink.Proofs.Symbols

/-!
The symbol cache is invisible. Whatever symbols are resolved through it, in whatever order, and whichever
of them share a slot or cannot be resolved: each answer, address or error, is the one that reading the
symbol afresh gives. A symbol that cannot be resolved leaves the slots as they were, so an error is never
remembered, and every look-up is counted once, as a hit or as a miss.
-/

namespace FlashLink

open Act

namespace Scope

/-- The address of symbol `index`, read from the source whatever has been resolved before. -/
def resolveAfresh (c : Scope) (index : Nat) : Act Linker Addr := do
  if index = 0 then return 0
  let s ← Act.zoom Linker.sourcePart (c.symbols.read index)
  c.address index s

/-- Resolves one symbol after the other, and goes on after errors. -/
def resolveAll (c : Scope) : List Nat → Act Linker (List (Except Error Addr))
  | [] => return []
  | index :: rest => do
    let answer ← Act.attempt (c.resolve index)
    return answer :: (← resolveAll c rest)

variable {c : Scope} {src : Source} {l m : Linker} {index : Nat} {calls rest : List Nat}

/-! ### Without the cache -/

lemma resolveAfresh_yields (index : Nat) (h : Source.Same src l.source) :
    Yields (c.resolveAfresh index) l (c.rule src index) fun m => Source.Same src m.source := by
  unfold resolveAfresh rule
  split_ifs with h0
  · exact ⟨rfl, h⟩
  have hentry := SymbolTable.entry_same (t := c.symbols) h index
  refine Sat.bind (P := fun s m => c.symbols.entry src index = .ok s ∧ Source.Same src m.source)
    (G := fun e m => c.symbols.entry src index = .error e ∧ Source.Same src m.source) ?_ ?_ ?_
  · refine sat_zoom.2 ((SymbolTable.read_yields c.symbols l.source index).mono ?_ ?_)
    · exact fun s u hu => ⟨hentry ▸ hu.1, h.trans hu.2⟩
    · exact fun e u hu => ⟨hentry ▸ hu.1, h.trans hu.2⟩
  · rintro s m ⟨hs, hm⟩
    rw [hs]
    exact (address_yields c index s m).mono (fun _ _ h => ⟨h.1, h.2 ▸ hm⟩) fun _ _ h => ⟨h.1, h.2 ▸ hm⟩
  · rintro e m ⟨he, hm⟩
    rw [he]
    exact ⟨rfl, hm⟩

/-- What reading afresh answers is the rule. -/
lemma result_resolveAfresh (c : Scope) (l : Linker) (index : Nat) :
    (c.resolveAfresh index l).result = c.rule l.source index := by
  have hyields := resolveAfresh_yields (c := c) (l := l) index (.refl l.source)
  rcases hrun : c.resolveAfresh index l with ⟨e | a, m, es⟩
  · exact (hyields.of_error hrun).1.symm
  · exact (hyields.of_ok hrun).1.symm

/-! ### What one look-up does to the cache -/

/-- The cache has been looked up once more, unless there was no symbol to look for. -/
def Counted (index : Nat) (cache cache' : SymbolCache) : Prop :=
  cache'.hits + cache'.misses = cache.hits + cache.misses + if index = 0 then 0 else 1

lemma counted_get (h0 : index ≠ 0) (cache : SymbolCache) : Counted index cache (cache.get index).2 := by
  unfold Counted SymbolCache.get
  rw [if_neg h0]
  rcases cache.find? index with _ | a <;> dsimp only <;> omega

lemma slots_get (cache : SymbolCache) (index : Nat) : (cache.get index).2.slots = cache.slots := by
  unfold SymbolCache.get
  rcases cache.find? index <;> rfl

/-- The slots change only where a symbol that was not held has been resolved, and then its own slot does. -/
lemma resolve_caches (c : Scope) (index : Nat) (l : Linker) :
    Sat (c.resolve index) l
      (fun a m => Counted index l.cache m.cache ∧ (m.cache.slots = l.cache.slots ∨
        index ≠ 0 ∧ m.cache.slots = (l.cache.insert index a).slots))
      (fun _ m => Counted index l.cache m.cache ∧ m.cache.slots = l.cache.slots) := by
  unfold resolve
  by_cases h0 : index = 0
  · subst h0
    exact ⟨rfl, .inl rfl⟩
  rw [if_neg h0]
  refine Sat.bind (P := fun _ m => Counted index l.cache m.cache ∧ m.cache.slots = l.cache.slots)
    (G := fun _ _ => False) ⟨counted_get h0 l.cache, slots_get l.cache index⟩ ?_ fun _ _ h => h.elim
  rintro (_ | addr) m hm
  swap
  · exact ⟨hm.1, .inl hm.2⟩
  -- neither reading the symbol nor looking for its address has to do with the cache
  refine Sat.bind (zoom_keeps _ m Linker.cache fun _ => rfl) ?_ fun _ _ h => h ▸ hm
  intro s m1 hm1
  refine Sat.bind (address_yields c index s m1) ?_ ?_
  · rintro addr _ ⟨-, rfl⟩
    rw [← hm1] at hm
    exact Sat.modify_bind ⟨hm.1, .inr ⟨h0, by simp only [SymbolCache.insert, SymbolCache.slot, hm.2]⟩⟩
  · rintro e _ ⟨-, rfl⟩
    exact hm1 ▸ hm

/-! ### Any sequence of look-ups -/

/-- After these calls, whatever a slot holds is the address of a symbol that was asked for. -/
structure Remembers (c : Scope) (src : Source) (calls : List Nat) (l : Linker) : Prop where
  ready : l.Ready c src
  held : ∀ i a, some (i, a) ∈ l.cache.slots → i ∈ calls ∧ i ≠ 0 ∧ c.rule src i = .ok a
  counted : l.cache.hits + l.cache.misses = calls.countP (· ≠ 0)

lemma remembers_create (c : Scope) (src : Source) (slots : Nat) :
    Remembers c src [] ⟨src, .create slots⟩ where
  ready := ⟨.refl src, fun i a h => by rw [SymbolCache.find?_create] at h; cases h⟩
  held i a h := by simp [SymbolCache.create] at h
  counted := rfl

/-- One more call. -/
lemma Remembers.resolve (h : Remembers c src calls l) (index : Nat) :
    Yields (c.resolve index) l (c.rule src index) (Remembers c src (calls ++ [index])) := by
  have hcount : ∀ {cache : SymbolCache}, Counted index l.cache cache →
      cache.hits + cache.misses = (calls ++ [index]).countP (· ≠ 0) := by
    intro cache hcache
    rw [List.countP_append, ← h.counted, hcache]
    by_cases h0 : index = 0 <;> simp [h0]
  have hkept : ∀ {cache : SymbolCache}, cache.slots = l.cache.slots → ∀ i a,
      some (i, a) ∈ cache.slots → i ∈ calls ++ [index] ∧ i ≠ 0 ∧ c.rule src i = .ok a := by
    intro cache hslots i a hi
    obtain ⟨hmem, hrest⟩ := h.held i a (hslots ▸ hi)
    exact ⟨List.mem_append_left _ hmem, hrest⟩
  refine ((resolve_yields index h.ready).and (resolve_caches c index l)).mono ?_ ?_
  · rintro addr m ⟨⟨hrule, hready⟩, hcounted, hslots⟩
    refine ⟨hrule, hready, ?_, hcount hcounted⟩
    rcases hslots with hslots | ⟨h0, hslots⟩
    · exact hkept hslots
    intro i a hi
    rw [hslots, SymbolCache.insert] at hi
    rcases Array.mem_or_eq_of_mem_setIfInBounds hi with hold | hnew
    · exact hkept rfl i a hold
    · cases hnew
      exact ⟨List.mem_append_right _ (.head _), h0, hrule⟩
  · rintro e m ⟨⟨hrule, hready⟩, hcounted, hslots⟩
    exact ⟨hrule, hready, hkept hslots, hcount hcounted⟩

/-- Any number of further calls. -/
lemma Remembers.resolveAll (h : Remembers c src calls l) (rest : List Nat) :
    Sat (c.resolveAll rest) l
      (fun answers m => answers = rest.map (c.rule src) ∧ Remembers c src (calls ++ rest) m)
      fun _ _ => False := by
  induction rest generalizing calls l with
  | nil => exact ⟨rfl, (List.append_nil calls).symm ▸ h⟩
  | cons index rest ih =>
    have hnext : ∀ {answer : Except Error Addr} {m : Linker}, c.rule src index = answer →
        Remembers c src (calls ++ [index]) m →
        Sat (do return answer :: (← c.resolveAll rest)) m
          (fun answers m => answers = (index :: rest).map (c.rule src) ∧
            Remembers c src (calls ++ index :: rest) m) fun _ _ => False := by
      rintro _ m rfl hm
      refine Sat.bind (ih hm) ?_ fun _ _ h => h
      rintro _ m' ⟨rfl, hm'⟩
      rw [List.append_assoc] at hm'
      exact ⟨rfl, hm'⟩
    unfold Scope.resolveAll
    exact Sat.attempt_bind (h.resolve index) (fun _ _ hm => hnext hm.1 hm.2) fun _ _ hm => hnext hm.1 hm.2

/-- **The cache is invisible.** Any symbols resolved through a new cache, of any number of slots, have the
addresses and the errors that reading each of them afresh gives. What the slots hold then are addresses of
symbols that were asked for, a symbol that cannot be resolved leaves them as they are, and the look-ups of
all symbols but the null one have been counted. -/
theorem resolve_invisible (c : Scope) (source : Source) (slots : Nat) (calls : List Nat) :
    ∃ l es, c.resolveAll calls ⟨source, .create slots⟩ =
        ⟨.ok (calls.map fun i => (c.resolveAfresh i ⟨source, .create slots⟩).result), l, es⟩ ∧
      (∀ i a, some (i, a) ∈ l.cache.slots → i ∈ calls ∧ i ≠ 0 ∧
        (c.resolveAfresh i ⟨source, .create slots⟩).result = .ok a) ∧
      (∀ i e, (c.resolveAfresh i ⟨source, .create slots⟩).result = .error e →
        (c.resolve i l).result = .error e ∧ (c.resolve i l).state.cache.slots = l.cache.slots) ∧
      l.cache.hits + l.cache.misses = calls.countP (· ≠ 0) := by
  simp only [result_resolveAfresh]
  have hstart := remembers_create c source slots
  obtain ⟨answers, l, es, hrun, rfl, hl⟩ := (hstart.resolveAll calls).exists_ok
  refine ⟨l, es, hrun, hl.held, fun i e he => ?_, hl.counted⟩
  have hfails := ((hl.resolve i).and (resolve_caches c i l))
  rcases hcall : c.resolve i l with ⟨e' | a, m, es'⟩
  · obtain ⟨⟨hrule, -⟩, -, hslots⟩ := hfails.of_error hcall
    exact ⟨hrule.symm.trans he, hslots⟩
  · rw [he] at hfails
    cases (hfails.of_ok hcall).1.1

end Scope

end FlashLink
