import FlashLink.Link.Resolver
import FlashLink.Proofs.Fields
import FlashLink.Proofs.Reading

/-!
What symbols mean. `Scope.rule` gives the address of a symbol without a cache. A cache is coherent if
it holds nothing but addresses of the rule; resolving keeps a cache coherent and answers what the rule
says, hit or miss, so neither the number of slots nor what was resolved before matters.
-/

namespace FlashLink

open Act

namespace SymbolTable

/-- The entry of a symbol, or why it cannot be read. -/
def entry (t : SymbolTable) (src : Source) (index : Nat) : Except Error Symbol :=
  if t.count ≤ index then .error (.invalidSymbol index .noEntry)
  else (src.fetch (t.offset + index * Symbol.width) Symbol.width).map Symbol.ofBytes

variable {t : SymbolTable} {src : Source}

lemma read_steady (t : SymbolTable) (index : Nat) : Source.Steady (t.read index) := by
  unfold read
  split_ifs
  · exact .bind (.throw _) fun _ => .bind (.read _ _) fun _ => .pure _
  · exact .bind (.read _ _) fun _ => .pure _

lemma read_yields (t : SymbolTable) (src : Source) (index : Nat) :
    Yields (t.read index) src (t.entry src index) (Source.Same src) := by
  unfold read entry
  split_ifs with h
  · exact Sat.throw_bind ⟨rfl, .refl _⟩
  · refine Sat.bind (Source.read_yields src _ _) ?_ ?_
    · rintro b u ⟨hb, hu⟩
      rw [hb]
      exact ⟨rfl, hu⟩
    · rintro e u ⟨he, hu⟩
      rw [he]
      exact ⟨rfl, hu⟩

lemma entry_same {u : Source} (h : Source.Same src u) (index : Nat) :
    t.entry u index = t.entry src index := by
  rw [entry, entry, h.fetch_eq]

/-- Symbol `i` is the first global, defined symbol of that name. The null symbol does not count. -/
structure IsFirst (t : SymbolTable) (src : Source) (name : String) (i : Nat) (s : Symbol) : Prop where
  pos : 0 < i
  entry_eq : t.entry src i = .ok s
  defines : t.defines name i s
  first : ∀ j, 0 < j → j < i → ∃ q, t.entry src j = .ok q ∧ ¬ t.defines name j q

lemma findFrom_steady (name : String) (left index : Nat) :
    Source.Steady (t.findFrom name left index) := by
  induction left generalizing index with
  | zero => exact .pure _
  | succ left ih =>
    refine .bind (read_steady t index) fun s => ?_
    split_ifs
    · exact .pure _
    · exact ih _

lemma findFrom_sat (name : String) (left index : Nat) {u : Source} (hu : Source.Same src u)
    (hpos : 0 < index)
    (hbefore : ∀ j, 0 < j → j < index → ∃ q, t.entry src j = .ok q ∧ ¬ t.defines name j q) :
    Sat (t.findFrom name left index) u
      (fun a v => Source.Same src v ∧ ∀ s, a = some s → ∃ i, t.IsFirst src name i s)
      (fun _ v => Source.Same src v) := by
  induction left generalizing index u with
  | zero => exact ⟨hu, fun _ h => by cases h⟩
  | succ left ih =>
    unfold findFrom
    refine Sat.bind (read_yields t u index) ?_ fun _ v h => hu.trans h.2
    rintro s v ⟨hs, hv⟩
    rw [entry_same hu] at hs
    split_ifs with hd
    · exact ⟨hu.trans hv, fun _ h => by cases h; exact ⟨index, hpos, hs, hd, hbefore⟩⟩
    · refine ih (index + 1) (hu.trans hv) (by omega) fun j hj hlt => ?_
      rcases Nat.lt_succ_iff_lt_or_eq.1 hlt with h | rfl
      · exact hbefore j hj h
      · exact ⟨s, hs, hd⟩

end SymbolTable

namespace Scope

/-- The address of a symbol that has been read. -/
def meaning (c : Scope) (index : Nat) (s : Symbol) : Except Error Addr :=
  if s.isUndefined then
    match c.symbols.name index s with
    | .error e => .error e
    | .ok name =>
      match c.exports name with
      | none => .error (.unresolvedSymbol name)
      | some addr => .ok addr
  else if s.isAbsolute then .ok s.value
  else match c.placement.get? s.home with
    | none => .error (.unplacedSection s.home)
    | some base => .ok (base + s.value)

/-- The address of symbol `index`. Index 0 stands for no symbol. -/
def rule (c : Scope) (src : Source) : Relocation.Rule := fun index =>
  if index = 0 then .ok 0
  else match c.symbols.entry src index with
    | .error e => .error e
    | .ok s => c.meaning index s

variable {c : Scope} {src : Source}

lemma address_yields (c : Scope) (index : Nat) (s : Symbol) (l : Linker) :
    Yields (c.address index s) l (c.meaning index s) (fun m => m = l) := by
  unfold address meaning
  split_ifs with h1 h2
  · refine Sat.bind (P := fun name m => c.symbols.name index s = .ok name ∧ m = l)
      (G := fun e m => c.symbols.name index s = .error e ∧ m = l)
      (sat_ofExcept (fun _ h => ⟨h, rfl⟩) fun _ h => ⟨h, rfl⟩) ?_ ?_
    · rintro name m ⟨hn, rfl⟩
      rw [hn]
      rcases hx : c.exports name with _ | addr <;> simp only [hx]
      · exact ⟨rfl, rfl⟩
      · exact Sat.note_bind ⟨rfl, rfl⟩
    · rintro e m ⟨he, rfl⟩
      rw [he]
      exact ⟨rfl, rfl⟩
  · exact ⟨rfl, rfl⟩
  · rcases c.placement.get? s.home with _ | base <;> exact ⟨rfl, rfl⟩

end Scope

/-! ### The cache -/

namespace SymbolCache

variable {c : SymbolCache}

lemma find?_insert {index i : Nat} {addr a : Addr} (h : (c.insert index addr).find? i = some a) :
    i = index ∧ a = addr ∨ c.find? i = some a := by
  have hslot : (c.insert index addr).slot i = c.slot i := by simp [slot, insert]
  unfold find? at h ⊢
  rw [hslot] at h
  by_cases hs : c.slot index = c.slot i
  · by_cases hb : c.slot index < c.slots.size
    · simp only [insert, Array.getD_eq_getD_getElem?, ← hs,
        Array.getElem?_setIfInBounds_self_of_lt hb, Option.getD_some] at h
      split_ifs at h with hi
      · exact .inl ⟨hi.symm, by simpa using h.symm⟩
    · rw [insert, Array.setIfInBounds_def, dif_neg hb] at h
      exact .inr h
  · simp only [insert, Array.getD_eq_getD_getElem?, Array.getElem?_setIfInBounds_ne hs] at h
    exact .inr (by simpa only [Array.getD_eq_getD_getElem?] using h)

lemma find?_get (c : SymbolCache) (index i : Nat) : (c.get index).2.find? i = c.find? i := by
  unfold get
  rcases c.find? index <;> rfl

lemma get_fst (c : SymbolCache) (index : Nat) : (c.get index).1 = c.find? index := by
  unfold get
  rcases c.find? index <;> rfl

lemma find?_create (slots i : Nat) : (create slots).find? i = none := by
  unfold find? create
  rw [Array.getD_eq_getD_getElem?, Array.getElem?_replicate]
  split <;> rename_i h
  · split_ifs at h <;> cases h
  · rfl

end SymbolCache

/-- Every address in the cache is the one of the rule. -/
def Scope.Coherent (c : Scope) (src : Source) (cache : SymbolCache) : Prop :=
  ∀ i a, cache.find? i = some a → c.rule src i = .ok a

/-- The source is still the same object, and the cache is coherent. -/
structure Linker.Ready (c : Scope) (src : Source) (l : Linker) : Prop where
  same : Source.Same src l.source
  coherent : c.Coherent src l.cache

namespace Scope

variable {c : Scope} {src : Source} {l : Linker}

/-- Resolving answers what the rule says, and keeps the cache coherent. -/
lemma resolve_yields (index : Nat) (h : l.Ready c src) :
    Yields (c.resolve index) l (c.rule src index) (Linker.Ready c src) := by
  unfold resolve
  by_cases h0 : index = 0
  · subst h0
    exact ⟨rfl, h⟩
  rw [if_neg h0]
  have hrule : c.rule src index = match c.symbols.entry src index with
    | .error e => .error e
    | .ok s => c.meaning index s := if_neg h0
  have hfound : l.cache.find? index = (l.cache.get index).1 := (SymbolCache.get_fst ..).symm
  have hkept := SymbolCache.find?_get l.cache index
  rcases hg : l.cache.get index with ⟨found, cache⟩
  rw [hg] at hfound hkept
  have hready : Linker.Ready c src ⟨l.source, cache⟩ :=
    ⟨h.same, fun i a hi => h.coherent i a (hkept i ▸ hi)⟩
  refine Sat.bind (P := fun a m => a = found ∧ m = ⟨l.source, cache⟩) (G := fun _ _ => False)
    (by simp [hg]) ?_ fun _ _ h => h.elim
  rintro got _ ⟨rfl, rfl⟩
  rcases got with _ | addr
  · refine Sat.bind (P := fun s m => c.symbols.entry src index = .ok s ∧ m.Ready c src)
      (G := fun e m => c.symbols.entry src index = .error e ∧ m.Ready c src) ?_ ?_ ?_
    · rw [sat_zoom]
      refine (SymbolTable.read_yields c.symbols l.source index).mono ?_ ?_
      · rintro s u ⟨hs, hu⟩
        exact ⟨SymbolTable.entry_same h.same index ▸ hs, h.same.trans hu, hready.coherent⟩
      · rintro e u ⟨he, hu⟩
        exact ⟨SymbolTable.entry_same h.same index ▸ he, h.same.trans hu, hready.coherent⟩
    · rintro s m ⟨hs, hm⟩
      replace hrule : c.rule src index = c.meaning index s := by rw [hrule, hs]
      refine Sat.bind (address_yields c index s m) ?_ ?_
      · rintro addr _ ⟨ha, rfl⟩
        rw [ha] at hrule
        refine Sat.modify_bind ⟨hrule, hm.same, fun i a hi => ?_⟩
        rcases SymbolCache.find?_insert hi with ⟨rfl, rfl⟩ | hi
        · exact hrule
        · exact hm.coherent i a hi
      · rintro e _ ⟨he, rfl⟩
        exact ⟨hrule.trans he, hm⟩
    · rintro e m ⟨he, hm⟩
      exact ⟨by rw [hrule, he], hm⟩
  · exact ⟨h.coherent index addr hfound, hready⟩

/-! ### Entry symbols -/

lemma entryAddress_steady (c : Scope) (name : String) : Source.Steady (c.entryAddress name) := by
  refine .bind (SymbolTable.findFrom_steady name _ _) fun found => ?_
  rcases found with _ | s
  · exact .throw _
  · dsimp only
    rcases (if s.isAbsolute then some 0 else c.placement.get? s.home) with _ | base
    · exact .throw _
    · exact .pure _

/-- The entry point is the address of the first global, defined symbol of its name, with the Thumb
bit set for a function. -/
lemma entryAddress_sat (c : Scope) (name : String) {src u : Source} (hu : Source.Same src u) :
    Sat (c.entryAddress name) u
      (fun a v => Source.Same src v ∧ ∃ i s base, c.symbols.IsFirst src name i s ∧
        (if s.isAbsolute then some 0 else c.placement.get? s.home) = some base ∧
        a = if s.isFunction then (base + s.value) ||| 1 else base + s.value)
      (fun _ v => Source.Same src v) := by
  unfold entryAddress
  refine Sat.bind (SymbolTable.findFrom_sat (t := c.symbols) name (c.symbols.count - 1) 1 hu (by omega)
    fun j h1 h2 => by omega) ?_ fun _ _ h => h
  rintro found v ⟨hv, hfound⟩
  rcases found with _ | s
  · exact hv
  · obtain ⟨i, hi⟩ := hfound s rfl
    dsimp only
    rcases hb : (if s.isAbsolute then some 0 else c.placement.get? s.home) with _ | base
    · exact hv
    · exact ⟨hv, i, s, base, hi, hb, rfl⟩

end Scope

end FlashLink
