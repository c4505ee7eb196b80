import FlashLink.DirTree
import Mathlib.Tactic.Common
import Mathlib.Data.List.Basic
import Mathlib.Data.List.Infix

/-!
What is where in a directory tree.

`look` shows a place without what is below it, so that a tree is known by what its places show, and a
change by the places that show something else. Following a path looks at the places on its way and at
nothing else: it leads to the same place in every tree that shows the same there.
-/

namespace FlashLink

/-- Dropping a key from a list. -/
lemma lookup_filter_ne {β : Type} (l : List (String × β)) (n m : String) :
    (l.filter (·.1 ≠ n)).lookup m = if m = n then none else l.lookup m := by
  induction l with
  | nil => simp
  | cons e l ih =>
    obtain ⟨k, v⟩ := e
    by_cases hk : k = n
    · subst hk
      by_cases hm : m = k
      · simpa [hm] using ih
      · have hne : (m == k) = false := by simpa using hm
        simpa [hm, List.lookup_cons, hne] using ih
    · by_cases hm : m = k
      · subst hm
        simp [hk]
      · have hne : (m == k) = false := by simpa using hm
        simpa [hk, List.lookup_cons, hne] using ih

namespace DirTree

/-- What is at a place, without what is below it. -/
inductive Node where
  | file (data : Bytes)
  | dir
deriving DecidableEq

def node : DirTree → Node
  | file data => .file data
  | dir _ => .dir

/-- What a place shows, if there is anything. -/
def look (t : DirTree) (q : List String) : Option Node := (t.get? q).map node

variable {t u : DirTree} {es : List (String × DirTree)} {p q : List String} {n m : String}

/-! ### Places below places -/

@[simp] lemma get?_nil (t : DirTree) : t.get? [] = some t := by
  rw [get?]

@[simp] lemma get?_file_cons (data : Bytes) (n : String) (q : List String) :
    (file data).get? (n :: q) = none := by
  rw [get?]

@[simp] lemma get?_dir_cons (es : List (String × DirTree)) (n : String) (q : List String) :
    (dir es).get? (n :: q) = (es.lookup n).bind fun u => u.get? q := by
  rw [get?]
  cases es.lookup n <;> rfl

lemma get?_append (t : DirTree) (p q : List String) :
    t.get? (p ++ q) = (t.get? p).bind fun u => u.get? q := by
  induction p generalizing t with
  | nil => simp
  | cons n p ih =>
    cases t with
    | file data => simp
    | dir es =>
      cases hn : es.lookup n with
      | none => simp [hn]
      | some u => simp [hn, ih u]

@[simp] lemma look_nil (t : DirTree) : t.look [] = some t.node := by simp [look]

lemma look_eq_dir : t.look p = some .dir ↔ ∃ es, t.get? p = some (dir es) := by
  unfold look
  rcases t.get? p with _ | ⟨data | es⟩
  · simp
  · simp [node]
  · simp [node]

lemma look_dir_cons (es : List (String × DirTree)) (n : String) (q : List String) :
    (dir es).look (n :: q) = (es.lookup n).bind fun u => u.look q := by
  rw [look, get?_dir_cons]
  cases es.lookup n <;> rfl

lemma look_append (h : t.get? p = some u) (q : List String) : t.look (p ++ q) = u.look q := by
  simp [look, get?_append, h]

lemma look_entry (h : t.get? p = some (dir es)) (n : String) :
    t.look (p ++ [n]) = (es.lookup n).map node := by
  rw [look_append h, look_dir_cons]
  cases es.lookup n <;> simp

/-! ### Changing one entry -/

lemma lookup_bind (es : List (String × DirTree)) (n : String) (u : Option DirTree) (m : String) :
    (bind es n u).lookup m = if m = n then u else es.lookup m := by
  have hrest := lookup_filter_ne es n m
  unfold bind
  cases u with
  | none => exact hrest
  | some u =>
    by_cases hm : m = n
    · subst hm
      simp
    · have hne : (m == n) = false := by simpa using hm
      dsimp only
      rw [List.lookup_cons, hne, if_neg hm]
      exact hrest.trans (if_neg hm)

/-- The entry and what is below it change, and nothing else. -/
lemma look_setEntry (h : t.get? p = some (dir es)) (n : String) (u : Option DirTree)
    (q : List String) :
    (t.setEntry n u p).look q =
      if p ++ [n] <+: q then u.bind fun v => v.look (q.drop (p.length + 1)) else t.look q := by
  induction p generalizing t q with
  | nil =>
    rw [get?_nil] at h
    cases h
    rw [setEntry]
    cases q with
    | nil => simp [node]
    | cons m q =>
      simp only [look_dir_cons, lookup_bind, List.nil_append, List.length_nil, Nat.zero_add,
        List.drop_succ_cons, List.drop_zero]
      by_cases hm : m = n
      · subst hm
        cases u <;> simp
      · have hne : ¬ [n] <+: m :: q := by
          rw [List.cons_prefix_cons]
          exact fun h => hm h.1.symm
        rw [if_neg hm, if_neg hne]
  | cons k p ih =>
    cases t with
    | file data => simp at h
    | dir es' =>
      rw [get?_dir_cons] at h
      cases hk : es'.lookup k with
      | none => simp [hk] at h
      | some v =>
        rw [hk, Option.bind_some] at h
        rw [setEntry]
        simp only [hk]
        cases q with
        | nil => simp [node]
        | cons m q =>
          rw [look_dir_cons, look_dir_cons, lookup_bind]
          by_cases hm : m = k
          · subst hm
            simp [ih h, hk, List.cons_prefix_cons]
          · have hne : ¬ k :: p ++ [n] <+: m :: q := by
              rw [List.cons_append, List.cons_prefix_cons]
              exact fun h => hm h.1.symm
            rw [if_neg hm, if_neg hne]

lemma get?_setEntry_self (h : t.get? p = some (dir es)) (n : String) (u : Option DirTree) :
    (t.setEntry n u p).get? p = some (dir (bind es n u)) := by
  induction p generalizing t with
  | nil =>
    rw [get?_nil] at h
    cases h
    simp [setEntry]
  | cons k p ih =>
    cases t with
    | file data => simp at h
    | dir es' =>
      rw [get?_dir_cons] at h
      cases hk : es'.lookup k with
      | none => simp [hk] at h
      | some v =>
        rw [hk, Option.bind_some] at h
        simp [setEntry, hk, lookup_bind, ih h]

/-- A change below a place is a change of what is there. -/
lemma get?_setEntry_above (h : t.get? p = some u) (n : String) (v : Option DirTree)
    (q : List String) : (t.setEntry n v (p ++ q)).get? p = some (u.setEntry n v q) := by
  induction p generalizing t with
  | nil =>
    rw [get?_nil] at h
    cases h
    simp
  | cons k p ih =>
    cases t with
    | file data => simp at h
    | dir es =>
      rw [get?_dir_cons] at h
      cases hk : es.lookup k with
      | none => simp [hk] at h
      | some w =>
        rw [hk, Option.bind_some] at h
        simp [setEntry, hk, lookup_bind, ih h]

/-! ### Following paths -/

/-- One more step. -/
lemma follow_cons (t : DirTree) (p : List String) (s : PathStep) (rest : List PathStep) :
    t.follow p (s :: rest) = t.follow p [s] >>= fun q => t.follow q rest := by
  rw [follow, follow]
  cases t.entries p with
  | error why => rfl
  | ok es =>
    cases s with
    | stay => rfl
    | up => rfl
    | into n =>
      simp only [Bind.bind, Except.bind]
      rcases lookUp es n with _ | _ | v
      · rfl
      · rfl
      · simp only [follow]

lemma follow_cons_ok {s : PathStep} {rest : List PathStep} :
    t.follow p (s :: rest) = .ok q ↔ ∃ r, t.follow p [s] = .ok r ∧ t.follow r rest = .ok q := by
  rw [follow_cons]
  cases t.follow p [s] with
  | error why => exact ⟨nofun, fun ⟨_, hr, _⟩ => nomatch hr⟩
  | ok r => exact ⟨fun h => ⟨r, rfl, h⟩, fun ⟨_, hr, h⟩ => Except.ok.inj hr ▸ h⟩

lemma follow_append (t : DirTree) (p : List String) (ss ts : List PathStep) :
    t.follow p (ss ++ ts) = t.follow p ss >>= fun q => t.follow q ts := by
  induction ss generalizing p with
  | nil => rfl
  | cons s ss ih =>
    rw [List.cons_append, follow_cons, follow_cons t p s ss]
    cases t.follow p [s] with
    | error why => rfl
    | ok q => exact ih q

lemma entries_eq_ok : t.entries p = .ok es ↔ t.get? p = some (dir es) := by
  unfold entries
  rcases t.get? p with _ | ⟨data | es'⟩
  · simp
  · simp
  · simp

/-- Every step starts from a directory. -/
lemma dir_of_follow {s : PathStep} {rest : List PathStep} (h : t.follow p (s :: rest) = .ok q) :
    t.look p = some .dir := by
  rw [follow] at h
  cases hp : t.entries p with
  | error why => rw [hp] at h; cases h
  | ok es => exact look_eq_dir.2 ⟨es, entries_eq_ok.1 hp⟩

/-- A step into a directory. -/
lemma follow_into (t : DirTree) (p : List String) (n : String) :
    t.follow p [.into n] =
      match t.look p with
      | none => .error .notFound
      | some (.file _) => .error .notDirectory
      | some .dir =>
        if n.utf8ByteSize ≤ maxName then
          if (t.look (p ++ [n])).isSome then .ok (p ++ [n]) else .error .notFound
        else .error .nameTooLong := by
  rw [follow, entries]
  unfold look
  rcases hp : t.get? p with _ | ⟨data | es⟩
  · rfl
  · rfl
  · have hentry := look_entry hp n
    unfold look at hentry
    by_cases hlen : n.utf8ByteSize ≤ maxName
    · simp only [Bind.bind, Except.bind, node, Option.map_some, lookUp, if_pos hlen, hentry]
      cases es.lookup n <;> simp [follow]
    · simp only [Bind.bind, Except.bind, node, Option.map_some, lookUp, if_neg hlen]

lemma follow_into_ok (h : t.follow p [.into n] = .ok q) :
    q = p ++ [n] ∧ t.look p = some .dir ∧ n.utf8ByteSize ≤ maxName ∧ t.look q ≠ none := by
  have hdir := dir_of_follow h
  rw [follow_into, hdir] at h
  dsimp only at h
  split_ifs at h with hlen hsome
  cases h
  exact ⟨rfl, hdir, hlen, by simpa [Option.isSome_iff_ne_none] using hsome⟩

/-- A step that leads somewhere still does if nothing is taken away. -/
lemma follow_mono (hkeep : ∀ q v, t.look q = some v → u.look q = some v) {ss : List PathStep}
    (h : t.follow p ss = .ok q) : u.follow p ss = .ok q := by
  induction ss generalizing p with
  | nil => exact h
  | cons s ss ih =>
    have hdir := dir_of_follow h
    obtain ⟨r, hs, hrest⟩ := follow_cons_ok.1 h
    have hstep : ∀ r, t.follow p [s] = .ok r → u.follow p [s] = .ok r := by
      intro r hr
      obtain ⟨es, hes⟩ := look_eq_dir.1 (hkeep _ _ hdir)
      obtain ⟨es', hes'⟩ := look_eq_dir.1 hdir
      cases s with
      | stay =>
        rw [follow, entries_eq_ok.2 hes'] at hr
        rw [follow, entries_eq_ok.2 hes]
        exact hr
      | up =>
        rw [follow, entries_eq_ok.2 hes'] at hr
        rw [follow, entries_eq_ok.2 hes]
        exact hr
      | into n =>
        obtain ⟨rfl, -, hlen, hsome⟩ := follow_into_ok hr
        obtain ⟨v, hv⟩ := Option.ne_none_iff_exists'.1 hsome
        rw [follow_into, hkeep _ _ hdir]
        simp [hlen, hkeep _ _ hv]
    exact follow_cons_ok.2 ⟨r, hstep r hs, ih hrest⟩

/-- Steps that stay where they are can be left out. -/
lemma follow_moves {ss : List PathStep} (h : t.follow p ss = .ok q) :
    t.follow p (ss.filter (· ≠ .stay)) = .ok q := by
  induction ss generalizing p with
  | nil => exact h
  | cons s ss ih =>
    obtain ⟨r, hs, hrest⟩ := follow_cons_ok.1 h
    have hmoves := ih hrest
    by_cases hstay : s = .stay
    · subst hstay
      have hr : r = p := by
        rw [follow] at hs
        cases he : t.entries p with
        | error why => rw [he] at hs; cases hs
        | ok es => rw [he] at hs; cases hs; rfl
      simpa [hr] using hmoves
    · rw [List.filter_cons_of_pos (by simpa using hstay)]
      exact follow_cons_ok.2 ⟨r, hs, hmoves⟩

/-- They can be put back where they stay in a directory. -/
lemma follow_of_moves {ss : List PathStep} (h : t.follow p (ss.filter (· ≠ .stay)) = .ok q)
    (hq : t.look q = some .dir) : t.follow p ss = .ok q := by
  induction ss generalizing p with
  | nil => exact h
  | cons s ss ih =>
    by_cases hstay : s = .stay
    · subst hstay
      rw [List.filter_cons_of_neg (by simp)] at h
      have hp : t.look p = some .dir := by
        cases hss : ss.filter (· ≠ .stay) with
        | nil =>
          rw [hss] at h
          cases h
          exact hq
        | cons s' ss' =>
          rw [hss] at h
          exact dir_of_follow h
      obtain ⟨es, hes⟩ := look_eq_dir.1 hp
      rw [follow, entries_eq_ok.2 hes]
      exact ih h
    · rw [List.filter_cons_of_pos (by simpa using hstay)] at h
      obtain ⟨r, hs, hrest⟩ := follow_cons_ok.1 h
      exact follow_cons_ok.2 ⟨r, hs, ih hrest⟩

end DirTree

end FlashLink
