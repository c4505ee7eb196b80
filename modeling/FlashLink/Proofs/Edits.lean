import FlashLink.Proofs.Places

/-!
What file operations change. Removing and writing a file, removing a directory and creating one each
change what one place shows, and only if there was nothing else below it. Creating a directory with
the missing ones above it paves a path: it adds directories on the way, and never anything else. An
operation that fails has changed nothing, or has paved a part of the path.
-/

namespace FlashLink

namespace DirTree

variable {t t' t'' u : DirTree} {es : List (String × DirTree)} {p q b : List String} {n : String}

/-! ### One place -/

/-- The place shows `v` now, and every other place what it showed. -/
structure Edit (t : DirTree) (q : List String) (v : Option Node) (t' : DirTree) : Prop where
  here : t'.look q = v
  rest : ∀ r, r ≠ q → t'.look r = t.look r

/-- There is nothing below. -/
def Leaf (t : DirTree) : Prop := ∀ q, q ≠ [] → t.look q = none

lemma leaf_file (data : Bytes) : (file data).Leaf := by
  intro q hq
  cases q with
  | nil => exact absurd rfl hq
  | cons n q => simp [look]

lemma leaf_empty : (dir []).Leaf := by
  intro q hq
  cases q with
  | nil => exact absurd rfl hq
  | cons n q => simp [look]

/-- Replacing an entry without anything below it by another one. -/
lemma edit_setEntry (h : t.get? b = some (dir es)) {v : Option DirTree}
    (hold : ∀ u ∈ es.lookup n, u.Leaf) (hnew : ∀ u ∈ v, u.Leaf) :
    Edit t (b ++ [n]) (v.map node) (t.setEntry n v b) := by
  have hlook := look_setEntry h n v
  refine ⟨?_, fun r hr => ?_⟩
  · rw [hlook, if_pos (List.prefix_refl _)]
    cases v <;> simp
  · rw [hlook]
    split_ifs with hpre
    · obtain ⟨r, rfl⟩ := hpre
      have hrest : r ≠ [] := by
        rintro rfl
        simp at hr
      have hdrop : (b ++ [n] ++ r).drop (b.length + 1) = r := by simp
      have hbelow : t.look (b ++ [n] ++ r) = none := by
        rw [List.append_assoc, look_append h]
        simp only [look, List.singleton_append, get?_dir_cons]
        cases hu : es.lookup n with
        | none => rfl
        | some u =>
          exact hold u (by rw [hu]; rfl) r hrest
      rw [hdrop, hbelow]
      cases v with
      | none => rfl
      | some v => exact hnew v rfl r hrest
    · rfl

/-! ### Targets -/

/-- What a path that ends in a name asks for. -/
lemma targetOf_into {ss : List PathStep} {a : Target}
    (h : t.targetOf (ss ++ [.into n]) = .ok a) :
    ∃ b es, t.follow [] ss = .ok b ∧ t.get? b = some (dir es) ∧ n.utf8ByteSize ≤ maxName ∧
      a = .entry b n (es.lookup n) := by
  unfold targetOf at h
  rw [List.dropLast_concat] at h
  cases hb : t.follow [] ss with
  | error why => rw [hb] at h; cases h
  | ok b =>
    rw [hb] at h
    simp only [Bind.bind, Except.bind, List.getLast?_concat, lookUp] at h
    cases hes : t.entries b with
    | error why => rw [hes] at h; cases h
    | ok es =>
      simp only [hes] at h
      split_ifs at h with hlen
      · cases h
        exact ⟨b, es, rfl, entries_eq_ok.1 hes, hlen, rfl⟩

/-- What a path that ends elsewhere asks for. -/
lemma targetOf_around {ss : List PathStep} {s : PathStep} (hs : ∀ n, s ≠ .into n) {a : Target}
    (h : t.targetOf (ss ++ [s]) = .ok a) : ∃ s', a = .around s' := by
  unfold targetOf at h
  rw [List.dropLast_concat, List.getLast?_concat] at h
  cases hb : t.follow [] ss with
  | error why => rw [hb] at h; cases h
  | ok b =>
    rw [hb] at h
    simp only [Bind.bind, Except.bind] at h
    cases he : t.entries b with
    | error why => rw [he] at h; cases h
    | ok es =>
      rw [he] at h
      cases s with
      | into n => exact absurd rfl (hs n)
      | stay => cases h; exact ⟨_, rfl⟩
      | up => cases h; exact ⟨_, rfl⟩

lemma target_into {x : Path} {ss : List PathStep} (hx : x.steps = ss ++ [.into n]) {a : Target}
    (h : t.target x = .ok a) :
    ∃ b es, t.follow [] ss = .ok b ∧ t.get? b = some (dir es) ∧ n.utf8ByteSize ≤ maxName ∧
      a = .entry b n (es.lookup n) := by
  unfold target stepsOf at h
  split_ifs at h
  · cases h
  · simp only [Bind.bind, Except.bind] at h
    rw [hx] at h
    exact targetOf_into h
  · cases h

end DirTree

namespace FileOp

open DirTree

variable {α β : Type} {t t' t'' : DirTree} {x : FileOp α} {n : String}

/-- The tree that an operation leaves, however it ends. -/
def left (x : FileOp α) (t : DirTree) : DirTree :=
  match x t with
  | .ok _ t => t
  | .error _ t => t

lemma left_of_ok {a : α} (h : x t = .ok a t') : x.left t = t' := by rw [left, h]

lemma left_of_error {why : FileFault} (h : x t = .error why t') : x.left t = t' := by rw [left, h]

/-- An operation that looks first. -/
lemma look_bind {f : DirTree → Except FileFault α} {g : α → FileOp β} (t : DirTree) :
    (look f >>= g) t = match f t with
      | .ok a => g a t
      | .error why => .error why t := by
  simp only [Bind.bind, EStateM.bind, look]
  cases f t <;> rfl

/-! ### Files and single directories -/

/-- Removing a file. -/
lemma removeFile_edit {y : Path} {ss : List PathStep} (hy : y.steps = ss ++ [.into n])
    (t : DirTree) :
    (∃ why, removeFile y t = .error why t) ∨
      ∃ b data t', t.follow [] ss = .ok b ∧ t.look (b ++ [n]) = some (.file data) ∧
        Edit t (b ++ [n]) none t' ∧ removeFile y t = .ok () t' := by
  unfold removeFile
  rw [look_bind]
  cases ha : t.target y with
  | error why => exact .inl ⟨why, rfl⟩
  | ok a =>
    obtain ⟨b, es, hb, hes, -, rfl⟩ := target_into hy ha
    cases hn : es.lookup n with
    | none => exact .inl ⟨_, rfl⟩
    | some u =>
      cases u with
      | dir es' => exact .inl ⟨_, rfl⟩
      | file data =>
        dsimp only
        split_ifs with hslash
        · exact .inl ⟨_, rfl⟩
        · have hshows : t.look (b ++ [n]) = some (.file data) := by
            rw [look_entry hes, hn]
            rfl
          refine .inr ⟨b, data, t.setEntry n none b, hb, hshows, ?_, rfl⟩
          refine edit_setEntry (v := none) hes (fun u hu => ?_) fun u hu => by cases hu
          rw [hn] at hu
          cases hu
          exact leaf_file data

/-- Removing a directory with nothing in it. -/
lemma removeDir_edit {y : Path} {ss : List PathStep} (hy : y.steps = ss ++ [.into n])
    (t : DirTree) :
    (∃ why, removeDir y t = .error why t) ∨
      ∃ b t', t.follow [] ss = .ok b ∧ t.get? (b ++ [n]) = some (dir []) ∧
        Edit t (b ++ [n]) none t' ∧ removeDir y t = .ok () t' := by
  unfold removeDir
  rw [look_bind]
  cases ha : t.target y with
  | error why => exact .inl ⟨why, rfl⟩
  | ok a =>
    obtain ⟨b, es, hb, hes, -, rfl⟩ := target_into hy ha
    cases hn : es.lookup n with
    | none => exact .inl ⟨_, rfl⟩
    | some u =>
      rcases u with data | _ | ⟨e, es'⟩
      · exact .inl ⟨_, rfl⟩
      · have hget : t.get? (b ++ [n]) = some (dir []) := by
          rw [get?_append, hes, Option.bind_some, get?_dir_cons, hn]
          rfl
        refine .inr ⟨b, t.setEntry n none b, hb, hget, ?_, rfl⟩
        refine edit_setEntry (v := none) hes (fun u hu => ?_) fun u hu => by cases hu
        rw [hn] at hu
        cases hu
        exact leaf_empty
      · exact .inl ⟨_, rfl⟩

/-- Creating one directory, where there is nothing. -/
lemma makeDirAt_edit (ss : List PathStep) (s : PathStep) (t : DirTree) :
    (∃ why, makeDirAt (ss ++ [s]) t = .error why t) ∨
      ∃ b n t', s = .into n ∧ t.follow [] ss = .ok b ∧ n.utf8ByteSize ≤ maxName ∧
        t.look b = some .dir ∧ t.look (b ++ [n]) = none ∧ Edit t (b ++ [n]) (some .dir) t' ∧
        makeDirAt (ss ++ [s]) t = .ok () t' := by
  unfold makeDirAt
  rw [look_bind]
  cases ha : t.targetOf (ss ++ [s]) with
  | error why => exact .inl ⟨why, rfl⟩
  | ok a =>
    by_cases hs : ∃ n, s = .into n
    · obtain ⟨n, rfl⟩ := hs
      obtain ⟨b, es, hb, hes, hlen, rfl⟩ := targetOf_into ha
      cases hn : es.lookup n with
      | some u => exact .inl ⟨_, rfl⟩
      | none =>
        have hshows : t.look (b ++ [n]) = none := by
          rw [look_entry hes, hn]
          rfl
        refine .inr ⟨b, n, t.setEntry n (some empty) b, rfl, hb, hlen, look_eq_dir.2 ⟨es, hes⟩,
          hshows, ?_, rfl⟩
        refine edit_setEntry (v := some empty) hes (fun u hu => ?_) fun u hu => ?_
        · rw [hn] at hu
          cases hu
        · cases hu
          exact leaf_empty
    · obtain ⟨s', rfl⟩ := targetOf_around (fun n h => hs ⟨n, h⟩) ha
      exact .inl ⟨_, rfl⟩

end FileOp

/-! ### Paved paths -/

namespace DirTree

variable {t t' t'' : DirTree} {ms ms' : List PathStep}

/-- Directories have been added on the way that some steps lead. -/
structure Paved (ms : List PathStep) (t t' : DirTree) : Prop where
  kept : ∀ q v, t.look q = some v → t'.look q = some v
  new : ∀ q, t.look q = none → t'.look q ≠ none →
    t'.look q = some .dir ∧ ∃ pre, pre <+: ms ∧ t'.follow [] pre = .ok q

lemma Paved.refl (ms : List PathStep) (t : DirTree) : Paved ms t t :=
  ⟨fun _ _ h => h, fun _ h h' => absurd h h'⟩

lemma Paved.mono (h : Paved ms t t') (hms : ms <+: ms') : Paved ms' t t' := by
  refine ⟨h.kept, fun q hq hq' => ?_⟩
  obtain ⟨hdir, pre, hpre, hfollow⟩ := h.new q hq hq'
  exact ⟨hdir, pre, hpre.trans hms, hfollow⟩

/-- The way that has been paved leads to the same places later on. -/
lemma Paved.trans (h : Paved ms t t') (h' : Paved ms t' t'') : Paved ms t t'' := by
  refine ⟨fun q v hq => h'.kept q v (h.kept q v hq), fun q hq hq'' => ?_⟩
  cases hq' : t'.look q with
  | none => exact h'.new q hq' hq''
  | some v =>
    obtain ⟨hdir, pre, hpre, hfollow⟩ := h.new q hq (by rw [hq']; simp)
    exact ⟨h'.kept q _ hdir, pre, hpre, follow_mono h'.kept hfollow⟩

/-- The steps without those that stay where they are. -/
def moves (ss : List PathStep) : List PathStep := ss.filter (· ≠ .stay)

lemma moves_append (ss ts : List PathStep) : moves (ss ++ ts) = moves ss ++ moves ts :=
  List.filter_append ..

end DirTree

namespace FileOp

open DirTree

variable {t : DirTree}

lemma makeDirAt_paved (steps : List PathStep) (t : DirTree) :
    Paved (moves steps) t ((makeDirAt steps).left t) := by
  rcases List.eq_nil_or_concat steps with rfl | ⟨ss, s, rfl⟩
  · -- there is always a directory at the top, or nothing can be created
    have hfail : ∃ why, makeDirAt [] t = .error why t := by
      unfold makeDirAt
      rw [look_bind]
      unfold targetOf
      cases t with
      | file data => exact ⟨_, rfl⟩
      | dir es => exact ⟨_, rfl⟩
    obtain ⟨why, hwhy⟩ := hfail
    rw [left_of_error hwhy]
    exact .refl _ _
  · rcases makeDirAt_edit ss s t with
      ⟨why, h⟩ | ⟨b, n, t', rfl, hb, hlen, hdir, hnone, hedit, h⟩
    · rw [List.concat_eq_append, left_of_error h]
      exact .refl _ _
    rw [List.concat_eq_append, left_of_ok h]
    have hkept : ∀ q v, t.look q = some v → t'.look q = some v := by
      intro q v hq
      rw [hedit.rest q, hq]
      rintro rfl
      rw [hnone] at hq
      cases hq
    refine ⟨hkept, fun q hq hq' => ?_⟩
    have hqn : q = b ++ [n] := by
      by_contra hne
      exact hq' ((hedit.rest q hne).trans hq)
    subst hqn
    refine ⟨hedit.here, moves (ss ++ [.into n]), List.prefix_refl _, follow_moves ?_⟩
    rw [follow_append, follow_mono hkept hb]
    change t'.follow b [.into n] = _
    rw [follow_into, hkept _ _ hdir]
    simp [hlen, hedit.here]

lemma ensureDir_left (steps : List PathStep) (t : DirTree) :
    (ensureDir steps).left t = (makeDirAt steps).left t := by
  unfold left ensureDir
  rcases makeDirAt steps t with ⟨_, t'⟩ | ⟨why, t'⟩
  · rfl
  · dsimp only
    rcases t'.reach steps with _ | ⟨_ | _⟩ <;> rfl

lemma ensureDir_paved (steps : List PathStep) (t : DirTree) :
    Paved (moves steps) t ((ensureDir steps).left t) := by
  rw [ensureDir_left]
  exact makeDirAt_paved steps t

/-- A sequence paves what its parts pave. -/
lemma bind_paved {α β : Type} {ms : List PathStep} {x : FileOp α} {f : α → FileOp β} {t : DirTree}
    (hx : Paved ms t (x.left t)) (hf : ∀ a t', Paved ms t' ((f a).left t')) :
    Paved ms t ((x >>= f).left t) := by
  unfold left at hx ⊢
  simp only [Bind.bind, EStateM.bind]
  generalize x t = o at hx ⊢
  rcases o with ⟨a, t'⟩ | ⟨why, t'⟩
  · exact hx.trans (hf a t')
  · exact hx

/-- A second attempt, after the first one found that something is missing. -/
lemma retry_paved {ms : List PathStep} {x y : FileOp Unit} {t : DirTree}
    (hx : Paved ms t (x.left t)) (hy : ∀ t, Paved ms t (y.left t)) :
    Paved ms t (left (fun t => match x t with
      | .error .notFound t => y t
      | r => r) t) := by
  unfold left at hx ⊢
  dsimp only
  generalize x t = o at hx ⊢
  rcases o with ⟨a, t'⟩ | ⟨why, t'⟩
  · exact hx
  · cases why with
    | notFound => exact hx.trans (hy t')
    | _ => exact hx

lemma ensureDirsUp_paved (up : List PathStep) (t : DirTree) :
    Paved (moves up.reverse) t ((ensureDirsUp up).left t) := by
  induction up generalizing t with
  | nil => exact .refl _ _
  | cons s up ih =>
    have hup : moves up.reverse <+: moves (s :: up).reverse := by
      rw [List.reverse_cons, moves_append]
      exact List.prefix_append _ _
    have hlast := ensureDir_paved (s :: up).reverse
    exact retry_paved (hlast t) fun t => bind_paved ((ih t).mono hup) fun _ t' => hlast t'

lemma makeDirs_paved (steps : List PathStep) (t : DirTree) :
    Paved (moves steps) t ((makeDirs steps).left t) := by
  have hlast := ensureDir_paved steps
  have habove : ∀ t, Paved (moves steps) t
      ((ensureDirsUp (Path.stepsAbove steps).reverse).left t) := by
    intro t
    refine (ensureDirsUp_paved _ t).mono ?_
    rw [List.reverse_reverse]
    have hmoves : moves (Path.stepsAbove steps) = Path.stepsAbove steps := by
      refine List.filter_eq_self.2 fun s hs => ?_
      have hmem := List.mem_of_mem_dropLast hs
      exact (List.mem_filter.1 hmem).2
    rw [hmoves]
    exact List.dropLast_prefix _
  exact retry_paved (hlast t) fun t => bind_paved (habove t) fun _ t' => hlast t'

/-- **Creating a directory** paves its path. -/
lemma makeDir_paved (y : Path) (t : DirTree) : Paved (moves y.steps) t ((makeDir y).left t) := by
  unfold left makeDir
  rw [look_bind]
  unfold stepsOf
  split_ifs
  · exact .refl _ _
  · exact makeDirs_paved y.steps t
  · exact .refl _ _

end FileOp

end FlashLink
