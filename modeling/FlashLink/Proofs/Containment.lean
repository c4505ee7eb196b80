import FlashLink.Extension.DirStore
import FlashLink.Proofs.Edits
import FlashLink.Proofs.Logic

/-!
A directory store stays in the directories of its extensions. Identifiers come from outside and are
joined to the base directory as they are, so the check that comes first has to leave no name that leads
anywhere but one step down from the base. What may be changed then are the places that this step leads
to: an extension's directory, its module file and its manifest, and for creating the directory those
above it that are missing.
-/

namespace FlashLink

/-! ### Names -/

namespace Path

/-- The text names one entry of a directory. -/
def IsName (n : String) : Prop := n ≠ "" ∧ n ≠ "." ∧ n ≠ ".." ∧ '/' ∉ n.toList

lemma parts_of_notMem {cs : List Char} (h : '/' ∉ cs) : parts cs = [cs] := by
  induction cs with
  | nil => rfl
  | cons c cs ih =>
    rw [List.mem_cons, not_or] at h
    rw [parts, if_neg (Ne.symm h.1), ih h.2]

lemma ofString_name {n : String} (h : IsName n) : ofString n = ⟨n, [.into n], false⟩ := by
  obtain ⟨hempty, hdot, hdots, hslash⟩ := h
  have hchars : ∀ cs : List Char, n.toList = cs → n = String.ofList cs := by
    rintro cs rfl
    exact String.ofList_toList.symm
  have hstep : stepOf n.toList = some (.into n) := by
    unfold stepOf
    rw [if_neg fun h => hempty (hchars _ h), if_neg fun h => hdot (hchars _ h),
      if_neg fun h => hdots (hchars _ h), String.ofList_toList]
  have hlast : ([n.toList].getLast? == some []) = false := by
    have hne : n.toList ≠ [] := fun h => hempty (hchars _ h)
    simpa using hne
  unfold ofString
  rw [parts_of_notMem hslash]
  simp only [List.filterMap_cons, hstep, List.filterMap_nil, hlast]

/-- A name adds one step down. -/
lemma join_name {n : String} (h : IsName n) (p : Path) :
    (p.join n).steps = p.steps ++ [.into n] ∧ (p.join n).slash = false := by
  have hhead : ¬ n.toList.head? = some '/' := fun hh => h.2.2.2 (List.mem_of_head? hh)
  unfold join
  rw [if_neg hhead, ofString_name h]
  exact ⟨rfl, rfl⟩

end Path

/-- Identifiers that pass the check name one entry of a directory. -/
lemma isName_of_isPlainId {maxLen : Nat} {id : String} (h : isPlainId maxLen id = true) :
    Path.IsName id := by
  unfold isPlainId at h
  simp only [Bool.and_eq_true, decide_eq_true_eq, List.all_eq_true] at h
  obtain ⟨⟨⟨⟨hempty, -⟩, hdot⟩, hdots⟩, hchars⟩ := h
  refine ⟨hempty, hdot, hdots, fun hmem => ?_⟩
  simpa using hchars _ hmem

namespace Op

variable {σ α : Type} {x : Op σ α} {s : σ}

/-- The answer of an action. -/
def answer (x : Op σ α) (s : σ) : Except Error α :=
  match x s with
  | .ok a _ => .ok a
  | .error e _ => .error e

/-- The state that an action leaves, however it ends. -/
def left (x : Op σ α) (s : σ) : σ :=
  match x s with
  | .ok _ t => t
  | .error _ t => t

lemma Sat.left {R : σ → Prop} (h : Sat x s (fun _ => R) fun _ => R) : R (x.left s) := by
  unfold Sat at h
  unfold Op.left
  generalize x s = o at h ⊢
  rcases o with ⟨a, t⟩ | ⟨e, t⟩
  · exact h
  · exact h

end Op

/-! ### Reading -/

namespace DirTree

variable {t u : DirTree} {ss : List PathStep} {n : String} {y : Path}

/-- What a path leads to, without what is below, depends on where its directory is and on what is
there. -/
lemma find_congr (hy : y.steps = ss ++ [.into n]) (hslash : y.slash = false)
    (hway : u.follow [] ss = t.follow [] ss)
    (hhere : ∀ p, t.follow [] ss = .ok p → u.look p = t.look p ∧ u.look (p ++ [n]) = t.look (p ++ [n])) :
    (u.find y).map node = (t.find y).map node := by
  have hreach : (u.reach y.steps).map node = (t.reach y.steps).map node := by
    unfold reach
    rw [hy, follow_append, follow_append, hway]
    cases hp : t.follow [] ss with
    | error why => rfl
    | ok p =>
      obtain ⟨hat, hin⟩ := hhere p hp
      have hstep : u.follow p [.into n] = t.follow p [.into n] := by
        rw [follow_into, follow_into, hat, hin]
      simp only [Bind.bind, Except.bind, hstep]
      cases hq : t.follow p [.into n] with
      | error why => rfl
      | ok q =>
        obtain ⟨rfl, -, -, -⟩ := follow_into_ok hq
        unfold look at hin
        dsimp only
        generalize u.get? (p ++ [n]) = v at hin ⊢
        generalize t.get? (p ++ [n]) = w at hin ⊢
        rcases v with _ | v <;> rcases w with _ | w <;> simp at hin
        · rfl
        · exact congrArg Except.ok hin
  unfold find stepsOf
  rw [hslash]
  split_ifs
  · rfl
  · simp only [Bind.bind, Except.bind, false_and, if_false]
    cases hu : u.reach y.steps with
    | error why =>
      rw [hu] at hreach
      cases ht : t.reach y.steps with
      | error why' => rw [ht] at hreach; exact hreach
      | ok w => rw [ht] at hreach; cases hreach
    | ok v =>
      rw [hu] at hreach
      cases ht : t.reach y.steps with
      | error why' => rw [ht] at hreach; cases hreach
      | ok w => rw [ht] at hreach; exact hreach
  · rfl

end DirTree

namespace FileOp

open DirTree

/-- What opening a path gives, by what it leads to. -/
def sourceOf (y : Path) : Node → Source
  | .file data => ⟨y.text, .file data, []⟩
  | .dir => ⟨y.text, .directory, []⟩

def contentsOf : Node → Except FileFault Bytes
  | .file data => .ok data
  | .dir => .error .isDirectory

lemma openSource_eq (y : Path) : openSource y = look fun t => ((t.find y).map node).map (sourceOf y) := by
  funext t
  unfold openSource
  rw [look_bind, look]
  rcases t.find y with _ | ⟨data | es⟩ <;> rfl

lemma readFile_eq (y : Path) : readFile y = look fun t => ((t.find y).map node).bind contentsOf := by
  funext t
  unfold readFile
  rw [look_bind, look]
  rcases t.find y with _ | ⟨data | es⟩ <;> rfl

end FileOp

namespace DirStore

open DirTree

variable {s : DirStore} {id : String} {α β : Type}

/-- The identifier is checked before anything else is done. -/
lemma checkId_bind (f : Unit → Op DirStore α) :
    (checkId id >>= f) s =
      if isPlainId s.maxIdLen id then f () s else .error (.invalidId id) s := by
  have hcheck : Op.Sat (checkId id) s (fun _ t => isPlainId s.maxIdLen id = true ∧ t = s)
      (fun e t => isPlainId s.maxIdLen id = false ∧ e = .invalidId id ∧ t = s) := by
    unfold checkId
    refine Op.Sat.get_bind ?_
    unfold FlashLink.checkId
    rcases hid : isPlainId s.maxIdLen id with _ | _
    · exact ⟨rfl, rfl, rfl⟩
    · exact ⟨rfl, rfl⟩
  unfold Op.Sat at hcheck
  rcases hres : checkId id s with ⟨_, t⟩ | ⟨e, t⟩ <;> rw [hres] at hcheck
  · obtain ⟨hid, rfl⟩ := hcheck
    rw [if_pos hid, Op.bind_of_ok hres]
  · obtain ⟨hid, rfl, rfl⟩ := hcheck
    rw [if_neg (by simp [hid]), Op.bind_of_error hres]

lemma onFilesIfThere_look (action : FileAction) (y : Path) (f : DirTree → Except FileFault α) :
    (onFilesIfThere action y fun _ => FileOp.look f).left s = s ∧
      ∀ u, f u = f s.tree → (onFilesIfThere action y fun _ => FileOp.look f).answer { s with tree := u } =
        (onFilesIfThere action y fun _ => FileOp.look f).answer s := by
  unfold Op.left Op.answer onFilesIfThere onFiles FileOp.look
  dsimp only
  refine ⟨?_, fun u hu => ?_⟩
  · rcases f s.tree with why | a
    · cases why <;> rfl
    · rfl
  · rw [hu]
    rcases f s.tree with why | a
    · cases why <;> rfl
    · rfl

/-- A tree that agrees with that of the store on the way to the directory of an extension, there, and
at one file in it. -/
structure SameAt (s : DirStore) (id file : String) (u : DirTree) : Prop where
  way : u.follow [] (s.dirPath id).steps = s.tree.follow [] (s.dirPath id).steps
  here : ∀ p, s.tree.follow [] (s.dirPath id).steps = .ok p →
    u.look p = s.tree.look p ∧ u.look (p ++ [file]) = s.tree.look (p ++ [file])

/-- An action that reads one file of an extension: it changes nothing, and its answer depends on that
file alone. -/
def Reads (s : DirStore) (id file : String) (x : Op DirStore α) : Prop :=
  x.left s = s ∧ ∀ u, s.SameAt id file u → x.answer { s with tree := u } = x.answer s

/-- Looking at what a file path leads to, through some function of that alone. -/
lemma reads_of_look {file : String} (hfile : Path.IsName file) (action : FileAction)
    (g : Except FileFault Node → Except FileFault α) {x : Op DirStore (Option α)}
    (hx : ∀ u, x { s with tree := u } = onFilesIfThere action ((s.dirPath id).join file)
      (fun _ => FileOp.look fun t => g ((t.find ((s.dirPath id).join file)).map node))
      { s with tree := u }) :
    s.Reads id file x := by
  obtain ⟨hsteps, hslash⟩ := Path.join_name hfile (s.dirPath id)
  obtain ⟨hleft, hanswer⟩ := onFilesIfThere_look (s := s) action ((s.dirPath id).join file)
    fun t => g ((t.find ((s.dirPath id).join file)).map node)
  refine ⟨?_, fun u hu => ?_⟩
  · unfold Op.left at hleft ⊢
    rw [hx s.tree]
    exact hleft
  · have hfind := find_congr hsteps hslash hu.way hu.here
    have h := hanswer u (congrArg g hfind)
    unfold Op.answer at h ⊢
    rw [hx u, hx s.tree]
    exact h

lemma openModule_reads (hmodule : Path.IsName s.moduleFile) (hid : isPlainId s.maxIdLen id = true) :
    s.Reads id s.moduleFile (Store.openModule id) := by
  refine reads_of_look hmodule .opening (Except.map (FileOp.sourceOf (s.modulePath id))) fun u => ?_
  refine (checkId_bind _).trans ?_
  rw [if_pos hid]
  change onFilesIfThere .opening (s.modulePath id) FileOp.openSource _ = _
  unfold onFilesIfThere onFiles
  dsimp only
  rw [FileOp.openSource_eq]
  rfl

lemma readManifest_reads (hmanifest : Path.IsName s.manifestFile)
    (hid : isPlainId s.maxIdLen id = true) :
    s.Reads id s.manifestFile (Store.readManifest id) := by
  refine reads_of_look hmanifest .reading (Except.bind · FileOp.contentsOf) fun u => ?_
  refine (checkId_bind _).trans ?_
  rw [if_pos hid]
  change onFilesIfThere .reading (s.manifestPath id) FileOp.readFile _ = _
  unfold onFilesIfThere onFiles
  dsimp only
  rw [FileOp.readFile_eq]
  rfl

/-! ### Creating -/

/-- What preparing an extension changes: where there was nothing, its directory appears, and the
directories on the way to the base. -/
structure Prepared (s : DirStore) (id : String) (s' : DirStore) : Prop where
  rest : s' = { s with tree := s'.tree }
  places : ∀ q, s'.tree.look q ≠ s.tree.look q → s.tree.look q = none ∧ s'.tree.look q = some .dir ∧
    ((∃ b, s'.tree.follow [] s.base.steps = .ok b ∧ q = b ++ [id]) ∨
      ∃ pre, pre <+: moves s.base.steps ∧ s'.tree.follow [] pre = .ok q)

lemma prepare_prepared (hid : isPlainId s.maxIdLen id = true) :
    s.Prepared id ((Store.prepare id : Op DirStore _).left s) := by
  have hname := isName_of_isPlainId hid
  have hsteps := (Path.join_name hname s.base).1
  have hleft : (Store.prepare id : Op DirStore _).left s =
      { s with tree := (FileOp.makeDir (s.dirPath id)).left s.tree } := by
    have hprepare : (Store.prepare id : Op DirStore _) s =
        onFiles .creating (s.dirPath id) FileOp.makeDir s := by
      refine (checkId_bind _).trans ?_
      rw [if_pos hid]
      rfl
    unfold Op.left FileOp.left
    rw [hprepare]
    unfold onFiles
    rcases FileOp.makeDir (s.dirPath id) s.tree with ⟨_, t⟩ | ⟨why, t⟩ <;> rfl
  have hpaved := FileOp.makeDir_paved (s.dirPath id) s.tree
  rw [hleft]
  refine ⟨rfl, fun q hq => ?_⟩
  dsimp only at hq ⊢
  generalize (FileOp.makeDir (s.dirPath id)).left s.tree = t' at hpaved hq ⊢
  have hnone : s.tree.look q = none := by
    cases hv : s.tree.look q with
    | none => rfl
    | some v => exact absurd ((hpaved.kept q v hv).trans hv.symm) hq
  rw [hnone] at hq
  obtain ⟨hdir, pre, hpre, hfollow⟩ := hpaved.new q hnone hq
  refine ⟨hnone, hdir, ?_⟩
  have hmoves : moves (s.dirPath id).steps = moves s.base.steps ++ [.into id] := by
    rw [dirPath, hsteps, moves_append]
    rfl
  rw [hmoves, List.prefix_concat_iff] at hpre
  rcases hpre with rfl | hpre
  · left
    rw [follow_append] at hfollow
    cases hb : t'.follow [] (moves s.base.steps) with
    | error why => rw [hb] at hfollow; cases hfollow
    | ok b =>
      rw [hb] at hfollow
      obtain ⟨rfl, hbdir, -, -⟩ := follow_into_ok hfollow
      exact ⟨b, follow_of_moves hb hbdir, rfl⟩
  · exact .inr ⟨pre, hpre, hfollow⟩

/-! ### Removing -/

/-- What removing an extension changes: its module file and its manifest may be gone, and then its
directory, if they were all that was in it. -/
structure Removed (s : DirStore) (id : String) (s' : DirStore) : Prop where
  rest : s' = { s with tree := s'.tree }
  places : ∀ q, s'.tree.look q ≠ s.tree.look q → s'.tree.look q = none ∧
    ∃ b, s.tree.follow [] s.base.steps = .ok b ∧
      ((q = b ++ [id, s.moduleFile] ∨ q = b ++ [id, s.manifestFile]) ∧
          (∃ data, s.tree.look q = some (.file data)) ∨
        q = b ++ [id] ∧ s.tree.look q = some .dir ∧ ∀ n v, s.tree.look (b ++ [id, n]) = some v →
          (n = s.moduleFile ∨ n = s.manifestFile) ∧ ∃ data, v = .file data)

lemma Removed.refl (s : DirStore) (id : String) : s.Removed id s := ⟨rfl, fun _ h => absurd rfl h⟩

lemma Removed.shrinks {s s' : DirStore} (h : s.Removed id s') {q : List String} {v : Node}
    (hq : s'.tree.look q = some v) : s.tree.look q = some v := by
  by_contra hne
  have hchanged : s'.tree.look q ≠ s.tree.look q := by
    rw [hq]
    exact fun h => hne h.symm
  rw [(h.places q hchanged).1] at hq
  cases hq

/-- The base is where it was. -/
lemma Removed.follow {s s' : DirStore} (h : s.Removed id s') {b : List String}
    (hb : s'.tree.follow [] s.base.steps = .ok b) : s.tree.follow [] s.base.steps = .ok b :=
  follow_mono (fun _ _ hq => h.shrinks hq) hb

/-- Removing one of the two files. -/
lemma Removed.file {s s' : DirStore} (h : s.Removed id s') (hid : Path.IsName id) {file : String}
    (hfile : Path.IsName file) (hown : file = s.moduleFile ∨ file = s.manifestFile) :
    Op.Sat (onFilesIfThere .removing ((s.dirPath id).join file) FileOp.removeFile) s'
      (fun _ => s.Removed id) (fun _ => s.Removed id) := by
  have hsteps := (Path.join_name hfile (s.dirPath id)).1
  have hdir := (Path.join_name hid s.base).1
  unfold Op.Sat onFilesIfThere onFiles
  dsimp only
  rcases FileOp.removeFile_edit hsteps s'.tree with ⟨why, hremove⟩ | ⟨b', data, t, hb', hdata, hedit, hremove⟩
  · rw [hremove]
    cases why <;> exact h
  rw [hremove]
  dsimp only
  -- the file is two steps down from the base
  rw [dirPath, hdir, follow_append] at hb'
  cases hb : s'.tree.follow [] s.base.steps with
  | error why => rw [hb] at hb'; cases hb'
  | ok b =>
    rw [hb] at hb'
    obtain ⟨rfl, -, -, -⟩ := follow_into_ok hb'
    have hplace : b ++ [id] ++ [file] = b ++ [id, file] := by simp
    rw [hplace] at hdata hedit
    refine ⟨by rw [h.rest], fun q hq => ?_⟩
    dsimp only at hq
    by_cases hqf : q = b ++ [id, file]
    · subst hqf
      refine ⟨hedit.here, b, h.follow hb, .inl ⟨?_, data, h.shrinks hdata⟩⟩
      rcases hown with rfl | rfl
      · exact .inl rfl
      · exact .inr rfl
    · rw [hedit.rest q hqf] at hq ⊢
      exact h.places q hq

/-- Removing the directory, in which there is nothing left. -/
lemma Removed.dir {s s' : DirStore} (h : s.Removed id s') (hid : Path.IsName id) :
    Op.Sat (onFilesIfThere .removing (s.dirPath id) FileOp.removeDir) s'
      (fun _ => s.Removed id) (fun _ => s.Removed id) := by
  have hsteps := (Path.join_name hid s.base).1
  unfold Op.Sat onFilesIfThere onFiles
  dsimp only
  rcases FileOp.removeDir_edit hsteps s'.tree with ⟨why, hremove⟩ | ⟨b, t, hb, hempty, hedit, hremove⟩
  · rw [dirPath, hremove]
    cases why <;> exact h
  rw [dirPath, hremove]
  dsimp only
  have hshows : s'.tree.look (b ++ [id]) = some .dir := look_eq_dir.2 ⟨[], hempty⟩
  refine ⟨by rw [h.rest], fun q hq => ?_⟩
  dsimp only at hq
  by_cases hqd : q = b ++ [id]
  · subst hqd
    refine ⟨hedit.here, b, h.follow hb, .inr ⟨rfl, h.shrinks hshows, fun n v hv => ?_⟩⟩
    -- what the directory held at first has been removed before
    have hgone : s'.tree.look (b ++ [id, n]) = none := by
      have := look_entry hempty n
      simpa using this
    have hchanged : s'.tree.look (b ++ [id, n]) ≠ s.tree.look (b ++ [id, n]) := by
      rw [hgone, hv]
      simp
    obtain ⟨-, b', hb', ⟨hown, data, hdata⟩ | ⟨hlen, -⟩⟩ := h.places _ hchanged
    · rw [h.follow hb] at hb'
      cases hb'
      rw [hv] at hdata
      refine ⟨?_, data, Option.some_inj.1 hdata⟩
      simpa using hown
    · rw [h.follow hb] at hb'
      cases hb'
      simp at hlen
  · rw [hedit.rest q hqd] at hq ⊢
    exact h.places q hq

lemma remove_removed (hmodule : Path.IsName s.moduleFile) (hmanifest : Path.IsName s.manifestFile)
    (hid : isPlainId s.maxIdLen id = true) :
    s.Removed id ((Store.remove id : Op DirStore _).left s) := by
  have hname := isName_of_isPlainId hid
  refine Op.Sat.left ?_
  have hremove : (Store.remove id : Op DirStore _) s = (do
      let _ ← onFilesIfThere .removing (s.modulePath id) FileOp.removeFile
      let _ ← onFilesIfThere .removing (s.manifestPath id) FileOp.removeFile
      let _ ← onFilesIfThere .removing (s.dirPath id) FileOp.removeDir
      return () : Op DirStore Unit) s := by
    refine (checkId_bind _).trans ?_
    rw [if_pos hid]
    rfl
  unfold Op.Sat
  rw [hremove]
  refine Op.Sat.bind ((Removed.refl s id).file hname hmodule (.inl rfl)) (fun _ s1 h1 => ?_)
    fun _ _ h => h
  refine Op.Sat.bind (h1.file hname hmanifest (.inr rfl)) (fun _ s2 h2 => ?_) fun _ _ h => h
  exact Op.Sat.bind (h2.dir hname) (fun _ _ h => Op.sat_pure.2 h) fun _ _ h => h

/-! ### Untrusted identifiers -/

/-- **A store stays inside.** Whatever the identifier, the base and the tree: an identifier that is not
plain is refused before anything is touched. The directory of any other is one step down from the base.
Opening the module and reading the manifest change nothing and depend on one file in that directory;
preparing adds the directory and missing ones on the way to the base; removing takes away the two files,
and the directory if there was nothing else in it. All other places show what they showed, also after
an operation that has failed halfway. -/
theorem stays_inside (hmodule : Path.IsName s.moduleFile) (hmanifest : Path.IsName s.manifestFile)
    (id : String) :
    (isPlainId s.maxIdLen id = false →
      (Store.openModule id : Op DirStore _) s = .error (.invalidId id) s ∧
      (Store.readManifest id : Op DirStore _) s = .error (.invalidId id) s ∧
      (Store.prepare id : Op DirStore _) s = .error (.invalidId id) s ∧
      (Store.remove id : Op DirStore _) s = .error (.invalidId id) s) ∧
    (isPlainId s.maxIdLen id = true →
      (s.dirPath id).steps = s.base.steps ++ [.into id] ∧
      s.Reads id s.moduleFile (Store.openModule id) ∧
      s.Reads id s.manifestFile (Store.readManifest id) ∧
      s.Prepared id ((Store.prepare id : Op DirStore _).left s) ∧
      s.Removed id ((Store.remove id : Op DirStore _).left s)) := by
  refine ⟨fun hid => ?_, fun hid => ?_⟩
  · have hrefuse : ∀ {α : Type} (f : Unit → Op DirStore α),
        (checkId id >>= f) s = .error (.invalidId id) s := by
      intro α f
      rw [checkId_bind, hid]
      rfl
    exact ⟨hrefuse _, hrefuse _, hrefuse _, hrefuse _⟩
  · exact ⟨(Path.join_name (isName_of_isPlainId hid) s.base).1, openModule_reads hmodule hid,
      readManifest_reads hmanifest hid, prepare_prepared hid, remove_removed hmodule hmanifest hid⟩

/-- In the default layout, a way out is refused as an identifier, and removing `blink` stays in its
directory. -/
theorem stays_inside_default :
    (Store.remove "../lib" : Op DirStore _) (ofConfig .scratch .default) =
      .error (.invalidId "../lib") (ofConfig .scratch .default) ∧
    (ofConfig .scratch .default).Removed "blink"
      ((Store.remove "blink" : Op DirStore _).left (ofConfig .scratch .default)) := by
  have hmodule : Path.IsName (ofConfig .scratch .default).moduleFile := by unfold Path.IsName; decide
  have hmanifest : Path.IsName (ofConfig .scratch .default).manifestFile := by
    unfold Path.IsName
    decide
  obtain ⟨-, -, -, hrefused⟩ := (stays_inside hmodule hmanifest "../lib").1 (by decide)
  obtain ⟨-, -, -, -, hremoved⟩ := (stays_inside hmodule hmanifest "blink").2 (by decide)
  exact ⟨hrefused, hremoved⟩

end DirStore

end FlashLink
