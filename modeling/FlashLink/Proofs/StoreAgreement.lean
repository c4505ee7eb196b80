import FlashLink.Proofs.Rooms
import Mathlib.Data.List.Nodup

/-!
The store in memory and the store in a directory tree answer alike. What an extension has in memory is
what its directory holds, and requests keep it so, one by one and hence in any sequence. The one
difference is the list: a directory whose name begins with a dot is left out of it, and so is an
extension with such an identifier, which all other requests accept.
-/

namespace FlashLink

/-! ### Requests -/

/-- What is asked of a store. -/
inductive StoreRequest where
  | prepare (id : String)
  | install (id : String) (data : Bytes)
  | setManifest (id : String) (data : Bytes)
  | remove (id : String)
  | list
  | openModule (id : String)
  | readManifest (id : String)
deriving DecidableEq

inductive StoreAnswer where
  | done
  | ids (l : List String)
  /-- What there is to read, if a module is there. -/
  | module (data : Option SourceKind)
  | manifest (data : Option Bytes)
deriving DecidableEq

/-- The bytes of a module, whether it lies in memory or in a file. -/
def SourceKind.stored : SourceKind → SourceKind
  | .memory data => .file data
  | k => k

namespace StoreRequest

/-- The extension that a request is about. -/
def id? : StoreRequest → Option String
  | prepare id | install id _ | setManifest id _ | remove id | openModule id | readManifest id => some id
  | list => none

variable {σ : Type} [Store σ]

def perform : StoreRequest → Op σ StoreAnswer
  | prepare id => do Store.prepare id; return .done
  | install id data => do Store.install id data; return .done
  | setManifest id data => do Store.setManifest id data; return .done
  | remove id => do Store.remove id; return .done
  | list => do return .ids (← Store.list)
  | openModule id => do return .module ((← Store.openModule id).map fun source => source.kind.stored)
  | readManifest id => do return .manifest (← Store.readManifest id)

/-- The answers to a sequence of requests. -/
def performAll : List StoreRequest → Op σ (List StoreAnswer)
  | [] => return []
  | r :: rs => do
    let a ← r.perform
    let as ← performAll rs
    return a :: as

lemma performAll_cons {r : StoreRequest} {rs : List StoreRequest} {a : StoreAnswer}
    {as : List StoreAnswer} {s s' s'' : σ} (h : r.perform s = .ok a s')
    (h' : performAll rs s' = .ok as s'') : performAll (r :: rs) s = .ok (a :: as) s'' :=
  (Op.bind_of_ok h _).trans ((Op.bind_of_ok h' _).trans rfl)

/-- Whether an extension is installed after a request, given whether it was before. -/
def installs (id : String) (before : Bool) : StoreRequest → Bool
  | prepare i | install i _ | setManifest i _ => before || i == id
  | remove i => before && i != id
  | list | openModule _ | readManifest _ => before

end StoreRequest

/-- The answer without the identifiers that begin with a dot. -/
def StoreAnswer.undotted : StoreAnswer → StoreAnswer
  | .ids l => .ids (l.filter fun id => !id.startsWith ".")
  | a => a

/-! ### Sorted identifiers -/

lemma sortIds_pairwise (l : List String) : (sortIds l).Pairwise (· ≤ ·) := by
  have h : (l.mergeSort fun a b => decide (a ≤ b)).Pairwise fun a b => decide (a ≤ b) = true :=
    List.pairwise_mergeSort
      (fun a b c hab hbc => by simpa using String.le_trans (by simpa using hab) (by simpa using hbc))
      (fun a b => by simpa using String.le_total a b) l
  simpa [sortIds] using h

lemma mem_sortIds {l : List String} {id : String} : id ∈ sortIds l ↔ id ∈ l := by
  unfold sortIds
  exact (List.mergeSort_perm l _).mem_iff

lemma sortIds_strict {l : List String} (h : l.Nodup) : (sortIds l).Pairwise (· < ·) := by
  have hnodup : (sortIds l).Nodup := (List.mergeSort_perm l _).nodup_iff.2 h
  refine ((sortIds_pairwise l).and hnodup).imp fun {a b} hab => ?_
  by_contra hlt
  exact hab.2 (String.le_antisymm hab.1 (String.not_lt.1 hlt))

/-- Sorting forgets the order. -/
lemma sortIds_perm {l k : List String} (h : l.Perm k) : sortIds l = sortIds k := by
  have hperm : (sortIds l).Perm (sortIds k) :=
    (List.mergeSort_perm l _).trans (h.trans (List.mergeSort_perm k _).symm)
  exact hperm.eq_of_pairwise (fun a b _ _ => String.le_antisymm) (sortIds_pairwise l)
    (sortIds_pairwise k)

lemma sortIds_filter (l : List String) (p : String → Bool) :
    sortIds (l.filter p) = (sortIds l).filter p := by
  have hperm : (sortIds (l.filter p)).Perm ((sortIds l).filter p) :=
    (List.mergeSort_perm _ _).trans ((List.mergeSort_perm l _).symm.filter p)
  exact hperm.eq_of_pairwise (fun a b _ _ => String.le_antisymm) (sortIds_pairwise _)
    ((sortIds_pairwise l).filter p)

/-! ### Lists with keys -/

section Keys

variable {β : Type} {l : List (String × β)} {k : String}

lemma lookup_eq_none : l.lookup k = none ↔ k ∉ l.map (·.1) := by
  rw [List.lookup_eq_none_iff]
  simp only [bne_iff_ne, List.mem_map, not_exists, not_and]
  exact ⟨fun h e he hk => h e he hk.symm, fun h e he hk => h e he hk.symm⟩

lemma lookup_of_mem {v : β} (hl : (l.map (·.1)).Nodup) (h : (k, v) ∈ l) : l.lookup k = some v := by
  induction l with
  | nil => cases h
  | cons e l ih =>
    obtain ⟨n, w⟩ := e
    rw [List.map_cons, List.nodup_cons] at hl
    rcases List.mem_cons.1 h with heq | hmem
    · cases heq
      simp
    · have hne : (k == n) = false := by
        have : k ∈ l.map (·.1) := List.mem_map.2 ⟨_, hmem, rfl⟩
        simpa using fun hkn : k = n => hl.1 (hkn ▸ this)
      rw [List.lookup_cons, hne]
      exact ih hl.2 hmem

end Keys

/-! ### In memory -/

namespace MemStore

variable {m : MemStore} {id : String}

/-- Changing the entry of an identifier changes no other. -/
lemma find?_update (m : MemStore) (id : String) (f : MemEntry → MemEntry) (k : String) :
    (m.update id f).find? k =
      if k = id then some (f ((m.find? id).getD ⟨none, none⟩)) else m.find? k := by
  unfold update
  cases hid : m.find? id with
  | none =>
    unfold find?
    dsimp only
    by_cases hk : k = id
    · simp [hk]
    · have hne : (k == id) = false := by simpa using hk
      rw [List.lookup_cons, hne, if_neg hk]
  | some e =>
    have hmap : ∀ l : List (String × MemEntry), (l.map fun e => if e.1 = id then (id, f e.2) else e).lookup k =
        (l.lookup k).map fun e => if k = id then f e else e := by
      intro l
      induction l with
      | nil => rfl
      | cons e l ih =>
        obtain ⟨n, v⟩ := e
        by_cases hn : n = id
        · subst hn
          by_cases hk : k = n
          · simp [hk]
          · have hne : (k == n) = false := by simpa using hk
            simpa [List.lookup_cons, hne, hk] using ih
        · by_cases hk : k = n
          · subst hk
            simp [hn]
          · have hne : (k == n) = false := by simpa using hk
            simpa [List.lookup_cons, hne, hn] using ih
    unfold find? at hid ⊢
    dsimp only
    rw [hmap]
    by_cases hk : k = id
    · subst hk
      simp [hid]
    · simp [hk]

lemma mem_ids (m : MemStore) (id : String) : id ∈ m.entries.map (·.1) ↔ m.contains id = true := by
  unfold contains find?
  rw [Option.isSome_iff_ne_none, Ne, lookup_eq_none, not_not]

lemma names_update (m : MemStore) (id : String) (f : MemEntry → MemEntry) :
    (m.update id f).entries.map (·.1) =
      if m.contains id then m.entries.map (·.1) else id :: m.entries.map (·.1) := by
  unfold update contains
  cases m.find? id with
  | none => rfl
  | some e =>
    simp only [List.map_map, Option.isSome_some, if_true]
    refine List.map_congr_left fun e _ => ?_
    by_cases he : e.1 = id <;> simp [he]

lemma ids_nodup_update (h : (m.entries.map (·.1)).Nodup) (id : String) (f : MemEntry → MemEntry) :
    ((m.update id f).entries.map (·.1)).Nodup := by
  rw [names_update]
  split_ifs with hid
  · exact h
  · have hnone : m.find? id = none := Option.not_isSome_iff_eq_none.1 hid
    exact List.nodup_cons.2 ⟨lookup_eq_none.1 hnone, h⟩

lemma contains_update (m : MemStore) (id : String) (f : MemEntry → MemEntry) (k : String) :
    (m.update id f).contains k = (m.contains k || id == k) := by
  unfold contains
  rw [find?_update]
  by_cases hk : k = id
  · simp [hk]
  · have hne : (id == k) = false := by simpa using Ne.symm hk
    rw [if_neg hk, hne, Bool.or_false]

lemma find?_filter (m : MemStore) (id k : String) :
    (MemStore.mk (m.entries.filter (·.1 ≠ id))).find? k = if k = id then none else m.find? k :=
  lookup_filter_ne m.entries id k

lemma contains_filter (m : MemStore) (id k : String) :
    (MemStore.mk (m.entries.filter (·.1 ≠ id))).contains k = (m.contains k && id != k) := by
  unfold contains
  rw [find?_filter]
  by_cases hk : k = id
  · simp [hk]
  · have hne : (id != k) = true := by simpa using Ne.symm hk
    rw [if_neg hk, hne, Bool.and_true]

end MemStore

/-! ### In a directory tree -/

namespace DirStore

open DirTree

/-- A name for files in directories. -/
def FileName (n : String) : Prop :=
  Path.IsName n ∧ '\x00' ∉ n.toList ∧ n.utf8ByteSize ≤ maxName

/-- A file that belongs to every extension. -/
def Owns (s : DirStore) (file : String) : Prop := file = s.moduleFile ∨ file = s.manifestFile

structure Layout (s : DirStore) : Prop where
  files : ∀ file, s.Owns file → FileName file
  distinct : s.moduleFile ≠ s.manifestFile

/-- The identifier is accepted, and no name or path that is made of it is too long. -/
structure Takes (s : DirStore) (id : String) : Prop where
  plain : isPlainId s.maxIdLen id = true
  name : id.utf8ByteSize ≤ maxName
  paths : ∀ file, s.Owns file → ((s.dirPath id).join file).text.utf8ByteSize ≤ maxPath

/-- What the directory of an extension holds under a name. -/
def fileOf (s : DirStore) (e : MemEntry) (file : String) : Option Bytes :=
  if file = s.moduleFile then e.module else if file = s.manifestFile then e.manifest else none

/-- The entry with another module or manifest. -/
def setFile (s : DirStore) (file : String) (data : Option Bytes) (e : MemEntry) : MemEntry :=
  if file = s.moduleFile then { e with module := data } else { e with manifest := data }

/-- What is under a name in the base directory is what is in memory. -/
def Holds (s : DirStore) : Option MemEntry → Option DirTree → Prop
  | none, none => True
  | some e, some (.dir fs) => ∀ file, fs.lookup file = (s.fileOf e file).map .file
  | _, _ => False

/-- The base directory at `b` holds what is in memory. -/
structure Mirrors (s : DirStore) (b : List String) (es : List (String × DirTree)) (t : DirTree)
    (m : MemStore) : Prop where
  base : s.base.Fits
  stands : Stands s.base.steps b es t
  names : (es.map (·.1)).Nodup
  ids : (m.entries.map (·.1)).Nodup
  holds : ∀ id, s.Holds (m.find? id) (es.lookup id)

variable {s : DirStore} {t : DirTree} {m : MemStore} {b : List String}
  {es fs : List (String × DirTree)} {id file : String} {e : MemEntry}

/-! ### Paths of an extension -/

lemma zero_notMem_of_isPlainId {maxLen : Nat} (h : isPlainId maxLen id = true) :
    '\x00' ∉ id.toList := by
  unfold isPlainId at h
  simp only [Bool.and_eq_true, decide_eq_true_eq, List.all_eq_true] at h
  exact fun hmem => by simpa using h.2 _ hmem

lemma Takes.dir_fits (h : s.Takes id) (hl : s.Layout) (hb : s.base.Fits) :
    (s.dirPath id).Fits := by
  have hname := isName_of_isPlainId h.plain
  have hfile := (hl.files s.moduleFile (.inl rfl)).1
  refine ⟨Path.zero_notMem_join hname hb.1 (zero_notMem_of_isPlainId h.plain), ?_⟩
  exact (Path.size_le_join hfile _).trans (h.paths _ (.inl rfl))

lemma Takes.file_fits (h : s.Takes id) (hl : s.Layout) (hb : s.base.Fits) (hfile : s.Owns file) :
    ((s.dirPath id).join file).Fits := by
  obtain ⟨hname, hzero, -⟩ := hl.files file hfile
  exact ⟨Path.zero_notMem_join hname (h.dir_fits hl hb).1 hzero, h.paths file hfile⟩

lemma Takes.dir_steps (h : s.Takes id) : (s.dirPath id).steps = s.base.steps ++ [.into id] :=
  (Path.join_name (isName_of_isPlainId h.plain) s.base).1

lemma Takes.file_steps (h : s.Takes id) (hl : s.Layout) (hfile : s.Owns file) :
    ((s.dirPath id).join file).steps = s.base.steps ++ [.into id] ++ [.into file] ∧
      ((s.dirPath id).join file).slash = false := by
  rw [← h.dir_steps]
  exact Path.join_name (hl.files file hfile).1 _

/-! ### Directories and entries -/

lemma fileOf_setFile (hl : s.Layout) (hfile : s.Owns file) (data : Option Bytes) (e : MemEntry)
    (g : String) :
    s.fileOf (s.setFile file data e) g = if g = file then data else s.fileOf e g := by
  have hdistinct := hl.distinct
  unfold fileOf setFile
  rcases hfile with rfl | rfl
  · rw [if_pos rfl]
    by_cases hg : g = s.moduleFile <;> simp [hg]
  · rw [if_neg hdistinct.symm]
    by_cases hg : g = s.manifestFile
    · subst hg
      simp [hdistinct.symm]
    · simp [hg]

/-- An extension in memory has a directory, with its files. -/
lemma Mirrors.dir_of_some (h : s.Mirrors b es t m) (hid : m.find? id = some e) :
    ∃ fs, es.lookup id = some (.dir fs) ∧ ∀ file, fs.lookup file = (s.fileOf e file).map .file := by
  have hholds := h.holds id
  rw [hid] at hholds
  rcases hes : es.lookup id with _ | ⟨_ | fs⟩
  · rw [hes] at hholds
    cases hholds
  · rw [hes] at hholds
    cases hholds
  · rw [hes] at hholds
    exact ⟨fs, rfl, hholds⟩

/-- No other name is in the base directory. -/
lemma Mirrors.lookup_of_none (h : s.Mirrors b es t m) (hid : m.find? id = none) :
    es.lookup id = none := by
  have hholds := h.holds id
  rw [hid] at hholds
  rcases hes : es.lookup id with _ | ⟨_ | fs⟩
  · rfl
  · rw [hes] at hholds
    cases hholds
  · rw [hes] at hholds
    cases hholds

/-- Binding one name anew, in memory and in the base directory. -/
lemma Mirrors.bound (h : s.Mirrors b es t m) {v : Option DirTree} {t' : DirTree} {m' : MemStore}
    (hstands : Stands s.base.steps b (bind es id v) t') (hids : (m'.entries.map (·.1)).Nodup)
    (hrest : ∀ k, k ≠ id → m'.find? k = m.find? k) (hid : s.Holds (m'.find? id) v) :
    s.Mirrors b (bind es id v) t' m' := by
  have hfilter : ((es.filter (·.1 ≠ id)).map (·.1)).Nodup :=
    h.names.sublist (List.filter_sublist.map _)
  refine ⟨h.base, hstands, ?_, hids, fun k => ?_⟩
  · unfold DirTree.bind
    cases v with
    | none => exact hfilter
    | some v =>
      refine List.nodup_cons.2 ⟨fun hmem => ?_, hfilter⟩
      obtain ⟨e, he, hk⟩ := List.mem_map.1 hmem
      simpa [hk] using (List.mem_filter.1 he).2
  · rw [lookup_bind]
    split_ifs with hk
    · subst hk
      exact hid
    · rw [hrest k hk]
      exact h.holds k

/-- Changing one entry into one with the same files. -/
lemma Mirrors.same (h : s.Mirrors b es t m) {f : MemEntry → MemEntry} (hid : m.find? id = some e)
    (hf : ∀ file, s.fileOf (f e) file = s.fileOf e file) : s.Mirrors b es t (m.update id f) := by
  refine ⟨h.base, h.stands, h.names, MemStore.ids_nodup_update h.ids id f, fun k => ?_⟩
  rw [MemStore.find?_update]
  split_ifs with hk
  · subst hk
    obtain ⟨fs, hfs, hfiles⟩ := h.dir_of_some hid
    rw [hid, hfs]
    intro file
    rw [hfiles, Option.getD_some, hf]
  · exact h.holds k

/-- Changing one file. -/
lemma Mirrors.setFile (h : s.Mirrors b es t m) (hl : s.Layout) (hfile : s.Owns file)
    (hid : m.find? id = some e) (hfs : es.lookup id = some (.dir fs)) (data : Option Bytes) :
    s.Mirrors b (bind es id (some (.dir (bind fs file (data.map .file)))))
      (t.setEntry file (data.map .file) (b ++ [id])) (m.update id (s.setFile file data)) := by
  obtain ⟨fs', hfs', hfiles⟩ := h.dir_of_some hid
  have hsame : fs' = fs := by
    rw [hfs] at hfs'
    cases hfs'
    rfl
  subst hsame
  refine h.bound (h.stands.bindFile hfs file _) (MemStore.ids_nodup_update h.ids id _)
    (fun k hk => ?_) ?_
  · rw [MemStore.find?_update, if_neg hk]
  · rw [MemStore.find?_update, if_pos rfl, hid, Option.getD_some]
    intro g
    rw [lookup_bind, fileOf_setFile hl hfile]
    split_ifs
    · rfl
    · exact hfiles g

/-! ### What each operation does -/

section OnFiles

variable {α : Type} {action : FileAction} {y : Path} {x : Path → FileOp α} {a : α} {t' : DirTree}

lemma onFiles_ok (h : x y t = .ok a t') :
    onFiles action y x { s with tree := t } = .ok a { s with tree := t' } := by
  unfold onFiles
  dsimp only
  rw [h]

lemma onFilesIfThere_ok (h : x y t = .ok a t') :
    onFilesIfThere action y x { s with tree := t } = .ok (some a) { s with tree := t' } := by
  refine onFiles_ok ?_
  simp only [h]

lemma onFilesIfThere_missing (h : x y t = .error .notFound t') :
    onFilesIfThere action y x { s with tree := t } = .ok none { s with tree := t' } := by
  refine onFiles_ok ?_
  simp only [h]

end OnFiles

/-- Creating the directory of an extension. -/
lemma Mirrors.makeDir (h : s.Mirrors b es t m) (hl : s.Layout) (hid : s.Takes id) :
    ∃ es' t', onFiles .creating (s.dirPath id) FileOp.makeDir { s with tree := t } =
        .ok () { s with tree := t' } ∧ s.Mirrors b es' t' (m.update id fun e => e) := by
  obtain ⟨hnew, hold⟩ := h.stands.makeDir hid.name (hid.dir_fits hl h.base) hid.dir_steps
  cases hm : m.find? id with
  | none =>
    refine ⟨bind es id (some .empty), _, onFiles_ok (hnew (h.lookup_of_none hm)), ?_⟩
    refine h.bound (h.stands.bindEntry id _) (MemStore.ids_nodup_update h.ids id _) (fun k hk => ?_) ?_
    · rw [MemStore.find?_update, if_neg hk]
    · rw [MemStore.find?_update, if_pos rfl, hm]
      intro file
      unfold fileOf
      split_ifs <;> rfl
  | some e =>
    obtain ⟨fs, hfs, -⟩ := h.dir_of_some hm
    exact ⟨es, t, onFiles_ok (hold fs hfs), h.same hm fun _ => rfl⟩

/-- Putting a file in place. -/
lemma Mirrors.put (h : s.Mirrors b es t m) (hl : s.Layout) (hid : s.Takes id)
    (hfile : s.Owns file) (data : Bytes) :
    ∃ es' t', put id file data { s with tree := t } = .ok () { s with tree := t' } ∧
      s.Mirrors b es' t' (m.update id (s.setFile file (some data))) := by
  obtain ⟨es1, t1, hmake, h1⟩ := h.makeDir hl hid
  obtain ⟨hsteps, hslash⟩ := hid.file_steps hl hfile
  have hm1 : (m.update id fun e => e).find? id = some ((m.find? id).getD ⟨none, none⟩) := by
    rw [MemStore.find?_update, if_pos rfl]
  obtain ⟨fs, hfs, hfiles⟩ := h1.dir_of_some hm1
  have hwrite := h1.stands.writeFile hid.name (hl.files file hfile).2.2 (hid.file_fits hl h.base hfile)
    hsteps hslash hfs (fun u hu => ?_) data
  · have h2 := h1.setFile hl hfile hm1 hfs (some data)
    refine ⟨_, _, ?_, ?_, h2.stands, h2.names, MemStore.ids_nodup_update h.ids id _, fun k => ?_⟩
    · unfold DirStore.put
      exact (Op.bind_of_ok rfl _).trans ((Op.bind_of_ok hmake _).trans (onFiles_ok hwrite))
    · exact h.base
    · have hk := h2.holds k
      rw [MemStore.find?_update] at hk ⊢
      split_ifs at hk ⊢ with hkid
      · rw [hm1] at hk
        exact hk
      · rw [MemStore.find?_update, if_neg hkid] at hk
        exact hk
  · -- what is there under this name is a file
    rw [hfiles] at hu
    obtain ⟨data', -, rfl⟩ := Option.map_eq_some_iff.1 hu
    rfl

/-- Removing a file, which may be missing. -/
lemma Mirrors.removeFile (h : s.Mirrors b es t m) (hl : s.Layout) (hid : s.Takes id)
    (hfile : s.Owns file) (hm : m.find? id = some e) :
    ∃ es' t' a, onFilesIfThere .removing ((s.dirPath id).join file) FileOp.removeFile
        { s with tree := t } = .ok a { s with tree := t' } ∧
      s.Mirrors b es' t' (m.update id (s.setFile file none)) := by
  obtain ⟨hsteps, hslash⟩ := hid.file_steps hl hfile
  obtain ⟨fs, hfs, hfiles⟩ := h.dir_of_some hm
  have hremove := (h.stands.removeFile hid.name (hl.files file hfile).2.2
    (hid.file_fits hl h.base hfile) hsteps hslash).2 fs hfs
  cases hdata : s.fileOf e file with
  | none =>
    have hnone : fs.lookup file = none := by rw [hfiles, hdata]; rfl
    refine ⟨es, t, none, onFilesIfThere_missing (hremove.1 hnone), h.same hm fun g => ?_⟩
    rw [fileOf_setFile hl hfile]
    split_ifs with hg
    · rw [hg, hdata]
    · rfl
  | some data =>
    have hsome : fs.lookup file = some (.file data) := by rw [hfiles, hdata]; rfl
    exact ⟨_, _, some (), onFilesIfThere_ok (hremove.2 data hsome), h.setFile hl hfile hm hfs none⟩

/-- Removing an extension removes its two files and then its directory. -/
lemma remove_of_files (hid : s.Takes id) {u : DirTree} (h : (do
      let _ ← onFilesIfThere .removing (s.modulePath id) FileOp.removeFile
      let _ ← onFilesIfThere .removing (s.manifestPath id) FileOp.removeFile
      let _ ← onFilesIfThere .removing (s.dirPath id) FileOp.removeDir
      return () : Op DirStore Unit) { s with tree := t } = .ok () { s with tree := u }) :
    (Store.remove id : Op DirStore Unit) { s with tree := t } = .ok () { s with tree := u } := by
  refine (checkId_bind _).trans ?_
  rw [if_pos hid.plain]
  exact h

lemma Mirrors.ids_nodup_filter (h : s.Mirrors b es t m) (id : String) :
    ((m.entries.filter (·.1 ≠ id)).map (·.1)).Nodup :=
  h.ids.sublist (List.filter_sublist.map _)

/-- Nothing is removed of an extension that is not there. -/
lemma Mirrors.remove_absent (h : s.Mirrors b es t m) (hl : s.Layout) (hid : s.Takes id)
    (hm : m.find? id = none) :
    (Store.remove id : Op DirStore Unit) { s with tree := t } = .ok () { s with tree := t } ∧
      s.Mirrors b es t ⟨m.entries.filter (·.1 ≠ id)⟩ := by
  have hnone := h.lookup_of_none hm
  have hfile : ∀ file, s.Owns file → FileOp.removeFile ((s.dirPath id).join file) t =
      .error .notFound t := by
    intro file hfile
    obtain ⟨hsteps, hslash⟩ := hid.file_steps hl hfile
    exact (h.stands.removeFile hid.name (hl.files file hfile).2.2 (hid.file_fits hl h.base hfile)
      hsteps hslash).1 hnone
  have hdir := (h.stands.removeDir hid.name (hid.dir_fits hl h.base) hid.dir_steps).1 hnone
  refine ⟨remove_of_files hid ?_, h.base, h.stands, h.names, h.ids_nodup_filter id, fun k => ?_⟩
  · refine (Op.bind_of_ok (onFilesIfThere_missing (hfile _ (.inl rfl))) _).trans ?_
    refine (Op.bind_of_ok (onFilesIfThere_missing (hfile _ (.inr rfl))) _).trans ?_
    exact Op.bind_of_ok (onFilesIfThere_missing hdir) _
  · rw [MemStore.find?_filter]
    split_ifs with hk
    · rw [hk, hnone]
      trivial
    · exact h.holds k

/-- The directory of an extension is empty once its files are removed, and then it is removed, too. -/
lemma Mirrors.remove_present (h : s.Mirrors b es t m) (hl : s.Layout) (hid : s.Takes id)
    (hm : m.find? id = some e) :
    ∃ es' t', (Store.remove id : Op DirStore Unit) { s with tree := t } = .ok () { s with tree := t' } ∧
      s.Mirrors b es' t' ⟨m.entries.filter (·.1 ≠ id)⟩ := by
  obtain ⟨es1, t1, a1, hmodule, h1⟩ := h.removeFile hl hid (.inl rfl) hm
  have hm1 : (m.update id (s.setFile s.moduleFile none)).find? id =
      some (s.setFile s.moduleFile none e) := by
    rw [MemStore.find?_update, if_pos rfl, hm, Option.getD_some]
  obtain ⟨es2, t2, a2, hmanifest, h2⟩ := h1.removeFile hl hid (.inr rfl) hm1
  have hm2 : ((m.update id (s.setFile s.moduleFile none)).update id
      (s.setFile s.manifestFile none)).find? id =
      some (s.setFile s.manifestFile none (s.setFile s.moduleFile none e)) := by
    rw [MemStore.find?_update, if_pos rfl, hm1, Option.getD_some]
  -- nothing is left in the directory
  obtain ⟨fs, hfs, hfiles⟩ := h2.dir_of_some hm2
  have hempty : fs = [] := by
    refine List.eq_nil_iff_forall_not_mem.2 fun v hv => ?_
    have hlookup : fs.lookup v.1 = none := by
      rw [hfiles, fileOf_setFile hl (.inr rfl), fileOf_setFile hl (.inl rfl)]
      unfold fileOf
      split_ifs <;> rfl
    exact lookup_eq_none.1 hlookup (List.mem_map.2 ⟨v, hv, rfl⟩)
  subst hempty
  have hdir := (h2.stands.removeDir hid.name (hid.dir_fits hl h.base) hid.dir_steps).2 hfs
  refine ⟨_, _, remove_of_files hid ?_, h2.bound (h2.stands.bindEntry id none) (h.ids_nodup_filter id)
    (fun k hk => ?_) ?_⟩
  · refine (Op.bind_of_ok hmodule _).trans ((Op.bind_of_ok hmanifest _).trans ?_)
    exact Op.bind_of_ok (onFilesIfThere_ok hdir) _
  · rw [MemStore.find?_filter, if_neg hk, MemStore.find?_update, if_neg hk, MemStore.find?_update,
      if_neg hk]
  · rw [MemStore.find?_filter, if_pos rfl]
    trivial

/-- Removing an extension. -/
lemma Mirrors.remove (h : s.Mirrors b es t m) (hl : s.Layout) (hid : s.Takes id) :
    ∃ es' t', (Store.remove id : Op DirStore Unit) { s with tree := t } =
        .ok () { s with tree := t' } ∧
      s.Mirrors b es' t' ⟨m.entries.filter (·.1 ≠ id)⟩ := by
  cases hm : m.find? id with
  | none => exact ⟨es, t, h.remove_absent hl hid hm⟩
  | some e => exact h.remove_present hl hid hm

/-- What the path to a file of an extension leads to. -/
lemma Mirrors.find_file (h : s.Mirrors b es t m) (hl : s.Layout) (hid : s.Takes id)
    (hfile : s.Owns file) :
    t.find ((s.dirPath id).join file) =
      match (m.find? id).bind (s.fileOf · file) with
      | none => .error .notFound
      | some data => .ok (.file data) := by
  obtain ⟨hsteps, hslash⟩ := hid.file_steps hl hfile
  obtain ⟨hmissing, hthere⟩ := h.stands.find_file hid.name (hl.files file hfile).2.2
    (hid.file_fits hl h.base hfile) hsteps hslash
  cases hm : m.find? id with
  | none => exact hmissing (h.lookup_of_none hm)
  | some e =>
    obtain ⟨fs, hfs, hfiles⟩ := h.dir_of_some hm
    rw [hthere fs hfs, hfiles, Option.bind_some]
    cases s.fileOf e file <;> rfl

lemma Mirrors.openModule (h : s.Mirrors b es t m) (hl : s.Layout) (hid : s.Takes id) :
    (Store.openModule id : Op DirStore (Option Source)) { s with tree := t } =
      .ok (((m.find? id).bind (·.module)).map fun data => ⟨(s.modulePath id).text, .file data, []⟩)
        { s with tree := t } := by
  have hfind := h.find_file hl hid (.inl rfl)
  have hfileOf : (fun e => s.fileOf e s.moduleFile) = (·.module) := funext fun e => if_pos rfl
  rw [hfileOf] at hfind
  refine (checkId_bind _).trans ?_
  rw [if_pos hid.plain]
  cases hdata : (m.find? id).bind (·.module) with
  | none =>
    rw [hdata] at hfind
    exact onFilesIfThere_missing (openSource_failed hfind)
  | some data =>
    rw [hdata] at hfind
    exact onFilesIfThere_ok (openSource_found hfind)

lemma Mirrors.readManifest (h : s.Mirrors b es t m) (hl : s.Layout) (hid : s.Takes id) :
    (Store.readManifest id : Op DirStore (Option Bytes)) { s with tree := t } =
      .ok ((m.find? id).bind (·.manifest)) { s with tree := t } := by
  have hfind := h.find_file hl hid (.inr rfl)
  have hfileOf : (fun e => s.fileOf e s.manifestFile) = (·.manifest) := by
    funext e
    unfold fileOf
    rw [if_neg hl.distinct.symm, if_pos rfl]
  rw [hfileOf] at hfind
  refine (checkId_bind _).trans ?_
  rw [if_pos hid.plain]
  cases hdata : (m.find? id).bind (·.manifest) with
  | none =>
    rw [hdata] at hfind
    exact onFilesIfThere_missing (readFile_failed hfind)
  | some data =>
    rw [hdata] at hfind
    exact onFilesIfThere_ok (readFile_found hfind)

/-- The list leaves out what begins with a dot. -/
lemma Mirrors.list (h : s.Mirrors b es t m) :
    (Store.list : Op DirStore (List String)) { s with tree := t } =
      .ok ((sortIds (m.entries.map (·.1))).filter fun id => !id.startsWith ".")
        { s with tree := t } := by
  -- every name in the base directory is that of an extension, and the other way round
  have hdirs : es.filter (·.2.isDir) = es := by
    refine List.filter_eq_self.2 fun v hv => ?_
    have hlookup : es.lookup v.1 = some v.2 := lookup_of_mem h.names hv
    cases hm : m.find? v.1 with
    | none =>
      rw [h.lookup_of_none hm] at hlookup
      cases hlookup
    | some e =>
      obtain ⟨fs, hfs, -⟩ := h.dir_of_some hm
      rw [hfs] at hlookup
      rw [← Option.some_inj.1 hlookup]
      rfl
  have hperm : (es.map (·.1)).Perm (m.entries.map (·.1)) := by
    refine (List.perm_ext_iff_of_nodup h.names h.ids).2 fun id => ?_
    rw [← not_iff_not, ← lookup_eq_none, ← lookup_eq_none]
    refine ⟨fun hes => ?_, h.lookup_of_none⟩
    cases hm : m.find? id with
    | none => exact hm
    | some e =>
      obtain ⟨fs, hfs, -⟩ := h.dir_of_some hm
      rw [hfs] at hes
      cases hes
  have hlist := h.stands.listDirs h.base rfl
  rw [hdirs] at hlist
  rw [← sortIds_perm hperm, ← sortIds_filter]
  exact Op.bind_of_ok (Op.bind_of_ok rfl _ |>.trans (onFiles_ok hlist)) _

/-! ### Requests -/

/-- **One request** is answered alike, and leaves the stores alike. -/
lemma Mirrors.perform (h : s.Mirrors b es t m) (hl : s.Layout) {r : StoreRequest}
    (hr : ∀ id, r.id? = some id → s.Takes id) :
    ∃ a m' es' t', r.perform m = .ok a m' ∧
      r.perform { s with tree := t } = .ok a.undotted { s with tree := t' } ∧
      s.Mirrors b es' t' m' ∧ ∀ id, m'.contains id = r.installs id (m.contains id) := by
  cases r with
  | prepare id =>
    obtain ⟨es', t', hmake, h'⟩ := h.makeDir hl (hr id rfl)
    have hprepare : (Store.prepare id : Op DirStore Unit) { s with tree := t } =
        .ok () { s with tree := t' } := by
      refine (checkId_bind _).trans ?_
      rw [if_pos (hr id rfl).plain]
      exact hmake
    exact ⟨_, _, es', t', rfl, Op.bind_of_ok hprepare _, h', m.contains_update id _⟩
  | install id data =>
    obtain ⟨es', t', hput, h'⟩ := h.put hl (hr id rfl) (.inl rfl) data
    have hset : s.setFile s.moduleFile (some data) = fun e => { e with module := some data } :=
      funext fun e => if_pos rfl
    rw [hset] at h'
    have hinstall : (Store.install id data : Op DirStore Unit) { s with tree := t } =
        .ok () { s with tree := t' } := (Op.bind_of_ok rfl _).trans hput
    exact ⟨_, _, es', t', rfl, Op.bind_of_ok hinstall _, h', m.contains_update id _⟩
  | setManifest id data =>
    obtain ⟨es', t', hput, h'⟩ := h.put hl (hr id rfl) (.inr rfl) data
    have hset : s.setFile s.manifestFile (some data) = fun e => { e with manifest := some data } :=
      funext fun e => if_neg hl.distinct.symm
    rw [hset] at h'
    have hinstall : (Store.setManifest id data : Op DirStore Unit) { s with tree := t } =
        .ok () { s with tree := t' } := (Op.bind_of_ok rfl _).trans hput
    exact ⟨_, _, es', t', rfl, Op.bind_of_ok hinstall _, h', m.contains_update id _⟩
  | remove id =>
    obtain ⟨es', t', hremove, h'⟩ := h.remove hl (hr id rfl)
    exact ⟨_, _, es', t', rfl, Op.bind_of_ok hremove _, h', m.contains_filter id⟩
  | list => exact ⟨_, m, es, t, rfl, Op.bind_of_ok h.list _, h, fun _ => rfl⟩
  | openModule id =>
    refine ⟨_, m, es, t, rfl, (Op.bind_of_ok (h.openModule hl (hr id rfl)) _).trans ?_, h,
      fun _ => rfl⟩
    cases (m.find? id).bind (·.module) <;> rfl
  | readManifest id =>
    exact ⟨_, m, es, t, rfl, Op.bind_of_ok (h.readManifest hl (hr id rfl)) _, h, fun _ => rfl⟩

/-- So is a sequence of requests. -/
lemma Mirrors.performAll (h : s.Mirrors b es t m) (hl : s.Layout) {rs : List StoreRequest}
    (hrs : ∀ r ∈ rs, ∀ id, r.id? = some id → s.Takes id) :
    ∃ as m' es' t', StoreRequest.performAll rs m = .ok as m' ∧
      StoreRequest.performAll rs { s with tree := t } =
        .ok (as.map StoreAnswer.undotted) { s with tree := t' } ∧
      s.Mirrors b es' t' m' ∧
      ∀ id, m'.contains id = rs.foldl (fun before r => r.installs id before) (m.contains id) := by
  induction rs generalizing m es t with
  | nil => exact ⟨[], m, es, t, rfl, rfl, h, fun _ => rfl⟩
  | cons r rs ih =>
    obtain ⟨a, m1, es1, t1, hmem, hdir, h1, hthere1⟩ := h.perform hl (hrs r List.mem_cons_self)
    obtain ⟨as, m2, es2, t2, hmem2, hdir2, h2, hthere2⟩ :=
      ih h1 fun r hr => hrs r (List.mem_cons_of_mem _ hr)
    refine ⟨a :: as, m2, es2, t2, StoreRequest.performAll_cons hmem hmem2,
      StoreRequest.performAll_cons hdir hdir2, h2, fun id => ?_⟩
    rw [hthere2, hthere1]
    rfl

/-- Of an extension that has been removed, nothing is left. -/
lemma Mirrors.removed (h : s.Mirrors b es t m) (hl : s.Layout) (hid : s.Takes id) :
    ∃ ids t', StoreRequest.performAll [.remove id, .openModule id, .readManifest id, .list]
        { s with tree := t } =
        .ok [.done, .module none, .manifest none, .ids ids] { s with tree := t' } ∧ id ∉ ids := by
  obtain ⟨es1, t1, hremove, h1⟩ := h.remove hl hid
  have hgone : (MemStore.mk (m.entries.filter (·.1 ≠ id))).find? id = none := by
    rw [MemStore.find?_filter, if_pos rfl]
  have hmodule := h1.openModule hl hid
  have hmanifest := h1.readManifest hl hid
  rw [hgone] at hmodule hmanifest
  have hlist : StoreRequest.performAll [.list] { s with tree := t1 } = _ :=
    StoreRequest.performAll_cons (Op.bind_of_ok h1.list _) rfl
  refine ⟨_, t1, StoreRequest.performAll_cons (Op.bind_of_ok hremove _) (StoreRequest.performAll_cons
    (Op.bind_of_ok hmodule _) (StoreRequest.performAll_cons (Op.bind_of_ok hmanifest _) hlist)), ?_⟩
  rw [List.mem_filter, mem_sortIds, MemStore.mem_ids, MemStore.contains, hgone]
  simp

/-- An empty base directory mirrors an empty memory. -/
lemma mirrors_empty (hfresh : s.tree.find s.base = .ok .empty) :
    ∃ b, s.Mirrors b [] s.tree .empty := by
  obtain ⟨hfits, b, hfollow, hb⟩ := find_ok hfresh
  exact ⟨b, hfits, stands_empty hfollow hb, List.nodup_nil, List.nodup_nil, fun _ => trivial⟩

/-- **The stores agree.** Starting with nothing, requests that name extensions which a directory can
be named after succeed in both stores, whatever their order, and are answered alike, but for the list
of the store in the tree, which leaves out identifiers that begin with a dot. The list is in order
and has those identifiers once that have been prepared or given a file since they were last removed.
Removing an extension takes its module, its manifest and its place in the list. -/
theorem answers_agree (hl : s.Layout) (hfresh : s.tree.find s.base = .ok .empty)
    (rs : List StoreRequest) (hrs : ∀ r ∈ rs, ∀ id, r.id? = some id → s.Takes id) :
    ∃ as m t, StoreRequest.performAll rs MemStore.empty = .ok as m ∧
      StoreRequest.performAll rs s =
        .ok (as.map StoreAnswer.undotted) { s with tree := t } ∧
      (∃ ids, StoreRequest.list.perform m = .ok (.ids ids) m ∧
        StoreRequest.list.perform { s with tree := t } =
          .ok (.ids (ids.filter fun id => !id.startsWith ".")) { s with tree := t } ∧
        ids.Pairwise (· < ·) ∧
        ∀ id, id ∈ ids ↔ rs.foldl (fun before r => r.installs id before) false = true) ∧
      ∀ id, s.Takes id → ∃ ids t',
        StoreRequest.performAll [.remove id, .openModule id, .readManifest id, .list]
          { s with tree := t } =
          .ok [.done, .module none, .manifest none, .ids ids] { s with tree := t' } ∧
        id ∉ ids := by
  obtain ⟨b, hstart⟩ := mirrors_empty hfresh
  obtain ⟨as, m, es, t, hmem, hdir, h, hthere⟩ := hstart.performAll hl hrs
  refine ⟨as, m, t, hmem, hdir, ⟨_, rfl, Op.bind_of_ok h.list _, ?_, fun id => ?_⟩, fun id hid => ?_⟩
  · exact sortIds_strict h.ids
  · rw [mem_sortIds, m.mem_ids, hthere]
    rfl
  · exact h.removed hl hid

/-! ### A vacant store -/

/-- A store over an empty base directory. -/
def vacant : DirStore where
  tree := .dir [("apps", .empty)]
  base := .ofString "apps"
  moduleFile := "app.llext"
  manifestFile := "manifest.json"
  maxIdLen := 32

lemma vacant_layout : vacant.Layout := by
  refine ⟨?_, by decide⟩
  rintro _ (rfl | rfl)
  · refine ⟨?_, by decide, by decide⟩
    unfold Path.IsName
    decide
  · refine ⟨?_, by decide, by decide⟩
    unfold Path.IsName
    decide

lemma vacant_takes {id : String} (hid : id = ".x" ∨ id = "blink") : vacant.Takes id := by
  rcases hid with rfl | rfl
  · refine ⟨by decide, by decide, ?_⟩
    rintro _ (rfl | rfl) <;> decide
  · refine ⟨by decide, by decide, ?_⟩
    rintro _ (rfl | rfl) <;> decide

/-- An extension is installed, removed and gone. -/
theorem answers_agree_vacant :
    ∃ as m t, StoreRequest.performAll [.install "blink" #[1, 2]] MemStore.empty = .ok as m ∧
      StoreRequest.performAll [.install "blink" #[1, 2]] vacant =
        .ok (as.map StoreAnswer.undotted) { vacant with tree := t } ∧
      ∃ ids t', StoreRequest.performAll
        [.remove "blink", .openModule "blink", .readManifest "blink", .list]
          { vacant with tree := t } =
          .ok [.done, .module none, .manifest none, .ids ids] { vacant with tree := t' } ∧
        "blink" ∉ ids := by
  have hblink : vacant.Takes "blink" := vacant_takes (.inr rfl)
  obtain ⟨as, m, t, hmem, hdir, -, hremoved⟩ := answers_agree vacant_layout (by rfl)
    [.install "blink" #[1, 2]] (by
      intro r hr id hid
      rw [List.mem_singleton.1 hr] at hid
      cases hid
      exact hblink)
  exact ⟨as, m, t, hmem, hdir, hremoved "blink" hblink⟩

/-- A store that has one name for modules and for manifests. -/
def merged : DirStore := { vacant with manifestFile := "app.llext" }

lemma merged_reads_module :
    ∃ s, StoreRequest.performAll [.install "blink" #[1, 2], .readManifest "blink"] merged =
      .ok [.done, .manifest (some #[1, 2])] s := by
  have hmake : FileOp.makeDir (merged.dirPath "blink") merged.tree =
      .ok () (.dir [("apps", .dir [("blink", .empty)])]) := rfl
  have hwrite : FileOp.writeFile ((merged.dirPath "blink").join "app.llext") #[1, 2]
      (.dir [("apps", .dir [("blink", .empty)])]) =
      .ok () (.dir [("apps", .dir [("blink", .dir [("app.llext", .file #[1, 2])])])]) := rfl
  have hput : put "blink" "app.llext" #[1, 2] merged = .ok () { merged with
      tree := .dir [("apps", .dir [("blink", .dir [("app.llext", .file #[1, 2])])])] } :=
    (Op.bind_of_ok rfl _).trans
      ((Op.bind_of_ok (onFiles_ok (s := merged) hmake) _).trans (onFiles_ok (s := merged) hwrite))
  have hinstall : (Store.install "blink" #[1, 2] : Op DirStore Unit) merged = _ :=
    (Op.bind_of_ok rfl _).trans hput
  have hread : StoreRequest.performAll [.readManifest "blink"] { merged with
      tree := .dir [("apps", .dir [("blink", .dir [("app.llext", .file #[1, 2])])])] } =
      .ok [.manifest (some #[1, 2])] _ := rfl
  exact ⟨_, StoreRequest.performAll_cons (Op.bind_of_ok hinstall _) hread⟩

/-- The identifier `.x` is accepted, and only the store in memory lists it. Where one name serves for
modules and manifests, a module is read as a manifest. -/
theorem dotted_unlisted :
    vacant.Takes ".x" ∧ vacant.tree.find vacant.base = .ok .empty ∧
      (∃ m, StoreRequest.performAll [.prepare ".x", .list] MemStore.empty =
        .ok [.done, .ids [".x"]] m) ∧
      (∃ s, StoreRequest.performAll [.prepare ".x", .list] vacant = .ok [.done, .ids []] s) ∧
      (∃ m, StoreRequest.performAll [.install "blink" #[1, 2], .readManifest "blink"]
        MemStore.empty = .ok [.done, .manifest none] m) ∧
      ∃ s, StoreRequest.performAll [.install "blink" #[1, 2], .readManifest "blink"] merged =
        .ok [.done, .manifest (some #[1, 2])] s := by
  have htakes : vacant.Takes ".x" := vacant_takes (.inl rfl)
  have hids : ∀ r ∈ [StoreRequest.prepare ".x", .list], ∀ id, r.id? = some id →
      vacant.Takes id := by
    intro r hr id hid
    rw [List.mem_pair] at hr
    rcases hr with rfl | rfl
    · cases hid
      exact htakes
    · cases hid
  obtain ⟨b, hempty⟩ := mirrors_empty (s := vacant) (by rfl)
  obtain ⟨as, m, es, t, hmem, hdir, -⟩ := hempty.performAll vacant_layout hids
  have hlist : StoreRequest.performAll [.prepare ".x", .list] MemStore.empty =
      .ok [.done, .ids (sortIds [".x"])] ⟨[(".x", ⟨none, none⟩)]⟩ := rfl
  have hone : sortIds [".x"] = [".x"] := by simp [sortIds]
  rw [hone] at hlist
  rw [hlist] at hmem
  cases hmem
  have hundotted : [".x"].filter (fun id => !id.startsWith ".") = [] := by simp
  have hdir' : StoreRequest.performAll [.prepare ".x", .list] vacant =
      .ok [.done, .ids ([".x"].filter fun id => !id.startsWith ".")] { vacant with tree := t } := hdir
  rw [hundotted] at hdir'
  exact ⟨htakes, rfl, ⟨_, hlist⟩, ⟨_, hdir'⟩, ⟨_, rfl⟩, merged_reads_module⟩

end DirStore

end FlashLink
