import FlashLink.Proofs.Containment

/-!
A base directory with a directory for each name in it, and files in those. The path to the base leads
there whatever happens inside it, so that what an operation on one of these names does can be said with
the entries of the base and of the directory of that name alone.
-/

namespace FlashLink

/-! ### Paths that operations take -/

namespace Path

/-- Neither too long nor with a zero in it. -/
def Fits (y : Path) : Prop := '\x00' ∉ y.text.toList ∧ y.text.utf8ByteSize ≤ DirTree.maxPath

lemma join_text {n : String} (h : IsName n) (y : Path) :
    (y.join n).text = if y.slash then y.text ++ n else y.text ++ "/" ++ n := by
  have hhead : ¬ n.toList.head? = some '/' := fun hh => h.2.2.2 (List.mem_of_head? hh)
  unfold join
  rw [if_neg hhead]

/-- Every part of a path that is not too long is not too long. -/
lemma size_le_join {n : String} (h : IsName n) (y : Path) :
    y.text.utf8ByteSize ≤ (y.join n).text.utf8ByteSize := by
  rw [join_text h]
  split_ifs
  · rw [String.utf8ByteSize_append]
    omega
  · rw [String.utf8ByteSize_append, String.utf8ByteSize_append]
    omega

lemma zero_notMem_join {n : String} (h : IsName n) {y : Path} (hy : '\x00' ∉ y.text.toList)
    (hn : '\x00' ∉ n.toList) : '\x00' ∉ (y.join n).text.toList := by
  rw [join_text h]
  split_ifs
  · simp [hy, hn]
  · simp [hy, hn]

end Path

namespace DirTree

variable {t u : DirTree} {ss : List PathStep} {b p : List String} {es fs : List (String × DirTree)}
  {n f : String} {y : Path}

lemma stepsOf_fits (h : y.Fits) : stepsOf y = .ok y.steps := by
  unfold stepsOf
  rw [if_neg h.1, if_pos h.2]

/-- What can be found is at the end of a path that fits. -/
lemma find_ok (h : t.find y = .ok u) :
    y.Fits ∧ ∃ p, t.follow [] y.steps = .ok p ∧ t.get? p = some u := by
  unfold find stepsOf at h
  split_ifs at h with hzero hlen
  · cases h
  · refine ⟨⟨hzero, hlen⟩, ?_⟩
    simp only [Bind.bind, Except.bind] at h
    unfold reach at h
    cases hp : t.follow [] y.steps with
    | error why => rw [hp] at h; cases h
    | ok p =>
      rw [hp] at h
      simp only [Bind.bind, Except.bind] at h
      cases hu : t.get? p with
      | none => rw [hu] at h; cases h
      | some v =>
        rw [hu] at h
        dsimp only at h
        split_ifs at h
        cases h
        exact ⟨p, rfl, hu⟩
  · cases h

lemma openSource_found {data : Bytes} (h : t.find y = .ok (file data)) :
    FileOp.openSource y t = .ok ⟨y.text, .file data, []⟩ t := by
  unfold FileOp.openSource
  rw [FileOp.look_bind, h]
  rfl

lemma openSource_failed {why : FileFault} (h : t.find y = .error why) :
    FileOp.openSource y t = .error why t := by
  unfold FileOp.openSource
  rw [FileOp.look_bind, h]

lemma readFile_found {data : Bytes} (h : t.find y = .ok (file data)) :
    FileOp.readFile y t = .ok data t := by
  unfold FileOp.readFile
  rw [FileOp.look_bind, h]
  rfl

lemma readFile_failed {why : FileFault} (h : t.find y = .error why) :
    FileOp.readFile y t = .error why t := by
  unfold FileOp.readFile
  rw [FileOp.look_bind, h]

/-! ### A base directory -/

/-- Some steps lead to the directory at `b`, with these entries, and not through any of them. -/
structure Stands (ss : List PathStep) (b : List String) (es : List (String × DirTree))
    (t : DirTree) : Prop where
  here : t.get? b = some (dir es)
  way : ∀ u : DirTree, (∀ q v, (∀ n, ¬ b ++ [n] <+: q) → t.look q = some v → u.look q = some v) →
    u.follow [] ss = .ok b

/-- Nothing leads through an empty directory. -/
lemma stands_empty (hfollow : t.follow [] ss = .ok b) (hb : t.get? b = some empty) :
    Stands ss b [] t := by
  refine ⟨hb, fun u hu => follow_mono (fun q v hq => hu q v (fun n hn => ?_) hq) hfollow⟩
  obtain ⟨r, rfl⟩ := hn
  have hnone : empty.look ([n] ++ r) = none := leaf_empty _ (by simp)
  rw [List.append_assoc, look_append hb, hnone] at hq
  cases hq

namespace Stands

lemma follow (h : Stands ss b es t) : t.follow [] ss = .ok b := h.way t fun _ _ _ hq => hq

/-- A change inside. -/
lemma setEntry (h : Stands ss b es t) (hp : t.get? p = some (dir fs)) (hb : b <+: p) (n : String)
    (v : Option DirTree) {es' : List (String × DirTree)}
    (hes' : (t.setEntry n v p).get? b = some (dir es')) : Stands ss b es' (t.setEntry n v p) := by
  refine ⟨hes', fun u hu => h.way u fun q w hq hw => hu q w hq ?_⟩
  rw [look_setEntry hp, if_neg, hw]
  intro hpre
  obtain ⟨r, rfl⟩ := hb
  rcases r with _ | ⟨m, r⟩
  · exact hq n (by simpa using hpre)
  · exact hq m (List.IsPrefix.trans (by simp) hpre)

/-- Binding a name. -/
lemma bindEntry (h : Stands ss b es t) (n : String) (v : Option DirTree) :
    Stands ss b (bind es n v) (t.setEntry n v b) :=
  h.setEntry h.here (List.prefix_refl b) n v (get?_setEntry_self h.here n v)

lemma get?_entry (h : Stands ss b es t) (n : String) : t.get? (b ++ [n]) = es.lookup n := by
  rw [get?_append, h.here, Option.bind_some, get?_dir_cons]
  cases es.lookup n <;> simp

/-- Binding a name in the directory of a name. -/
lemma bindFile (h : Stands ss b es t) (hn : es.lookup n = some (dir fs)) (f : String)
    (v : Option DirTree) :
    Stands ss b (bind es n (some (dir (bind fs f v)))) (t.setEntry f v (b ++ [n])) := by
  have hroom : t.get? (b ++ [n]) = some (dir fs) := (h.get?_entry n).trans hn
  refine h.setEntry hroom (List.prefix_append _ _) f v ?_
  rw [get?_setEntry_above h.here]
  simp [DirTree.setEntry, hn]

/-! ### What operations meet -/

lemma follow_entry (h : Stands ss b es t) (hn : n.utf8ByteSize ≤ maxName) :
    t.follow [] (ss ++ [.into n]) =
      if (es.lookup n).isSome then .ok (b ++ [n]) else .error .notFound := by
  rw [follow_append, h.follow]
  change t.follow b [.into n] = _
  rw [follow_into, look_eq_dir.2 ⟨es, h.here⟩, look_entry h.here]
  dsimp only
  rw [if_pos hn, Option.isSome_map]

/-- The target of a path to a name. -/
lemma target_entry (h : Stands ss b es t) (hn : n.utf8ByteSize ≤ maxName) (hy : y.Fits)
    (hsteps : y.steps = ss ++ [.into n]) : t.target y = .ok (.entry b n (es.lookup n)) := by
  unfold target targetOf
  rw [stepsOf_fits hy]
  simp only [Bind.bind, Except.bind, hsteps, List.dropLast_concat, List.getLast?_concat, h.follow,
    entries_eq_ok.2 h.here, lookUp, if_pos hn]
  rfl

/-- The target of a path to a file in the directory of a name. -/
lemma target_file (h : Stands ss b es t) (hn : n.utf8ByteSize ≤ maxName)
    (hf : f.utf8ByteSize ≤ maxName) (hy : y.Fits)
    (hsteps : y.steps = ss ++ [.into n] ++ [.into f]) :
    (es.lookup n = none → t.target y = .error .notFound) ∧
      ∀ fs, es.lookup n = some (dir fs) → t.target y = .ok (.entry (b ++ [n]) f (fs.lookup f)) := by
  unfold target targetOf
  rw [stepsOf_fits hy]
  simp only [Bind.bind, Except.bind, hsteps, List.dropLast_concat, List.getLast?_concat,
    h.follow_entry hn]
  refine ⟨fun hnone => ?_, fun fs hfs => ?_⟩
  · rw [hnone]
    rfl
  · have hroom : t.entries (b ++ [n]) = .ok fs := entries_eq_ok.2 ((h.get?_entry n).trans hfs)
    simp only [hfs, Option.isSome_some, if_true, hroom, lookUp, if_pos hf]
    rfl

/-- What a path to a file in the directory of a name leads to. -/
lemma find_file (h : Stands ss b es t) (hn : n.utf8ByteSize ≤ maxName)
    (hf : f.utf8ByteSize ≤ maxName) (hy : y.Fits)
    (hsteps : y.steps = ss ++ [.into n] ++ [.into f]) (hslash : y.slash = false) :
    (es.lookup n = none → t.find y = .error .notFound) ∧
      ∀ fs, es.lookup n = some (dir fs) → t.find y =
        match fs.lookup f with
        | none => .error .notFound
        | some u => .ok u := by
  unfold find reach
  rw [stepsOf_fits hy, hslash]
  simp only [Bind.bind, Except.bind, hsteps, follow_append _ _ (ss ++ [.into n]),
    h.follow_entry hn]
  refine ⟨fun hnone => ?_, fun fs hfs => ?_⟩
  · rw [hnone]
    rfl
  · have hroom : t.get? (b ++ [n]) = some (dir fs) := (h.get?_entry n).trans hfs
    simp only [hfs, Option.isSome_some, if_true]
    rw [follow_into, look_eq_dir.2 ⟨fs, hroom⟩, look_entry hroom]
    dsimp only
    rw [if_pos hf]
    cases hu : fs.lookup f with
    | none => rfl
    | some u =>
      have hfile : t.get? (b ++ [n] ++ [f]) = some u := by
        rw [get?_append, hroom]
        simp [hu]
      dsimp only [Option.map_some, Option.isSome_some]
      rw [if_pos rfl]
      dsimp only
      rw [hfile]
      rfl

/-! ### Operations -/

/-- Creating the directory of a name, which may be there. -/
lemma makeDir (h : Stands ss b es t) (hn : n.utf8ByteSize ≤ maxName) (hy : y.Fits)
    (hsteps : y.steps = ss ++ [.into n]) :
    (es.lookup n = none → FileOp.makeDir y t = .ok () (t.setEntry n (some empty) b)) ∧
      ∀ fs, es.lookup n = some (dir fs) → FileOp.makeDir y t = .ok () t := by
  have htarget : t.targetOf y.steps = .ok (.entry b n (es.lookup n)) := by
    have := h.target_entry hn hy hsteps
    unfold target at this
    rwa [stepsOf_fits hy] at this
  have hmake : FileOp.makeDir y t = FileOp.makeDirs y.steps t := by
    unfold FileOp.makeDir
    rw [FileOp.look_bind, stepsOf_fits hy]
  rw [hmake]
  unfold FileOp.makeDirs
  refine ⟨fun hnone => ?_, fun fs hfs => ?_⟩
  · have hat : FileOp.makeDirAt y.steps t = .ok () (t.setEntry n (some empty) b) := by
      unfold FileOp.makeDirAt
      rw [FileOp.look_bind, htarget, hnone]
      rfl
    unfold FileOp.ensureDir
    rw [hat]
  · have hat : FileOp.makeDirAt y.steps t = .error .alreadyThere t := by
      unfold FileOp.makeDirAt
      rw [FileOp.look_bind, htarget, hfs]
      rfl
    have hreach : t.reach y.steps = .ok (dir fs) := by
      unfold reach
      rw [hsteps, h.follow_entry hn, hfs]
      simp [Bind.bind, Except.bind, h.get?_entry, hfs]
    unfold FileOp.ensureDir
    rw [hat]
    dsimp only
    rw [hreach]

/-- Writing a file, which may be there. -/
lemma writeFile (h : Stands ss b es t) (hn : n.utf8ByteSize ≤ maxName)
    (hf : f.utf8ByteSize ≤ maxName) (hy : y.Fits)
    (hsteps : y.steps = ss ++ [.into n] ++ [.into f]) (hslash : y.slash = false)
    (hfs : es.lookup n = some (dir fs)) (hplain : ∀ u, fs.lookup f = some u → u.isDir = false)
    (data : Bytes) :
    FileOp.writeFile y data t = .ok () (t.setEntry f (some (file data)) (b ++ [n])) := by
  unfold FileOp.writeFile
  rw [FileOp.look_bind, (h.target_file hn hf hy hsteps).2 fs hfs]
  cases hu : fs.lookup f with
  | none => simp only [hslash]; rfl
  | some u =>
    cases u with
    | dir gs => cases hplain _ hu
    | file old => simp only [hslash]; rfl

/-- Removing a file, if it is there. -/
lemma removeFile (h : Stands ss b es t) (hn : n.utf8ByteSize ≤ maxName)
    (hf : f.utf8ByteSize ≤ maxName) (hy : y.Fits)
    (hsteps : y.steps = ss ++ [.into n] ++ [.into f]) (hslash : y.slash = false) :
    (es.lookup n = none → FileOp.removeFile y t = .error .notFound t) ∧
      ∀ fs, es.lookup n = some (dir fs) →
        (fs.lookup f = none → FileOp.removeFile y t = .error .notFound t) ∧
        ∀ data, fs.lookup f = some (file data) →
          FileOp.removeFile y t = .ok () (t.setEntry f none (b ++ [n])) := by
  obtain ⟨hmissing, hthere⟩ := h.target_file hn hf hy hsteps
  unfold FileOp.removeFile
  rw [FileOp.look_bind]
  refine ⟨fun hnone => ?_, fun fs hfs => ?_⟩
  · rw [hmissing hnone]
  · rw [hthere fs hfs]
    refine ⟨fun hnone => ?_, fun data hdata => ?_⟩
    · rw [hnone]
      rfl
    · rw [hdata]
      simp only [hslash]
      rfl

/-- Removing the directory of a name, if it is there and empty. -/
lemma removeDir (h : Stands ss b es t) (hn : n.utf8ByteSize ≤ maxName) (hy : y.Fits)
    (hsteps : y.steps = ss ++ [.into n]) :
    (es.lookup n = none → FileOp.removeDir y t = .error .notFound t) ∧
      (es.lookup n = some empty → FileOp.removeDir y t = .ok () (t.setEntry n none b)) := by
  unfold FileOp.removeDir
  rw [FileOp.look_bind, h.target_entry hn hy hsteps]
  refine ⟨fun hnone => ?_, fun hempty => ?_⟩
  · rw [hnone]
    rfl
  · rw [hempty]
    rfl

/-- Listing the directories. -/
lemma listDirs (h : Stands ss b es t) (hy : y.Fits) (hsteps : y.steps = ss) :
    FileOp.listDirs y t = .ok ((es.filter (·.2.isDir)).map (·.1)) t := by
  have hfind : t.find y = .ok (dir es) := by
    unfold find reach
    rw [stepsOf_fits hy]
    simp only [Bind.bind, Except.bind, hsteps, h.follow, h.here]
    rw [if_neg fun hfile => hfile.2 rfl]
    rfl
  unfold FileOp.listDirs
  rw [FileOp.look_bind, hfind]
  rfl

end Stands

end DirTree

end FlashLink
