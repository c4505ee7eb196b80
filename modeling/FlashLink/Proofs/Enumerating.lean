import FlashLink.Proofs.Managing

/-!
Enumerating the installed extensions.

Enumeration takes the identifiers in the order in which the store lists them and does with each what hot
loading does, though it asks in another order and goes on after a failure. So it leaves the manager as
the calls of hot loading leave it, and its summary counts how these calls end. An earlier call changes
what a later one finds: room for extensions, free flash, faults that are still armed.
-/

namespace FlashLink

open Act

namespace Manager

/-- What becomes of an identifier that is to be hot loaded. -/
inductive Fate where
  /-- The manager's own check refuses it. -/
  | badId
  | resident
  /-- There is no room for another extension. -/
  | full
  /-- There is no module file. -/
  | noModule
  /-- Looking for the module, or anything after that, failed. -/
  | failed
  | loaded
deriving DecidableEq

namespace Fate

/-- The identifier is passed over before there is a module to load. -/
def isSkipped : Fate → Bool
  | badId | full | noModule => true
  | resident | failed | loaded => false

end Fate

end Manager

/-- The summary after one more identifier. Resident ones are not counted. -/
def InitSummary.count (sum : InitSummary) : Manager.Fate → InitSummary
  | .loaded => { sum with loaded := sum.loaded + 1 }
  | .failed => { sum with failed := sum.failed + 1 }
  | .badId | .full | .noModule => { sum with skipped := sum.skipped + 1 }
  | .resident => sum

def InitSummary.total (sum : InitSummary) : Nat := sum.loaded + sum.failed + sum.skipped

lemma InitSummary.total_count (sum : InitSummary) {f : Manager.Fate} (hf : f ≠ .resident) :
    (sum.count f).total = sum.total + 1 := by
  unfold total
  cases f with
  | resident => exact (hf rfl).elim
  | loaded | failed | badId | full | noModule => simp only [count]; omega

namespace Manager

variable {σ : Type} {m m' : Manager σ} {id : String}

/-! ### Who joins -/

/-- No extension has come, and none has gone. -/
def Stays (m m' : Manager σ) : Prop := m'.config = m.config ∧ m'.extensions = m.extensions

/-- One extension of this identifier has joined. -/
def Joins (id : String) (m m' : Manager σ) : Prop :=
  m'.config = m.config ∧ ∃ x : Extension, x.id = id ∧ m'.extensions = m.extensions ++ [x]

lemma Joins.isLoaded (h : Joins id m m') : m'.isLoaded id = true := by
  obtain ⟨-, x, hid, hx⟩ := h
  rw [Manager.isLoaded, find?, hx, List.find?_isSome]
  exact ⟨x, List.mem_append_right _ (List.mem_singleton_self x), beq_iff_eq.2 hid⟩

/-- An action on a part of the manager without its settings and list leaves both. -/
lemma zoom_stays {τ α : Type} (part : Part (Manager σ) τ) (x : Act τ α) (m : Manager σ)
    (hpart : ∀ t, ((part m).2 t).config = m.config ∧ ((part m).2 t).extensions = m.extensions) :
    Sat (zoom part x) m (fun _ => Stays m) fun _ => Stays m :=
  (zoom_keeps x m (fun m => (m.config, m.extensions))
    fun t => Prod.ext (hpart t).1 (hpart t).2).mono (fun _ _ => Prod.mk.inj) fun _ _ => Prod.mk.inj

lemma place_stays (id entry : String) (source : Source) (m : Manager σ) :
    Sat (place id entry source) m (fun _ => Stays m) fun _ => Stays m := by
  unfold place
  refine Sat.get_bind (Sat.get_bind ?_)
  have hload := zoom_stays (loadPart source) (Loader.load id m.exports.lookup entry) m
    fun _ => ⟨rfl, rfl⟩
  refine hload.attempt_bind (fun _ _ h => h) fun e t h => ?_
  have hback := zoom_stays contextPart (Context.rollback m.context.checkpoint) t fun _ => ⟨rfl, rfl⟩
  exact hback.bind (fun _ _ h' => ⟨h'.1.trans h.1, h'.2.trans h.2⟩)
    fun _ _ h' => ⟨h'.1.trans h.1, h'.2.trans h.2⟩

/-- Adopting a module fails before anything has come of it, or lets one extension join. -/
lemma adopt_joins (id entry : String) (source : Source) (manifest : Option Manifest) (m : Manager σ) :
    Sat (adopt id entry source manifest) m (fun found m' => found = true ∧ Joins id m m')
      fun _ m' => Stays m m' ∨ Joins id m m' := by
  unfold adopt
  refine (place_stays id entry source m).bind ?_ fun _ _ h => .inl h
  rintro image m₁ ⟨hconfig, hextensions⟩
  refine Sat.bind (makeResident_sat id image m₁) ?_ fun _ _ h => h.elim
  rintro residency _ ⟨-, rfl⟩
  refine Sat.bind (enlist_sat id image manifest residency _) ?_ ?_
  · rintro _ _ ⟨_, d, ⟨cpu, c, -, rfl⟩, rfl⟩
    exact ⟨rfl, hconfig, _, rfl, congrArg (· ++ _) hextensions⟩
  · rintro _ _ ⟨⟨cpu, c, -, hran⟩, -, rfl⟩
    rw [hran]
    exact .inr ⟨hconfig, _, rfl, congrArg (· ++ _) hextensions⟩

/-! ### How far hot loading gets -/

/-- The checks before hot loading are passed. -/
structure Ready (id : String) (m : Manager σ) : Prop where
  plain : checkId m.config.maxIdLen id = .ok ()
  new : m.isLoaded id = false
  room : m.isFull = false

variable [Store σ]

/-- How hot loading ends in this manager, by its checks in their order. -/
def fate (id : String) (m : Manager σ) : Fate :=
  match checkId m.config.maxIdLen id with
  | .error _ => .badId
  | .ok () =>
    if m.isLoaded id then .resident
    else if m.isFull then .full
    else match Store.openModule id m.store with
      | .ok none _ => .noModule
      | _ => if (hotLoad id m).result.isOk then .loaded else .failed

/-- Loading finds no module exactly if the store has none. Otherwise it fails or lets an extension
join. -/
lemma loadOne_joins (id : String) (m : Manager σ) :
    Sat (loadOne id) m
      (fun found m' => if found then Joins id m m' ∧ ∀ store, Store.openModule id m.store ≠ .ok none store
        else Stays m m' ∧ ∃ store, Store.openModule id m.store = .ok none store)
      fun _ m' => (Stays m m' ∨ Joins id m m') ∧
        ∀ store, Store.openModule id m.store ≠ .ok none store := by
  unfold loadOne
  rcases hopen : Store.openModule id m.store with ⟨source?, between⟩ | ⟨e, between⟩
  swap
  · have hstore : zoom storePart (ofOp (Store.openModule id)) m =
        ⟨.error e, { m with store := between }, []⟩ := by simp [zoom, storePart, ofOp, hopen]
    exact Sat.bind_of_error hstore ⟨.inl ⟨rfl, rfl⟩, nofun⟩
  have hstore : zoom storePart (ofOp (Store.openModule id)) m =
      ⟨.ok source?, { m with store := between }, []⟩ := by simp [zoom, storePart, ofOp, hopen]
  refine Sat.bind_of_ok hstore ?_
  rcases source? with _ | source
  · exact ⟨⟨rfl, rfl⟩, between, rfl⟩
  refine Sat.mono (P := fun found m' => found = true ∧ Joins id m m')
    (E := fun _ m' => Stays m m' ∨ Joins id m m') ?_ ?_ ?_
  · refine Sat.bind (store_sat _ _) ?_ ?_
    swap
    · rintro e _ ⟨store, rfl⟩
      exact .inl ⟨rfl, rfl⟩
    rintro (_ | bytes) _ ⟨store, -, rfl⟩
    · exact Sat.pure_bind (Sat.get_bind (adopt_joins id _ source none { m with store }))
    · dsimp only
      rw [map_eq_pure_bind]
      rcases Manifest.parse bytes with e | manifest
      · exact .inl ⟨rfl, rfl⟩
      · exact Sat.pure_bind (Sat.get_bind (adopt_joins id _ source (some manifest) { m with store }))
  · rintro _ m' ⟨rfl, h⟩
    exact ⟨h, nofun⟩
  · exact fun _ _ h => ⟨h, nofun⟩

/-- Hot loading refuses what does not pass the checks. -/
lemma hotLoad_refuses (h : ¬ m.Ready id) :
    (hotLoad id m).result.isOk = false ∧ (hotLoad id m).state = m := by
  have hrefused : Sat (hotLoad id) m (fun _ _ => False) fun _ m' => m' = m :=
    hotLoad_sat (fun _ => rfl) fun hplain hnew hroom => (h ⟨hplain, hnew, hroom⟩).elim
  rcases hcall : hotLoad id m with ⟨e | x, m', es⟩
  · exact ⟨rfl, hrefused.of_error hcall⟩
  · exact (hrefused.of_ok hcall).elim

/-- Past the checks, hot loading succeeds exactly if loading finds a module and succeeds. -/
lemma hotLoad_loads (h : m.Ready id) :
    (hotLoad id m).state = (loadOne id m).state ∧
      ((hotLoad id m).result.isOk = true ↔ (loadOne id m).result = .ok true) := by
  have hcalled : Sat (hotLoad id) m
      (fun _ m' => (loadOne id m).result = .ok true ∧ m' = (loadOne id m).state)
      (fun _ m' => (loadOne id m).result ≠ .ok true ∧ m' = (loadOne id m).state) := by
    unfold hotLoad
    refine Sat.get_bind ?_
    rw [h.plain, h.new, h.room]
    refine Sat.pure_bind ?_
    rcases hload : loadOne id m with ⟨e | _ | _, m', es⟩
    · exact Sat.bind_of_error hload ⟨nofun, rfl⟩
    · exact Sat.bind_of_ok hload (Sat.throw_bind ⟨nofun, rfl⟩)
    · refine Sat.bind_of_ok hload (Sat.get_bind ?_)
      have hjoins := ((if_pos rfl).mp ((loadOne_joins id m).of_ok hload)).1
      obtain ⟨x, hx⟩ := Option.isSome_iff_exists.1 hjoins.isLoaded
      rw [hx]
      exact ⟨rfl, rfl⟩
  rcases hcall : hotLoad id m with ⟨_ | _, _, _⟩
  · obtain ⟨hfails, hstate⟩ := hcalled.of_error hcall
    exact ⟨hstate, nofun, fun hok => (hfails hok).elim⟩
  · obtain ⟨hok, hstate⟩ := hcalled.of_ok hcall
    exact ⟨hstate, fun _ => hok, fun _ => rfl⟩

/-- Past the checks, loading decides. -/
lemma fate_of_ready (h : m.Ready id) :
    fate id m = match (loadOne id m).result with
      | .ok true => .loaded
      | .ok false => .noModule
      | .error _ => .failed := by
  have hok := (hotLoad_loads h).2
  have hopened (hopen : ∀ store, Store.openModule id m.store ≠ .ok none store) :
      fate id m = if (hotLoad id m).result.isOk then .loaded else .failed := by
    simp only [fate, h.plain, h.new, h.room, Bool.false_eq_true, if_false]
  rcases hload : loadOne id m with ⟨e | _ | _, m', es⟩
  · rw [hload] at hok
    rw [hopened ((loadOne_joins id m).of_error hload).2, if_neg fun h => nomatch hok.1 h]
  · obtain ⟨-, store, hopen⟩ := (loadOne_joins id m).of_ok hload
    simp only [fate, h.plain, h.new, h.room, hopen, Bool.false_eq_true, if_false]
  · rw [hload] at hok
    rw [hopened ((if_pos rfl).mp ((loadOne_joins id m).of_ok hload)).2, if_pos (hok.2 rfl)]

/-- The checks themselves decide where they are not passed. -/
lemma fate_of_not_ready (h : ¬ m.Ready id) :
    fate id m = .badId ∨ (fate id m = .resident ∧ m.isLoaded id = true) ∨
      (fate id m = .full ∧ m.isLoaded id = false) := by
  unfold fate
  rcases hplain : checkId m.config.maxIdLen id with e | _
  · exact .inl rfl
  rcases hold : m.isLoaded id with _ | _
  · rcases hfull : m.isFull with _ | _
    · exact (h ⟨hplain, hold, hfull⟩).elim
    · exact .inr (.inr ⟨rfl, rfl⟩)
  · exact .inr (.inl ⟨rfl, rfl⟩)

lemma isOk_hotLoad (id : String) (m : Manager σ) :
    (hotLoad id m).result.isOk = decide (fate id m = .loaded) := by
  rw [Bool.eq_iff_iff, decide_eq_true_iff]
  by_cases h : m.Ready id
  · rw [fate_of_ready h, (hotLoad_loads h).2]
    rcases (loadOne id m).result with e | _ | _ <;> simp
  · rw [(hotLoad_refuses h).1]
    rcases fate_of_not_ready h with h | ⟨h, -⟩ | ⟨h, -⟩ <;> simp [h]

/-- Of a resident identifier, loading does not come into it. -/
lemma fate_of_isLoaded (h : m.isLoaded id = true) : fate id m = .badId ∨ fate id m = .resident := by
  rcases fate_of_not_ready fun hready => nomatch h.symm.trans hready.new with hf | ⟨hf, -⟩ | ⟨-, hnew⟩
  · exact .inl hf
  · exact .inr hf
  · exact nomatch h.symm.trans hnew

lemma fate_ne_resident (h : m.isLoaded id = false) : fate id m ≠ .resident := by
  by_cases hready : m.Ready id
  · rw [fate_of_ready hready]
    rcases (loadOne id m).result with e | _ | _ <;> nofun
  · rcases fate_of_not_ready hready with hf | ⟨-, hold⟩ | ⟨hf, -⟩
    · simp [hf]
    · exact nomatch h.symm.trans hold
    · simp [hf]

/-! ### One identifier after the other -/

/-- The calls of hot loading that enumeration stands for, each with the manager that it finds. -/
def calls : List String → Manager σ → List (String × Manager σ)
  | [], _ => []
  | id :: ids, m => (id, m) :: calls ids (hotLoad id m).state

/-- Hot loads identifiers one after the other, whatever comes of it. -/
def hotLoadAll (ids : List String) (m : Manager σ) : Manager σ :=
  ids.foldl (fun m id => (hotLoad id m).state) m

/-- The summary after one more call. -/
def note (sum : InitSummary) (c : String × Manager σ) : InitSummary :=
  if c.2.isLoaded c.1 then sum else sum.count (fate c.1 c.2)

/-- **One identifier.** Enumeration leaves what hot loading leaves, and takes note of how it ends. -/
lemma consider_hotLoads (id : String) (m : Manager σ) (sum : InitSummary) :
    Sat (consider id sum) m (fun sum' m' => m' = (hotLoad id m).state ∧ sum' = note sum (id, m))
      fun _ _ => False := by
  unfold consider note
  refine Sat.get_bind ?_
  by_cases hready : m.Ready id
  · obtain ⟨hstate, -⟩ := hotLoad_loads hready
    rw [hready.new, hready.plain, fate_of_ready hready, hstate]
    simp only [Bool.false_eq_true, if_false, hready.room]
    have hload : Sat (loadOne id) m
        (fun found m' => (loadOne id m).result = .ok found ∧ m' = (loadOne id m).state)
        fun e m' => (loadOne id m).result = .error e ∧ m' = (loadOne id m).state := by
      unfold Sat
      rcases loadOne id m with ⟨_ | _, _, _⟩ <;> exact ⟨rfl, rfl⟩
    refine hload.attempt_bind ?_ ?_
    · rintro (_ | _) _ ⟨hfound, rfl⟩
      · exact ⟨rfl, by rw [hfound]; rfl⟩
      · exact ⟨rfl, by rw [hfound]; rfl⟩
    · rintro e _ ⟨he, rfl⟩
      exact ⟨rfl, by rw [he]; rfl⟩
  · rw [(hotLoad_refuses hready).2]
    rcases hold : m.isLoaded id with _ | _
    swap
    · exact ⟨rfl, rfl⟩
    rcases hplain : checkId m.config.maxIdLen id with e | _
    · exact ⟨rfl, by simp only [fate, hplain]; rfl⟩
    rcases hfull : m.isFull with _ | _
    · exact (hready ⟨hplain, hold, hfull⟩).elim
    · exact ⟨rfl, by simp only [fate, hplain, hold, hfull]; rfl⟩

/-- **All identifiers.** -/
lemma considerAll_hotLoads (ids : List String) (m : Manager σ) (sum : InitSummary) :
    Sat (considerAll ids sum) m
      (fun sum' m' => m' = hotLoadAll ids m ∧ sum' = (calls ids m).foldl note sum)
      fun _ _ => False := by
  induction ids generalizing m sum with
  | nil => exact ⟨rfl, rfl⟩
  | cons id ids ih =>
    refine Sat.bind (consider_hotLoads id m sum) ?_ fun _ _ h => h
    rintro _ _ ⟨rfl, rfl⟩
    exact ih _ _

/-! ### What the summary counts -/

/-- Each counter counts the calls that end its way. -/
lemma noted (cs : List (String × Manager σ)) (sum : InitSummary) :
    cs.foldl note sum =
      ⟨sum.loaded + cs.countP fun c => (hotLoad c.1 c.2).result.isOk,
        sum.failed + cs.countP fun c => fate c.1 c.2 = .failed,
        sum.skipped + cs.countP fun c => !c.2.isLoaded c.1 && (fate c.1 c.2).isSkipped⟩ := by
  induction cs generalizing sum with
  | nil => rfl
  | cons c cs ih =>
    simp only [List.foldl_cons, ih, List.countP_cons, isOk_hotLoad, note]
    rcases hold : c.2.isLoaded c.1 with _ | _
    · have hne := fate_ne_resident hold
      rcases fate c.1 c.2 <;> simp [InitSummary.count, Fate.isSkipped, Nat.add_assoc, Nat.add_comm] at hne ⊢
    · rcases fate_of_isLoaded hold with hf | hf <;> simp [hf]

/-- Whatever is not resident when it is reached is counted once. -/
lemma noted_total (cs : List (String × Manager σ)) (sum : InitSummary) :
    (cs.foldl note sum).total = sum.total + cs.countP fun c => !c.2.isLoaded c.1 := by
  induction cs generalizing sum with
  | nil => rfl
  | cons c cs ih =>
    rw [List.foldl_cons, ih, List.countP_cons, note]
    rcases hold : c.2.isLoaded c.1 with _ | _
    · rw [if_neg Bool.false_ne_true, sum.total_count (fate_ne_resident hold), Bool.not_false, if_pos rfl]
      omega
    · rfl

/-- Where all resident identifiers are good, so they are after a call. -/
lemma hotLoad_plain (h : ∀ x ∈ m.extensions, checkId m.config.maxIdLen x.id = .ok ()) (id : String) :
    (hotLoad id m).state.config = m.config ∧
      ∀ x ∈ (hotLoad id m).state.extensions, checkId m.config.maxIdLen x.id = .ok () := by
  by_cases hready : m.Ready id
  swap
  · rw [(hotLoad_refuses hready).2]
    exact ⟨rfl, h⟩
  rw [(hotLoad_loads hready).1]
  have hjoins : Stays m (loadOne id m).state ∨ Joins id m (loadOne id m).state := by
    refine Sat.state (R := fun m' => Stays m m' ∨ Joins id m m') ((loadOne_joins id m).mono ?_ ?_)
    · rintro (_ | _) _ h
      · exact .inl h.1
      · exact .inr h.1
    · exact fun _ _ h => h.1
  rcases hjoins with ⟨hconfig, hstays⟩ | ⟨hconfig, x, hid, hx⟩
  · exact ⟨hconfig, hstays ▸ h⟩
  · refine ⟨hconfig, fun y hy => ?_⟩
    rw [hx] at hy
    rcases List.mem_append.1 hy with hy | hy
    · exact h y hy
    · rw [List.mem_singleton.1 hy, hid]
      exact hready.plain

/-- Where all resident identifiers are good, what is skipped is not resident. -/
lemma new_of_isSkipped (h : ∀ x ∈ m.extensions, checkId m.config.maxIdLen x.id = .ok ())
    (ids : List String) :
    ∀ c ∈ calls ids m, (fate c.1 c.2).isSkipped = true → c.2.isLoaded c.1 = false := by
  induction ids generalizing m with
  | nil => exact fun _ hc => (List.not_mem_nil hc).elim
  | cons id ids ih =>
    intro c hc hskipped
    rcases List.mem_cons.1 hc with rfl | hc
    · rcases hold : m.isLoaded id with _ | _
      · rfl
      obtain ⟨x, hx⟩ := Option.isSome_iff_exists.1 hold
      have hid : x.id = id := by simpa using List.find?_some hx
      have hplain := hid ▸ h x (List.mem_of_find?_eq_some hx)
      have hfate : fate id m = .resident := by simp only [fate, hplain, hold, if_true]
      rw [hfate] at hskipped
      exact nomatch hskipped
    · obtain ⟨hconfig, hplain⟩ := hotLoad_plain h id
      exact ih (hconfig ▸ hplain) c hc hskipped

/-- **Enumerating is hot loading in a row.** If the store has a place for extensions and lists them,
enumeration succeeds, and leaves the manager as hot loading leaves it of each identifier in order,
whatever comes of it. Its summary counts the calls that succeed, those that fail once a module is looked
for, and those that come to nothing before: for a bad identifier, for want of room, or for want of a
module file. Together these are the identifiers that are not resident when they are reached. -/
theorem init_hotLoads {ids : List String} {between store : σ}
    (hbase : Store.ensureBase m.store = .ok () between) (hlist : Store.list between = .ok ids store) :
    ∃ sum es, init m = ⟨.ok sum, hotLoadAll ids { m with store }, es⟩ ∧
      sum.loaded = (calls ids { m with store }).countP (fun c => (hotLoad c.1 c.2).result.isOk) ∧
      sum.failed = (calls ids { m with store }).countP (fun c => fate c.1 c.2 = .failed) ∧
      ((∀ x ∈ m.extensions, checkId m.config.maxIdLen x.id = .ok ()) →
        sum.skipped = (calls ids { m with store }).countP fun c => (fate c.1 c.2).isSkipped) ∧
      sum.loaded + sum.failed + sum.skipped =
        (calls ids { m with store }).countP fun c => !c.2.isLoaded c.1 := by
  have hinit : Sat init m
      (fun sum m' => m' = hotLoadAll ids { m with store } ∧
        sum = (calls ids { m with store }).foldl note ⟨0, 0, 0⟩)
      fun _ _ => False := by
    have hensure : zoom storePart (ofOp Store.ensureBase) m = ⟨.ok (), { m with store := between }, []⟩ := by
      simp [zoom, storePart, ofOp, hbase]
    have hids : zoom storePart (ofOp Store.list) { m with store := between } =
        ⟨.ok ids, { m with store }, []⟩ := by simp [zoom, storePart, ofOp, hlist]
    unfold init
    refine Sat.bind_of_ok hensure (Sat.bind_of_ok hids (Sat.note_bind ?_))
    exact (considerAll_hotLoads ids _ _).bind (fun _ _ h => Sat.note_bind (sat_pure.2 h)) fun _ _ h => h
  rcases hrun : init m with ⟨e | sum, m', es⟩
  · exact (hinit.of_error hrun).elim
  obtain ⟨rfl, rfl⟩ := hinit.of_ok hrun
  refine ⟨_, es, rfl, ?_, ?_, fun hplain => ?_, (noted_total _ ⟨0, 0, 0⟩).trans (Nat.zero_add _)⟩
  · simp only [noted, Nat.zero_add]
  · simp only [noted, Nat.zero_add]
  · simp only [noted, Nat.zero_add]
    refine List.countP_congr fun c hc => ?_
    have hnew := new_of_isSkipped (m := { m with store }) hplain ids c hc
    rw [Bool.and_eq_true, Bool.not_eq_true']
    exact ⟨fun h => h.2, fun h => ⟨hnew h, h⟩⟩

/-- A manager with room for one extension. In store are a module that does not load, a directory without
a module, a module that loads, and two more modules, one of them under a bad identifier. -/
def assorted : Manager MemStore :=
  { stocked with
    config.maxExtensions := 1
    store := ⟨[("a", ⟨some #[], none⟩), ("b", ⟨none, none⟩), ("c", ⟨some describedObject, none⟩),
      ("d/d", ⟨some describedObject, none⟩), ("e", ⟨some describedObject, none⟩)]⟩ }

/-- One fails, one is loaded, and three are skipped, each for another reason. -/
theorem init_hotLoads_assorted :
    ∃ ids es, Store.list assorted.store = .ok ids assorted.store ∧
      (calls ids assorted).map (fun c => fate c.1 c.2) = [.failed, .noModule, .loaded, .badId, .full] ∧
      init assorted = ⟨.ok ⟨1, 1, 3⟩, hotLoadAll ids assorted, es⟩ := by
  have hsorted : sortIds ["a", "b", "c", "d/d", "e"] = ["a", "b", "c", "d/d", "e"] :=
    List.mergeSort_of_pairwise (by decide +kernel)
  have hlist : Store.list assorted.store = .ok ["a", "b", "c", "d/d", "e"] assorted.store :=
    congrArg (EStateM.Result.ok · assorted.store) hsorted
  have hfates : (calls ["a", "b", "c", "d/d", "e"] assorted).map (fun c => fate c.1 c.2) =
      [.failed, .noModule, .loaded, .badId, .full] := by decide +kernel
  have hcount (p : Fate → Bool) : (calls ["a", "b", "c", "d/d", "e"] assorted).countP
      (fun c => p (fate c.1 c.2)) = [Fate.failed, .noModule, .loaded, .badId, .full].countP p := by
    rw [← hfates, List.countP_map]
    rfl
  obtain ⟨⟨loaded, failed, skipped⟩, es, hinit, hloaded, hfailed, hskipped, -⟩ :=
    init_hotLoads (m := assorted) rfl hlist
  simp only [isOk_hotLoad] at hloaded
  obtain rfl : loaded = 1 := hloaded.trans (hcount fun f => f = .loaded)
  obtain rfl : failed = 1 := hfailed.trans (hcount fun f => f = .failed)
  obtain rfl : skipped = 3 := (hskipped fun _ hx => (List.not_mem_nil hx).elim).trans (hcount Fate.isSkipped)
  exact ⟨_, es, hlist, hfates, hinit⟩

end Manager

end FlashLink
