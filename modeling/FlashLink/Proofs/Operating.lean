import FlashLink.Extension.Manager
import FlashLink.Proofs.Accesses
import FlashLink.Proofs.Extents
import FlashLink.Proofs.Rollback

/-!
What the operations of the extension manager are made of.

All that an operation does to a manager is one of a few things: work in the store, calls into a module,
a trampoline, and the adoption of a module, which is placed, made resident and entered. What each of
them leaves behind is told here. A property that each of them keeps is kept by every operation, and so
holds of all managers that are reached.
-/

namespace FlashLink

open Act

/-! ### Contexts -/

/-- Giving back what was allocated leaves what was allocated before as it was. -/
lemma Region.Edited.rewound {F : Nat → Prop} {r r' : Region} (h : Region.Edited F r r') :
    Region.Written F r { r' with nextFree := r.nextFree } := by
  refine ⟨⟨h.name_eq, h.partition_eq, h.sector_eq, h.reported_eq, h.unarmed, Nat.le_refl _,
    fun hr => (h.sound hr).movedTo h.free_le ?_, h.same⟩, rfl⟩
  rw [h.sector_eq]
  exact hr.free_aligned

namespace Context

/-- A load has worked on the context. -/
structure Filled (c c' : Context) : Prop where
  advanced : Advanced (fun _ => False) c c'
  iflash_eq : c'.iflash = c.iflash
  trampolines_eq : c'.trampolines = c.trampolines

/-- All that is allocated is as it was. What is free may have been written. -/
structure Restored (c c' : Context) : Prop where
  xip : Region.Touched c.xip.nextFree c.xip c'.xip
  iflash_eq : c'.iflash = c.iflash
  pool : Pool.Changed (c.pool.used ≤ ·) c.pool c'.pool
  trampolines_eq : c'.trampolines = c.trampolines

variable {c c' : Context}

lemma Restored.refl (c : Context) : Restored c c := ⟨.refl _ _, rfl, .refl _, rfl⟩

/-- A load that is rolled back leaves all that was allocated as it was. -/
lemma Filled.rollback (h : Filled c c') (hxip : c.xip.Sound) (hiflash : c.iflash.Sound) :
    Sat (Context.rollback c.checkpoint) c' (fun _ back => Restored c back) fun _ _ => False := by
  refine (h.advanced.rollback hxip hiflash).mono ?_ fun _ _ h => h
  rintro _ _ rfl
  refine ⟨h.advanced.xip.rewound, ?_, ⟨h.advanced.pool.base_eq, rfl, ?_⟩, ?_⟩
  · dsimp only [rewound, checkpoint]
    rw [h.iflash_eq]
  · exact h.advanced.pool.same.mono fun i hi => ⟨by omega, id⟩
  · exact (if_pos h.trampolines_eq).trans h.trampolines_eq

end Context

/-- A load, whether it succeeds or not. -/
lemma Loader.load_filled {name entry : String} {exports : Lookup} {s : State} (hl : s.loader.Sized) :
    Sat (load name exports entry) s
      (fun image s' => s'.loader.Sized ∧ s.context.Filled s'.context ∧
        image.Between s.context s'.context)
      (fun _ s' => s'.loader.Sized ∧ s.context.Filled s'.context) := by
  refine (((load_allocates hl).and (load_sized hl)).and load_resident).mono ?_ ?_
  · rintro image s' ⟨⟨⟨hadvanced, p, e, hsettled, himage, hwrote⟩, -, hsized⟩, hiflash, htrampolines⟩
    refine ⟨hsized, ⟨hadvanced, hiflash, htrampolines⟩, ?_⟩
    rw [himage]
    exact hsettled.image_between hwrote
  · rintro e s' ⟨⟨hadvanced, -, hsized⟩, hiflash, htrampolines⟩
    exact ⟨hsized, hadvanced, hiflash, htrampolines⟩

namespace Manager

variable {σ : Type} {m : Manager σ} {id : String}

/-! ### Parts of operations -/

/-- Work in the store touches nothing else. -/
lemma store_sat {α : Type} (x : Op σ α) (m : Manager σ) :
    Sat (zoom storePart (ofOp x)) m (fun a m' => ∃ store, x m.store = .ok a store ∧ m' = { m with store })
      fun _ m' => ∃ store, m' = { m with store } := by
  refine sat_zoom.2 (sat_ofOp.2 ?_)
  change Op.Sat x m.store _ _
  unfold Op.Sat
  rcases hx : x m.store with ⟨a, store⟩ | ⟨_, store⟩
  · exact ⟨store, rfl, rfl⟩
  · exact ⟨store, rfl⟩

/-- Code has run. -/
def Ran (m m' : Manager σ) : Prop :=
  ∃ cpu context, m.context.Accessed context ∧ m' = { m with cpu, context }

/-- A call into a module. -/
lemma call_sat (func base : Addr) (args : List UInt32) (m : Manager σ) :
    Sat (zoom machinePart (ofOp (Machine.call func base args))) m (fun _ => m.Ran) fun _ => m.Ran := by
  have hcall := (Context.accessed_invariant m.context).call (x := ⟨m.cpu, m.context⟩)
    (.refl m.context) func base args
  exact sat_zoom.2 (sat_ofOp.2 (hcall.mono (fun _ x h => ⟨x.cpu, x.mem, h, rfl⟩)
    fun _ x h => ⟨x.cpu, x.mem, h, rfl⟩))

/-- Entering a module and decoding its descriptor. -/
lemma enter_sat (id : String) (image : Image) (m : Manager σ) :
    Sat (enter id image) m (fun _ => m.Ran) fun _ => m.Ran := by
  unfold enter
  refine Sat.bind (call_sat _ _ _ m) ?_ fun _ _ h => h
  rintro addr _ ⟨cpu, c, hc, rfl⟩
  split_ifs
  · exact Sat.throw_bind ⟨cpu, c, hc, rfl⟩
  · have hread := (Context.accessed_invariant m.context).descriptor hc addr
    exact sat_zoom.2 (sat_ofOp.2 (hread.mono (fun _ c' h => ⟨cpu, c', h, rfl⟩)
      fun _ c' h => ⟨cpu, c', h, rfl⟩))

/-- A module is placed in what was free, or all is given back. -/
lemma place_sat (hl : m.loader.Sized) (hxip : m.context.xip.Sound) (hiflash : m.context.iflash.Sound)
    (id entry : String) (source : Source) :
    Sat (place id entry source) m
      (fun image m' => ∃ loader context, loader.Sized ∧ m.context.Filled context ∧
        image.Between m.context context ∧ m' = { m with loader, context })
      (fun _ m' => ∃ loader context, loader.Sized ∧ m.context.Restored context ∧
        m' = { m with loader, context }) := by
  have hload : Sat (zoom (loadPart source) (Loader.load id m.exports.lookup entry)) m
      (fun image m' => ∃ loader context, loader.Sized ∧ m.context.Filled context ∧
        image.Between m.context context ∧ m' = { m with loader, context })
      (fun _ m' => ∃ loader context, loader.Sized ∧ m.context.Filled context ∧
        m' = { m with loader, context }) := by
    refine sat_zoom.2 ((Loader.load_filled (s := ⟨m.loader, source, m.context⟩) hl).mono ?_ ?_)
    · exact fun _ s h => ⟨s.loader, s.context, h.1, h.2.1, h.2.2, rfl⟩
    · exact fun _ s h => ⟨s.loader, s.context, h.1, h.2, rfl⟩
  unfold place
  refine Sat.get_bind (Sat.get_bind (hload.attempt_bind (fun image m' h => sat_pure.2 h) ?_))
  rintro e _ ⟨loader, c, hsized, hfilled, rfl⟩
  refine Sat.bind (P := fun _ m' => ∃ context, m.context.Restored context ∧
    m' = { m with loader, context }) (G := fun _ _ => False) ?_ ?_ fun _ _ h => h.elim
  · exact sat_zoom.2 ((hfilled.rollback hxip hiflash).mono (fun _ c' h => ⟨c', h, rfl⟩) fun _ _ h => h)
  · rintro _ _ ⟨c', hrestored, rfl⟩
    exact sat_throw.2 ⟨loader, c', hsized, hrestored, rfl⟩

/-- Making a module resident cannot fail. The report is that of the pass, or empty if the pass failed. -/
lemma makeResident_sat (id : String) (image : Image) (m : Manager σ) :
    Sat (makeResident id image) m
      (fun report m' => (report = .empty ∨
          (Patcher.runOn image (m.context, m.cpu)).result = .ok report) ∧
        m' = { m with
          context := (Patcher.runOn image (m.context, m.cpu)).state.1
          cpu := (Patcher.runOn image (m.context, m.cpu)).state.2 })
      (fun _ _ => False) := by
  unfold makeResident
  rcases hrun : Patcher.runOn image (m.context, m.cpu) with ⟨r, ⟨c, cpu⟩, es⟩
  have hpass : Sat (zoom patchPart (Patcher.runOn image)) m
      (fun report m' => r = .ok report ∧ m' = { m with context := c, cpu := cpu })
      (fun _ m' => m' = { m with context := c, cpu := cpu }) := by
    refine sat_zoom.2 ?_
    change Sat (Patcher.runOn image) (m.context, m.cpu) _ _
    unfold Sat
    rw [hrun]
    rcases r with e | report
    · exact rfl
    · exact ⟨rfl, rfl⟩
  refine hpass.attempt_bind (fun report m' h => sat_pure.2 ⟨.inr h.1, h.2⟩) fun e m' h => ?_
  exact Sat.note_bind (sat_pure.2 ⟨.inl rfl, h⟩)

/-- An extension has joined, and the registry has been told if it has a descriptor. -/
def joined (m : Manager σ) (x : Extension) : Manager σ :=
  { m with
    registry := m.registry ++ (x.descriptor.map fun d => (x.id, d)).toList
    extensions := m.extensions ++ [x] }

lemma joined_none (m : Manager σ) (id : String) (image : Image) (manifest : Option Manifest)
    (residency : ResidencyReport) :
    m.joined ⟨id, image, manifest, none, residency⟩ =
      { m with extensions := m.extensions ++ [⟨id, image, manifest, none, residency⟩] } := by
  simp only [joined, Option.map_none, Option.toList_none, List.append_nil]

/-- From the entry point on the extension stays. If the entry point fails, it has no descriptor. -/
lemma enlist_sat (id : String) (image : Image) (manifest : Option Manifest)
    (residency : ResidencyReport) (m : Manager σ) :
    Sat (enlist id image manifest residency) m
      (fun _ m' => ∃ e d, m.Ran e ∧ m' = e.joined ⟨id, image, manifest, some d, residency⟩)
      (fun e m' => m.Ran (enter id image m).state ∧ (enter id image m).result = .error e ∧
        m' = (enter id image m).state.joined ⟨id, image, manifest, none, residency⟩) := by
  have hran : m.Ran (enter id image m).state := (enter_sat id image m).state
  have henter : Sat (enter id image) m (fun d m' => m' = (enter id image m).state)
      fun e m' => (enter id image m).result = .error e ∧ m' = (enter id image m).state := by
    unfold Sat
    rcases enter id image m with ⟨_ | d, m', es⟩
    · exact ⟨rfl, rfl⟩
    · exact rfl
  unfold enlist
  refine henter.attempt_bind ?_ ?_
  · rintro d _ rfl
    exact Sat.note_bind (Sat.modify_bind (sat_modify.2 ⟨_, d, hran, rfl⟩))
  · rintro e _ ⟨he, rfl⟩
    exact Sat.modify_bind (sat_throw.2 ⟨hran, he, (joined_none _ id image manifest residency).symm⟩)

/-- What is left of a load once the module is open and its manifest has been read. -/
def adopt (id entry : String) (source : Source) (manifest : Option Manifest) :
    Act (Manager σ) Bool := do
  let image ← place id entry source
  let residency ← makeResident id image
  enlist id image manifest residency
  return true

section Loading

variable [Store σ]

/-- The store has a module for the identifier, and a good manifest or none. The store may change as it
is read. -/
def Opened (id : String) (m : Manager σ) (store : σ) (entry : String) (source : Source)
    (manifest : Option Manifest) : Prop :=
  ∃ between bytes?, Store.openModule id m.store = .ok (some source) between ∧
    Store.readManifest id between = .ok bytes? store ∧
    bytes?.mapM Manifest.parse = .ok manifest ∧
    entry = (manifest.bind (·.entrySymbol)).getD m.config.entrySymbol

/-- Loading an extension looks into the store and, if there is a module with a good manifest, adopts
it. -/
lemma loadOne_sat {P : Bool → Manager σ → Prop} {E : Error → Manager σ → Prop}
    (hnone : ∀ store, P false { m with store }) (hfail : ∀ e store, E e { m with store })
    (hadopt : ∀ store entry source manifest, Opened id m store entry source manifest →
      Sat (adopt id entry source manifest) { m with store } P E) :
    Sat (loadOne id) m P E := by
  unfold loadOne
  refine Sat.bind (store_sat _ m) ?_ ?_
  swap
  · rintro e _ ⟨store, rfl⟩
    exact hfail e store
  rintro (_ | source) _ ⟨between, hopen, rfl⟩
  · exact hnone between
  refine Sat.bind (store_sat _ _) ?_ ?_
  swap
  · rintro e _ ⟨store, rfl⟩
    exact hfail e store
  rintro (_ | bytes) _ ⟨store, hread, rfl⟩
  · exact Sat.pure_bind (Sat.get_bind (hadopt store _ source none
      ⟨between, none, hopen, hread, rfl, rfl⟩))
  · dsimp only
    rw [map_eq_pure_bind]
    rcases hparse : Manifest.parse bytes with e | manifest
    · exact hfail e store
    · refine Sat.pure_bind (Sat.get_bind (hadopt store _ source (some manifest)
        ⟨between, some bytes, hopen, hread, ?_, rfl⟩))
      rw [Option.mapM_some, hparse]
      rfl

/-- Hot loading refuses what it cannot load before it looks into the store, and answers the extension
that has come. -/
lemma hotLoad_sat {P : Extension → Manager σ → Prop} {E : Error → Manager σ → Prop}
    (hrefused : ∀ e, E e m)
    (hload : checkId m.config.maxIdLen id = .ok () → m.isLoaded id = false → m.isFull = false →
      Sat (loadOne id) m
        (fun found m' => (found = false → E (.io (.noModule id)) m') ∧
          (found = true → (∀ x, m'.find? id = some x → P x m') ∧
            (m'.find? id = none → E (.usage (.vanished id)) m')))
        E) :
    Sat (hotLoad id) m P E := by
  unfold hotLoad
  refine Sat.get_bind ?_
  rcases hplain : checkId m.config.maxIdLen id with e | _
  · exact hrefused e
  refine Sat.pure_bind ?_
  by_cases hnew : m.isLoaded id = true
  · rw [if_pos hnew]
    exact hrefused _
  by_cases hroom : m.isFull = true
  · rw [if_neg hnew, if_pos hroom]
    exact hrefused _
  rw [if_neg hnew, if_neg hroom]
  refine Sat.bind (hload hplain (Bool.eq_false_iff.2 hnew) (Bool.eq_false_iff.2 hroom)) ?_
    fun _ _ h => h
  rintro (_ | _) m' ⟨hnone, hsome⟩
  · exact Sat.throw_bind (hnone rfl)
  · refine Sat.get_bind ?_
    rcases hfound : m'.find? id with _ | x
    · exact (hsome rfl).2 hfound
    · exact (hsome rfl).1 x hfound

end Loading

/-! ### Runs -/

/-- A manager that has loaded nothing yet. -/
def fresh (config : ManagerConfig) (loader : Loader) (xip iflash : Region) (pool : Pool) (store : σ)
    (cpu : Cpu) (exports : Exports) : Manager σ :=
  ⟨config, loader, .create xip iflash pool, store, cpu, exports, [], []⟩

/-- The managers that operations in any order lead to, and what had been handed to the registry before
the last reset. Operations may fail; in between the store may change, and operations on flash may be
made to fail. -/
inductive Reached [Store σ] (m₀ : Manager σ) : List (String × Descriptor) → Manager σ → Prop
  | start : Reached m₀ m₀.registry m₀
  | arm {handed m} (h : Reached m₀ handed m) (f g : Option ArmedFault) :
    Reached m₀ handed { m with context := m.context.withFaults f g }
  | restock {handed m} (h : Reached m₀ handed m) (store : σ) : Reached m₀ handed { m with store }
  | init {handed m} (h : Reached m₀ handed m) : Reached m₀ handed (init m).state
  | hotLoad {handed m} (h : Reached m₀ handed m) (id : String) :
    Reached m₀ handed (hotLoad id m).state
  | prepare {handed m} (h : Reached m₀ handed m) (id : String) :
    Reached m₀ handed (prepare id m).state
  | remove {handed m} (h : Reached m₀ handed m) (id : String) :
    Reached m₀ handed (remove id m).state
  | invoke {handed m} (h : Reached m₀ handed m) (id : String) (event : Lifecycle)
    (args : List UInt32) : Reached m₀ handed (invoke id event args m).state
  | createTrampoline {handed m} (h : Reached m₀ handed m) (id : String) (target : Addr) :
    Reached m₀ handed (createTrampoline id target m).state
  | reset {handed m} (h : Reached m₀ handed m) : Reached m₀ m.registry (reset m).state

/-! ### Invariants -/

/-- A property of managers of one configuration that the parts of operations keep. It may depend on
what had been handed to the registry before the last reset. -/
structure Stable (config : ManagerConfig) (I : List (String × Descriptor) → Manager σ → Prop) :
    Prop where
  config_eq : ∀ {handed m}, I handed m → m.config = config
  arm : ∀ {handed m}, I handed m → ∀ f g, I handed { m with context := m.context.withFaults f g }
  restock : ∀ {handed m}, I handed m → ∀ store, I handed { m with store }
  run : ∀ {handed m m'}, I handed m → m.Ran m' → I handed m'
  trampoline : ∀ handed target base, Preserves (I handed)
    (zoom contextPart (zoom Context.trampolinePart (Trampolines.emit target base)))
  /-- Only adopting has to be looked at under the guards of a load. -/
  adopt : ∀ {handed m}, I handed m → ∀ {id}, checkId config.maxIdLen id = .ok () →
    m.isLoaded id = false → m.isFull = false → ∀ entry source manifest,
      Sat (adopt id entry source manifest) m (fun _ => I handed) fun _ => I handed
  reset : ∀ {handed m}, I handed m →
    I m.registry { m with extensions := [], context := m.context.emptied }

namespace Stable

variable {config : ManagerConfig} {I : List (String × Descriptor) → Manager σ → Prop}
  {handed : List (String × Descriptor)} {m₀ : Manager σ}

/-- Work in the store. -/
lemma store (hI : Stable config I) {α : Type} (x : Op σ α) :
    Preserves (I handed) (zoom storePart (ofOp x)) := by
  intro m h
  refine (store_sat x m).mono ?_ ?_
  · rintro _ _ ⟨s, -, rfl⟩
    exact hI.restock h s
  · rintro _ _ ⟨s, rfl⟩
    exact hI.restock h s

/-- Calls into a module. -/
lemma call (hI : Stable config I) (func base : Addr) (args : List UInt32) :
    Preserves (I handed) (zoom machinePart (ofOp (Machine.call func base args))) := fun m h =>
  (call_sat func base args m).mono (fun _ _ hm => hI.run h hm) fun _ _ hm => hI.run h hm

lemma invoke (hI : Stable config I) (id : String) (event : Lifecycle) (args : List UInt32) :
    Preserves (I handed) (Manager.invoke id event args) := by
  unfold Manager.invoke
  refine Preserves.get.bind fun m => ?_
  rcases m.find? id with _ | x
  · exact .throw _
  dsimp only
  rcases x.descriptor.bind (·.callback? event) with _ | func
  · exact .pure _
  · exact (Preserves.note _).bind fun _ => (hI.call _ _ _).bind fun _ => .pure _

lemma createTrampoline (hI : Stable config I) (id : String) (target : Addr) :
    Preserves (I handed) (Manager.createTrampoline id target) := by
  unfold Manager.createTrampoline
  refine Preserves.get.bind fun m => ?_
  rcases m.find? id with _ | x
  · exact .throw _
  · refine (hI.trampoline _ _ _).bind fun _ => (Preserves.modify fun m h => ?_).bind fun _ => .pure _
    exact hI.run h ⟨_, m.context, .refl _, rfl⟩

/-- **A reset** lets all extensions go. What the registry has been told stays. -/
lemma reset_sat (hI : Stable config I) (h : I handed m) :
    Sat Manager.reset m (fun _ => I m.registry) fun _ _ => False := by
  unfold Manager.reset
  refine Sat.modify_bind (sat_zoom.2 ((Context.reset_sat m.context).mono ?_ fun _ _ h => h))
  rintro _ _ rfl
  exact hI.reset h

variable [Store σ]

/-- **Loading an extension**, whatever fails. -/
lemma loadOne (hI : Stable config I) (h : I handed m) (hplain : checkId config.maxIdLen id = .ok ())
    (hnew : m.isLoaded id = false) (hroom : m.isFull = false) :
    Sat (Manager.loadOne id) m (fun _ => I handed) fun _ => I handed :=
  loadOne_sat (hI.restock h) (fun _ => hI.restock h) fun store entry source manifest _ =>
    hI.adopt (hI.restock h store) hplain hnew hroom entry source manifest

/-- **Hot loading**, whatever fails. -/
lemma hotLoad (hI : Stable config I) (id : String) :
    Preserves (I handed) (Manager.hotLoad id) := by
  refine fun m h => hotLoad_sat (fun _ => h) fun hplain hnew hroom => ?_
  rw [hI.config_eq h] at hplain
  exact (hI.loadOne h hplain hnew hroom).mono
    (fun _ _ h' => ⟨fun _ => h', fun _ => ⟨fun _ _ => h', fun _ => h'⟩⟩) fun _ _ h' => h'

/-- **Considering** an identifier never fails. -/
lemma consider (hI : Stable config I) (h : I handed m) (id : String) (sum : InitSummary) :
    Sat (Manager.consider id sum) m (fun _ => I handed) fun _ _ => False := by
  unfold Manager.consider
  refine Sat.get_bind ?_
  by_cases hnew : m.isLoaded id = true
  · rw [if_pos hnew]
    exact h
  rw [if_neg hnew]
  rcases hplain : checkId m.config.maxIdLen id with e | _
  · exact h
  rw [hI.config_eq h] at hplain
  by_cases hroom : m.isFull = true
  · simp only [hroom]
    exact h
  simp only [hroom]
  refine (hI.loadOne h hplain (Bool.eq_false_iff.2 hnew) (Bool.eq_false_iff.2 hroom)).attempt_bind ?_
    fun _ _ h => h
  rintro (_ | _) m' h'
  · exact h'
  · exact h'

lemma considerAll (hI : Stable config I) (ids : List String) (h : I handed m) (sum : InitSummary) :
    Sat (Manager.considerAll ids sum) m (fun _ => I handed) fun _ _ => False := by
  induction ids generalizing m sum with
  | nil => exact h
  | cons id ids ih => exact Sat.bind (hI.consider h id sum) (fun sum _ h => ih h sum) fun _ _ h => h

/-- **Enumerating**. -/
lemma init (hI : Stable config I) : Preserves (I handed) (Manager.init : Act (Manager σ) _) := by
  unfold Manager.init
  refine (hI.store _).bind fun _ => (hI.store _).bind fun ids => (Preserves.note _).bind fun _ => ?_
  refine Preserves.bind (fun m h => (hI.considerAll ids h _).mono (fun _ _ h => h) fun _ _ h => h.elim)
    fun _ => (Preserves.note _).bind fun _ => .pure _

lemma prepare (hI : Stable config I) (id : String) : Preserves (I handed) (Manager.prepare id) := by
  unfold Manager.prepare
  exact Preserves.get.bind fun _ => (Preserves.ofExcept _).bind fun _ => hI.store _

lemma remove (hI : Stable config I) (id : String) : Preserves (I handed) (Manager.remove id) := by
  unfold Manager.remove
  refine Preserves.get.bind fun m => (Preserves.ofExcept _).bind fun _ => ?_
  exact .ite ((Preserves.note _).bind fun _ => hI.store _) (hI.store _)

/-- **What holds of all managers** that are reached, if it holds at the start. -/
lemma reached (hI : Stable config I) (h₀ : I m₀.registry m₀) (h : Reached m₀ handed m) :
    I handed m := by
  induction h with
  | start => exact h₀
  | arm _ f g ih => exact hI.arm ih f g
  | restock _ store ih => exact hI.restock ih store
  | init _ ih => exact (hI.init _ ih).state
  | hotLoad _ id ih => exact (hI.hotLoad id _ ih).state
  | prepare _ id ih => exact (hI.prepare id _ ih).state
  | remove _ id ih => exact (hI.remove id _ ih).state
  | invoke _ id event args ih => exact (hI.invoke id event args _ ih).state
  | createTrampoline _ id target ih => exact (hI.createTrampoline id target _ ih).state
  | reset _ ih => exact ((hI.reset_sat ih).mono (fun _ _ h => h) fun _ _ h => h.elim).state

end Stable

end Manager

end FlashLink
