import FlashLink.Proofs.Managing

/-!
How hot loading fails.

Until the module is placed, a failure changes nothing: what the load had allocated is given back, and
nothing that was allocated before has been touched. From then on the module stays. If its entry point
fails, the extension is there without a descriptor, and the registry is not told.

Nothing here depends on the size of sectors. Where a record does not fit into a sector of internal flash,
trampolines may run over copies, but never over what a load occupies.
-/

namespace FlashLink

open Act

/-! ### Bump offsets that go up -/

namespace Context

/-- Whatever was written, no bump offset has gone back, and sound regions have stayed sound. -/
structure Ascended (c c' : Context) : Prop where
  xip : Region.Edited (fun _ => True) c.xip c'.xip
  iflash : Region.Edited (fun _ => True) c.iflash c'.iflash
  pool : Pool.Advanced (fun _ => True) c.pool c'.pool

variable {K : Nat → Prop} {c c' c'' : Context}

namespace Ascended

lemma refl (c : Context) : Ascended c c := ⟨.refl _ _, .refl _ _, .refl _ _⟩

lemma trans (h : Ascended c c') (h' : Ascended c' c'') : Ascended c c'' :=
  ⟨h.1.trans h'.1, h.2.trans h'.2, h.3.trans h'.3⟩

end Ascended

lemma Advanced.ascended (h : Advanced K c c') : Ascended c c' :=
  ⟨h.xip.mono fun _ _ => trivial, h.resident.edited.mono fun _ _ => trivial,
    h.pool.mono fun _ _ => trivial⟩

lemma Accessed.ascended (h : Accessed c c') : Ascended c c' :=
  ⟨h.xip.1.mono fun _ _ => trivial, h.iflash.1.mono fun _ _ => trivial,
    h.pool.advanced fun _ _ => .inr trivial⟩

lemma Restored.ascended (h : Restored c c') : Ascended c c' :=
  ⟨h.xip.1.mono fun _ _ => trivial, h.iflash_eq ▸ .refl _ _, h.pool.advanced fun _ _ => .inr trivial⟩

end Context

namespace Region

variable {r : Region}

lemma reserveErased_edited (size : Nat) : Preserves (Edited (fun _ => True) r) (reserveErased size) :=
  fun r' h => (reserveErased_grown size r').mono
    (fun _ _ h' => h.trans (h'.1.mono fun _ _ => trivial)) fun _ _ h' =>
      h.trans (h'.mono fun _ _ => trivial)

end Region

/-- A trampoline, which may run past the end of its sector if sectors are small. -/
lemma Trampolines.emit_edited {r : Region} (target base : Addr) :
    Preserves (fun w : Trampolines × Region => Region.Edited (fun _ => True) r w.2)
      (emit target base) := by
  have hsector : Preserves (fun w : Trampolines × Region => Region.Edited (fun _ => True) r w.2)
      sectorWithRoom := by
    exact fun w h => sectorWithRoom_rule (fun _ _ => h) fun _ => Region.reserveErased_edited _ w.2 h
  refine fun w h => emit_rule ((hsector w h).mono (fun s w' h' => ?_) fun _ _ h' => h')
  exact (Region.write_written _ (fun _ _ _ => trivial) w'.2).mono (fun _ _ hw => h'.trans hw.1)
    fun _ _ hw => h'.trans hw.1

lemma Context.emit_ascended (c : Context) (target base : Addr) :
    Preserves (Ascended c) (zoom trampolinePart (Trampolines.emit target base)) :=
  Preserves.zoom fun c' h => (Trampolines.emit_edited target base (c'.trampolines, c'.iflash)
    h.iflash).mono (fun _ _ h' => ⟨h.xip, h', h.pool⟩) fun _ _ h' => ⟨h.xip, h', h.pool⟩

namespace Patcher

variable {κ : Type} {c : Context}

lemma Copied.ascended {k : Nat} {c c' : Context} (h : Copied k c c') : c.Ascended c' := by
  refine ⟨h.xip.1.mono fun _ _ => trivial, h.iflash.1.mono fun _ _ => trivial, ?_⟩
  rw [h.others]
  exact .refl _ _

lemma copySection_ascended (s : PlacedSection) :
    Preserves (Context.Ascended c) (copySection s) := by
  refine fun c' h => copySection_rule (fun _ => h) fun src _ => ?_
  refine (Region.reserveErased_edited _ c'.iflash h.iflash).mono (fun dest r hr => ?_)
    fun _ _ hr => ⟨h.xip, hr, h.pool⟩
  have hreserved : c.Ascended { c' with iflash := r } := ⟨h.xip, hr, h.pool⟩
  exact (copyFrom_copied (Nat.zero_le _) src s.size s.size _).mono
    (fun _ _ h' => hreserved.trans h'.ascended) fun _ _ h' => hreserved.trans h'.ascended

/-- What was done to the context. -/
def Rising (c : Context) (s : State κ) : Prop := c.Ascended s.context

lemma patch_rising (t : PatchTarget) (cursor : Nat) :
    Preserves (Rising c) (patch t cursor : Act (State κ) PatchStage) := by
  have htrampoline : ∀ target base,
      Preserves (Rising c) (trampolineTo target base : Act (State κ) Addr) := by
    exact fun target base s h => trampolineTo_rule (fun _ _ => h) fun _ =>
      Context.emit_ascended c target base s.context h
  refine fun s h => patch_rule (fun _ => h) (fun _ _ _ => h) fun b i word target _ _ => ?_
  refine (htrampoline target _ s h).mono (fun addr s' h' => ?_) fun _ _ h' => h'
  refine ⟨h'.xip, h'.iflash, h'.pool.trans ?_⟩
  exact (Pool.changed_overwrite (J := fun _ => True) fun _ _ _ => trivial).advanced
    fun _ _ => .inr trivial

lemma copy_rising (index : Nat) : Preserves (Rising c) (copy index : Act (State κ) PatchStage) := by
  exact fun s h => copy_rule (fun _ => h) fun placed _ => copySection_ascended placed s.context h

variable [CacheControl κ]

lemma scan_rising (next : Nat) : Preserves (Rising c) (scan next : Act (State κ) PatchStage) := by
  have hfinish : Preserves (Rising c) (finish : Act (State κ) Unit) := by
    unfold finish
    refine Preserves.get.bind fun s => .ite (.note _) ?_
    rcases s.patcher.image.data with _ | block
    · exact (Preserves.modify (by intro s h; exact h)).bind fun _ => .note _
    · exact (Preserves.modify (by intro s h; exact h)).bind fun _ =>
        (Preserves.modify (by intro s h; exact h)).bind fun _ => .note _
  unfold scan
  refine Preserves.get.bind fun s => ?_
  rcases nextTagged? s.patcher.image next with _ | index
  · exact hfinish.bind fun _ => .pure _
  · exact .pure _

lemma steps_rising (n : Nat) : Preserves (Rising c) (steps n : Act (State κ) Unit) := by
  have hstep : Preserves (Rising c) (step : Act (State κ) Bool) := by
    unfold step
    refine Preserves.get.bind fun s => Preserves.bind ?_ fun stage =>
      (Preserves.modify (by intro s h; exact h)).bind fun _ => .pure _
    unfold advance
    split
    · exact scan_rising _
    · exact copy_rising _
    · exact patch_rising _ _
    · exact .pure _
  induction n with
  | zero => exact .pure _
  | succ n ih =>
    unfold steps
    exact hstep.bind fun more => .ite ih (.pure _)

/-- **A pass** moves bump offsets up, whatever its sectors are like and whatever fails. -/
lemma runOn_ascended (c : Context) (image : Image) (cache : κ) :
    Context.Ascended c (runOn image (c, cache)).state.1 := by
  refine Sat.state (x := runOn image) (R := fun w => c.Ascended w.1) ?_
  exact runOn_rule (steps_rising _ ⟨start image, c, cache⟩ (Context.Ascended.refl c))

end Patcher

/-! ### What is occupied -/

/-- Nothing that a resident extension occupies in execute-in-place flash or in the pool differs. -/
structure Extension.Intact (x : Extension) (c c' : Context) : Prop where
  sections : ∀ q ∈ x.image.flashExtents c.xip.sector, ∃ offset, q.1 = c.xip.address offset ∧
    offset + q.2 ≤ c.xip.nextFree ∧ c'.xip.bytes offset q.2 = c.xip.bytes offset q.2
  blocks : ∀ b ∈ x.image.blocks, c'.pool.bytes b = c.pool.bytes b

namespace Manager

variable {σ : Type} {m m' : Manager σ} {config : ManagerConfig} {id : String}

/-- What holds of all managers of this configuration, whatever their sectors are like: loads work, and
what extensions occupy lies below the bump offsets. -/
structure Grounded (config : ManagerConfig) (m : Manager σ) : Prop where
  config_eq : m.config = config
  sized : m.loader.Sized
  xip_sound : m.context.xip.Sound
  iflash_sound : m.context.iflash.Sound
  sections : m.context.xip.Holds 0 m.context.xip.nextFree
    (m.extensions.flatMap (·.image.flashExtents m.context.xip.sector))
  blocks : Separate 0 m.context.pool.used
    (m.extensions.flatMap (·.image.blocks.map fun b => (b.offset, b.len)))

namespace Grounded

lemma empty (hconfig : m.config = config) (hsized : m.loader.Sized) (hxip : m.context.xip.Sound)
    (hiflash : m.context.iflash.Sound) (hnone : m.extensions = []) : Grounded config m := by
  refine ⟨hconfig, hsized, hxip, hiflash, ?_, ?_⟩
  all_goals rw [hnone]
  · exact .nil _ _ _
  · exact .nil _ _

/-- Work on the context keeps the extensions where they are. -/
lemma ascended (h : m.Grounded config) (hconfig : m'.config = m.config)
    (hextensions : m'.extensions = m.extensions) (hsized : m'.loader.Sized)
    (hc : m.context.Ascended m'.context) : m'.Grounded config := by
  refine ⟨hconfig.trans h.config_eq, hsized, hc.xip.sound h.xip_sound,
    hc.iflash.sound h.iflash_sound, ?_, ?_⟩
  all_goals rw [hextensions]
  · rw [hc.xip.sector_eq]
    exact h.sections.mono hc.xip.partition_eq (Nat.le_refl _) hc.xip.free_le
  · exact h.blocks.mono (Nat.le_refl _) hc.pool.used_le

/-- A module that has been placed comes above all others. -/
lemma placed (h : m.Grounded config) {loader : Loader} {c : Context} {x : Extension}
    (hsized : loader.Sized) (hfilled : m.context.Filled c) (himage : x.image.Between m.context c) :
    Grounded config { m with loader, context := c, extensions := m.extensions ++ [x] } := by
  have hc := hfilled.advanced.ascended
  refine ⟨h.config_eq, hsized, hc.xip.sound h.xip_sound, hc.iflash.sound h.iflash_sound, ?_, ?_⟩
  all_goals dsimp only; rw [List.flatMap_append, List.flatMap_singleton]
  · rw [hc.xip.sector_eq]
    exact (h.sections.mono hc.xip.partition_eq (Nat.le_refl _) (Nat.le_refl _)).append
      (himage.flash.mono hc.xip.partition_eq (Nat.le_refl _) (Nat.le_refl _)) (Nat.zero_le _)
      hc.xip.free_le
  · exact h.blocks.append himage.pool (Nat.zero_le _) hc.pool.used_le

lemma adopt (h : m.Grounded config) (id entry : String) (source : Source)
    (manifest : Option Manifest) :
    Sat (Manager.adopt id entry source manifest) m (fun _ => Grounded config)
      fun _ => Grounded config := by
  unfold Manager.adopt
  refine Sat.bind (place_sat h.sized h.xip_sound h.iflash_sound id entry source) ?_ ?_
  swap
  · rintro _ _ ⟨loader, c, hsized, hrestored, rfl⟩
    exact h.ascended rfl rfl hsized hrestored.ascended
  rintro image _ ⟨loader, c, hsized, hfilled, himage, rfl⟩
  refine Sat.bind (makeResident_sat id image _) ?_ fun _ _ h => h.elim
  rintro residency _ ⟨-, rfl⟩
  have hpass : c.Ascended (Patcher.runOn image (c, m.cpu)).state.1 :=
    Patcher.runOn_ascended c image m.cpu
  -- however the entry point ends, the extension joins
  have hjoined : ∀ m₂ d, Ran { m with
      loader, context := (Patcher.runOn image (c, m.cpu)).state.1
      cpu := (Patcher.runOn image (c, m.cpu)).state.2 } m₂ →
      Grounded config (m₂.joined ⟨id, image, manifest, d, residency⟩) := by
    rintro _ d ⟨cpu, c₂, hc₂, rfl⟩
    have hplaced := h.placed (x := ⟨id, image, manifest, d, residency⟩) hsized hfilled himage
    exact hplaced.ascended rfl rfl hsized (hpass.trans hc₂.ascended)
  refine Sat.bind (enlist_sat id image manifest residency _) ?_ ?_
  · rintro _ _ ⟨m₂, d, hran, rfl⟩
    exact sat_pure.2 (hjoined m₂ (some d) hran)
  · rintro _ _ ⟨hran, -, rfl⟩
    exact hjoined _ none hran

/-- **All parts of operations** keep this. -/
lemma stable : Stable config fun _ (m : Manager σ) => m.Grounded config where
  config_eq h := h.config_eq
  arm h f g := by
    obtain ⟨hconfig, hsized, ⟨x1, x2, x3, x4, x5, x6, x7⟩, ⟨i1, i2, i3, i4, i5, i6, i7⟩, hs, hb⟩ := h
    exact ⟨hconfig, hsized, ⟨x1, x2, x3, x4, x5, x6, x7⟩, ⟨i1, i2, i3, i4, i5, i6, i7⟩, hs, hb⟩
  restock h store := h.ascended rfl rfl h.sized (.refl _)
  run := by
    rintro handed m _ h ⟨cpu, c, hc, rfl⟩
    exact h.ascended rfl rfl h.sized hc.ascended
  trampoline handed target base := Preserves.zoom fun m h =>
    (m.context.emit_ascended target base m.context (.refl _)).mono
      (fun _ _ hc => h.ascended rfl rfl h.sized hc) fun _ _ hc => h.ascended rfl rfl h.sized hc
  adopt h _ _ _ _ entry source manifest := h.adopt _ entry source manifest
  reset h := .empty h.config_eq h.sized (h.xip_sound.movedTo (Nat.zero_le _) (Nat.zero_mod _))
    (h.iflash_sound.movedTo (Nat.zero_le _) (Nat.zero_mod _)) rfl

/-- What lies below the bump offsets is not touched by a load that is rolled back. -/
lemma intact (h : m.Grounded config) {c : Context} (hc : m.context.Restored c) {x : Extension}
    (hx : x ∈ m.extensions) : x.Intact m.context c := by
  refine ⟨fun q hq => ?_, fun b hb => ?_⟩
  · obtain ⟨spans, hspans, hseparate⟩ := h.sections
    have hmem := hspans ▸ List.mem_flatMap.2 ⟨x, hx, hq⟩
    obtain ⟨⟨offset, len⟩, hspan, rfl⟩ := List.mem_map.1 hmem
    have hend := (hseparate.between _ hspan).2
    exact ⟨offset, rfl, hend, hc.xip.bytes_eq fun k _ hk => by dsimp only at hk hend; omega⟩
  · have hmem : (b.offset, b.len) ∈
        m.extensions.flatMap (·.image.blocks.map fun b => (b.offset, b.len)) :=
      List.mem_flatMap.2 ⟨x, hx, List.mem_map_of_mem hb⟩
    have hend := (h.blocks.between _ hmem).2
    exact hc.pool.slice_eq fun i _ hi => by dsimp only at hend; omega

end Grounded

/-! ### Failing -/

/-- Nothing has come of a load: extensions, registry and allocators are as they were, internal flash is
as it was, and so is what extensions occupy elsewhere. -/
structure Unmoved (m m' : Manager σ) : Prop where
  extensions_eq : m'.extensions = m.extensions
  registry_eq : m'.registry = m.registry
  xip_free : m'.context.xip.nextFree = m.context.xip.nextFree
  iflash_eq : m'.context.iflash = m.context.iflash
  pool_used : m'.context.pool.used = m.context.pool.used
  trampolines_eq : m'.context.trampolines = m.context.trampolines
  intact : ∀ x ∈ m.extensions, x.Intact m.context m'.context

lemma Grounded.unmoved (h : m.Grounded config) {loader : Loader} {c : Context} {store : σ}
    (hc : m.context.Restored c) : m.Unmoved { m with loader, context := c, store } :=
  ⟨rfl, rfl, hc.xip.free_eq, hc.iflash_eq, hc.pool.used_eq, hc.trampolines_eq,
    fun _ hx => h.intact hc hx⟩

variable [Store σ]

/-- The module that the store has was placed and made resident, and then its entry point failed with this
error: the call, the answer zero, or the descriptor. The extension is there without a descriptor, and
the registry has not been told. -/
def Stranded (id : String) (e : Error) (m m' : Manager σ) : Prop :=
  ∃ store entry source manifest image residency m₁ m₂ m₃ es₁ es₂ es₃,
    Opened id m store entry source manifest ∧
    place id entry source { m with store } = ⟨.ok image, m₁, es₁⟩ ∧
    makeResident id image m₁ = ⟨.ok residency, m₂, es₂⟩ ∧
    enter id image m₂ = ⟨.error e, m₃, es₃⟩ ∧
    m' = { m₃ with extensions := m.extensions ++ [⟨id, image, manifest, none, residency⟩] } ∧
    m'.registry = m.registry

/-- Adopting a module fails before anything has come of it, or with the extension stranded. -/
lemma Grounded.adopt_fails (h : m.Grounded config) {store : σ} {entry : String} {source : Source}
    {manifest : Option Manifest} (hopened : Opened id m store entry source manifest) :
    Sat (Manager.adopt id entry source manifest) { m with store }
      (fun found m' => found = true ∧ ∃ x : Extension, x.id = id ∧
        m'.extensions = m.extensions ++ [x])
      (fun e m' => m.Unmoved m' ∨ Stranded id e m m') := by
  have hplace := place_sat (m := { m with store }) h.sized h.xip_sound h.iflash_sound id entry source
  unfold Manager.adopt
  rcases hp : place id entry source { m with store } with ⟨e | image, m₁, es₁⟩
  · obtain ⟨loader, c, -, hrestored, rfl⟩ := hplace.of_error hp
    exact Sat.bind_of_error hp (.inl (h.unmoved hrestored))
  refine Sat.bind_of_ok hp ?_
  obtain ⟨loader, c, -, -, -, rfl⟩ := hplace.of_ok hp
  have hresident := makeResident_sat id image { m with loader, context := c, store }
  rcases hr : makeResident id image { m with loader, context := c, store } with
    ⟨e | residency, m₂, es₂⟩
  · exact (hresident.of_error hr).elim
  refine Sat.bind_of_ok hr ?_
  obtain ⟨-, rfl⟩ := hresident.of_ok hr
  refine Sat.bind (enlist_sat id image manifest residency _) ?_ ?_
  · rintro _ _ ⟨_, d, ⟨cpu, c₂, -, rfl⟩, rfl⟩
    exact sat_pure.2 ⟨rfl, _, rfl, rfl⟩
  · rintro e _ ⟨hran, he, rfl⟩
    rw [joined_none]
    rcases hen : enter id image _ with ⟨r, m₃, es₃⟩
    rw [hen] at hran he
    obtain ⟨cpu, c₂, -, hm₃⟩ := hran
    dsimp only at he hm₃ ⊢
    subst he hm₃
    exact .inr ⟨store, entry, source, manifest, image, residency, _, _, _, es₁, es₂, es₃, hopened, hp, hr,
      hen, rfl, rfl⟩

/-- **Hot loading fails atomically.** In all managers that are reached, whatever the store holds and
whatever fails: if hot loading fails, either nothing has come of it, or the module was loaded, its entry
point failed with this error, and the extension is there without a descriptor. -/
theorem hotLoad_fails (config : ManagerConfig) {loader : Loader} {xip iflash : Region} (pool : Pool)
    (store : σ) (cpu : Cpu) (exports : Exports) (hloader : loader.Sized) (hxip : xip.Sound)
    (hiflash : iflash.Sound) {handed : List (String × Descriptor)} {e : Error} {es : List Event}
    (h : Reached (fresh config loader xip iflash pool store cpu exports) handed m)
    (hload : hotLoad id m = ⟨.error e, m', es⟩) :
    (m.Unmoved m' ∧ m'.isLoaded id = m.isLoaded id) ∨ Stranded id e m m' := by
  have hground : m.Grounded config :=
    Grounded.stable.reached (.empty rfl hloader hxip hiflash rfl) h
  have hstore : ∀ store, m.Unmoved { m with store } := fun store => hground.unmoved (.refl _)
  have hone : Sat (loadOne id) m
      (fun found m' => (found = false → m.Unmoved m') ∧
        (found = true → ∃ x : Extension, x.id = id ∧ m'.extensions = m.extensions ++ [x]))
      (fun e m' => m.Unmoved m' ∨ Stranded id e m m') := by
    refine loadOne_sat (fun store => ⟨fun _ => hstore store, nofun⟩) (fun _ store => .inl (hstore store))
      fun store entry source manifest hopened => (hground.adopt_fails hopened).mono ?_ fun _ _ h => h
    rintro _ _ ⟨rfl, hx⟩
    exact ⟨nofun, fun _ => hx⟩
  have hfails : Sat (hotLoad id) m (fun _ _ => True) fun e m' => m.Unmoved m' ∨ Stranded id e m m' := by
    refine hotLoad_sat (fun _ => .inl (hstore m.store)) fun _ _ _ => hone.mono ?_ fun _ _ h => h
    rintro found m' ⟨hnone, hsome⟩
    refine ⟨fun hfound => .inl (hnone hfound), fun hfound => ⟨fun _ _ => trivial, fun hvanished => ?_⟩⟩
    obtain ⟨x, hid, hx⟩ := hsome hfound
    rw [find?, hx, List.find?_eq_none] at hvanished
    exact (hvanished x (List.mem_append_right _ (List.mem_singleton_self x)) (beq_iff_eq.2 hid)).elim
  rcases hfails.of_error hload with hunmoved | hstranded
  · refine .inl ⟨hunmoved, ?_⟩
    rw [isLoaded, isLoaded, find?, find?, hunmoved.extensions_eq]
  · exact .inr hstranded

/-- One module is resident, and the next write to execute-in-place flash fails. -/
def faulty : Manager MemStore :=
  let m := (hotLoad "a" stocked).state
  { m with context := m.context.withFaults (some ⟨.write, 1⟩) none }

/-- The next module fails, and nothing has come of it. -/
theorem hotLoad_fails_faulty :
    ∃ m' es, Reached stocked [] faulty ∧ faulty.isLoaded "a" = true ∧
      hotLoad "b" faulty = ⟨.error (.flash (.injectedWrite 16)), m', es⟩ ∧ faulty.Unmoved m' := by
  have hrun : Reached stocked [] faulty := (Reached.start.hotLoad "a").arm _ _
  have hends : faulty.isLoaded "a" = true ∧
      (hotLoad "b" faulty).state.extensions.length = faulty.extensions.length ∧
      (hotLoad "b" faulty).result = .error (.flash (.injectedWrite 16)) := by decide +kernel
  obtain ⟨hloaded, hcount, herror⟩ := hends
  rcases hload : hotLoad "b" faulty with ⟨r, m', es⟩
  rw [hload] at herror hcount
  cases herror
  refine ⟨m', es, hrun, hloaded, rfl, ?_⟩
  rcases hotLoad_fails _ _ _ _ _ (Small.loader_sized (by decide) rfl) (Small.region_sound _ _)
    (Small.region_sound _ _) hrun hload with ⟨hunmoved, -⟩ | hstranded
  · exact hunmoved
  · obtain ⟨_, _, _, _, _, _, _, _, _, _, _, _, -, -, -, -, rfl, -⟩ := hstranded
    rw [List.length_append, List.length_singleton] at hcount
    omega

/-- Variables are no place to enter a module at: it is loaded, and stays without a descriptor. -/
example :
    let m := (hotLoad "a" { stocked with config.entrySymbol := "v" }).state
    m.extensions.map (·.isRegistered) = [false] ∧ m.registry.map (·.1) = [] := by decide +kernel

end Manager

end FlashLink
