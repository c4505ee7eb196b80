import FlashLink.Proofs.Operating

/-!
What the extension manager keeps.

Whatever is asked of it, and whatever fails on the way, the identifiers of the resident extensions are
good and distinct, there are not too many of them, what they occupy lies apart below the bump offsets,
and the registry has been told of each one that has a descriptor.

Every operation but two only moves the manager onward: no bump offset goes back and no extension is
touched. A load that succeeds lets one extension join, all of which was allocated on the way; a reset
lets all of them go.
-/

namespace FlashLink

open Act

/-! ### Contexts that move on -/

namespace Context

/-- No bump offset has gone back. -/
structure Onward (c c' : Context) : Prop where
  xip_le : c.xip.nextFree ≤ c'.xip.nextFree
  iflash_le : c.iflash.nextFree ≤ c'.iflash.nextFree
  pool_le : c.pool.used ≤ c'.pool.used
  same : SameBoard c c'
  ready : c'.Ready

variable {K : Nat → Prop} {c c' c'' : Context}

lemma Onward.refl (h : c.Ready) : Onward c c :=
  ⟨Nat.le_refl _, Nat.le_refl _, Nat.le_refl _, .refl c, h⟩

lemma Onward.trans (h : Onward c c') (h' : Onward c' c'') : Onward c c'' :=
  ⟨Nat.le_trans h.1 h'.1, Nat.le_trans h.2 h'.2, Nat.le_trans h.3 h'.3, h.same.trans h'.same, h'.ready⟩

lemma Advanced.onward (h : Advanced K c c') (hc : c.Ready) : Onward c c' :=
  ⟨h.xip.free_le, h.resident.edited.free_le, h.pool.used_le, h.sameBoard, h.ready hc⟩

lemma Accessed.onward (h : Accessed c c') (hc : c.Ready) : Onward c c' :=
  ⟨h.xip.free_le, h.iflash.free_le, Nat.le_of_eq h.pool.used_eq.symm, h.sameBoard, h.ready hc⟩

lemma Restored.onward (h : Restored c c') (hc : c.Ready) : Onward c c' := by
  refine ⟨h.xip.free_le, by rw [h.iflash_eq], Nat.le_of_eq h.pool.used_eq.symm, ?_, ?_⟩
  · exact ⟨h.xip.partition_eq, h.xip.sector_eq, by rw [h.iflash_eq], by rw [h.iflash_eq], h.pool.base_eq,
      h.pool.size_eq⟩
  · refine ⟨h.xip.sound hc.xip_sound, ?_, ?_, ?_⟩
    all_goals rw [h.iflash_eq]
    · exact hc.iflash_sound
    · exact hc.room
    · rw [h.trampolines_eq]
      exact hc.packed

end Context

/-- What was allocated between two contexts was allocated between wider ones. -/
lemma Image.Between.mono {i : Image} {c c' d d' : Context} (h : i.Between c c')
    (hd : Context.Onward d c) (hd' : Context.Onward c' d') : i.Between d d' := by
  refine ⟨?_, h.pool.mono hd.pool_le hd'.pool_le⟩
  rw [← hd.same.xip_sector]
  exact h.flash.mono hd.same.xip_partition.symm hd.xip_le hd'.xip_le

namespace Manager

variable {σ : Type} {m m₀ m' m'' : Manager σ} {config : ManagerConfig}
  {handed : List (String × Descriptor)} {id : String}

/-! ### Managers that move on -/

/-- The manager has a context and a loader that work. -/
structure Sound (m : Manager σ) : Prop where
  ready : m.context.Ready
  sized : m.loader.Sized

/-- No extension has been touched, and what the manager works with has moved on. -/
structure Onward (m m' : Manager σ) : Prop where
  config_eq : m'.config = m.config
  extensions_eq : m'.extensions = m.extensions
  registry_eq : m'.registry = m.registry
  context : m.context.Onward m'.context
  sized : m'.loader.Sized

/-! ### What is kept -/

/-- What every manager of this configuration looks like, where `handed` are the descriptors that were
handed over before the last reset.

Sections, copies and variables are in three different memories, each with a bump offset of its own. -/
structure Consistent (config : ManagerConfig) (handed : List (String × Descriptor)) (m : Manager σ) :
    Prop where
  config_eq : m.config = config
  ids_nodup : (m.extensions.map (·.id)).Nodup
  ids_plain : ∀ x ∈ m.extensions, checkId config.maxIdLen x.id = .ok ()
  count_le : m.extensions.length ≤ config.maxExtensions
  sections : m.context.xip.Holds 0 m.context.xip.nextFree
    (m.extensions.flatMap (·.image.flashExtents m.context.xip.sector))
  copies : m.context.iflash.Holds 0 m.context.iflash.nextFree
    (m.extensions.flatMap (·.residency.copies.map (·.extent)))
  blocks : Separate 0 m.context.pool.used
    (m.extensions.flatMap (·.image.blocks.map fun b => (b.offset, b.len)))
  registry_eq : m.registry =
    handed ++ m.extensions.filterMap fun x => x.descriptor.map fun d => (x.id, d)

/-- Where there are no extensions, little has to be kept. -/
lemma Consistent.none (hconfig : m.config = config) (hnone : m.extensions = [])
    (hregistry : m.registry = handed) : Consistent config handed m := by
  refine ⟨hconfig, ?_, ?_, ?_, ?_, ?_, ?_, ?_⟩
  all_goals rw [hnone]
  · exact .nil
  · exact fun _ h => (List.not_mem_nil h).elim
  · exact Nat.zero_le _
  · exact .nil _ _ _
  · exact .nil _ _ _
  · exact .nil _ _
  · exact hregistry.trans (List.append_nil _).symm

/-- The invariant of managers. -/
structure Inv (config : ManagerConfig) (handed : List (String × Descriptor)) (m : Manager σ) : Prop
    extends Consistent config handed m, Sound m

namespace Inv

/-- Moving on keeps the invariant. -/
lemma onward (h : Inv config handed m) (ho : m.Onward m') : Inv config handed m' := by
  obtain ⟨⟨hconfig, hnodup, hplain, hcount, hsections, hcopies, hblocks, hregistry⟩, -⟩ := h
  obtain ⟨hc, hx, hr, hcontext, hsized⟩ := ho
  refine ⟨⟨hc.trans hconfig, ?_, ?_, ?_, ?_, ?_, ?_, ?_⟩, ⟨hcontext.ready, hsized⟩⟩
  all_goals rw [hx]
  · exact hnodup
  · exact hplain
  · exact hcount
  · rw [hcontext.same.xip_sector]
    exact hsections.mono hcontext.same.xip_partition (Nat.le_refl _) hcontext.xip_le
  · exact hcopies.mono hcontext.same.iflash_partition (Nat.le_refl _) hcontext.iflash_le
  · exact hblocks.mono (Nat.le_refl _) hcontext.pool_le
  · rw [hr, hregistry]

/-- A new extension joins, above all others. -/
lemma joined (h : Inv config handed m) (ho : m.Onward m') {x : Extension}
    (hplain : checkId config.maxIdLen x.id = .ok ()) (hnew : m.isLoaded x.id = false)
    (hroom : m.isFull = false) (himage : x.image.Between m.context m'.context)
    (hcopies : m'.context.iflash.Holds m.context.iflash.nextFree m'.context.iflash.nextFree
      (x.residency.copies.map (·.extent))) :
    Inv config handed (m'.joined x) := by
  have hold := h.onward ho
  have hsame := ho.context.same
  refine ⟨⟨hold.config_eq, ?_, ?_, ?_, ?_, ?_, ?_, ?_⟩, ⟨hold.ready, hold.sized⟩⟩
  all_goals
    simp only [Manager.joined, ho.extensions_eq, List.map_append, List.flatMap_append,
      List.filterMap_append, List.flatMap_cons, List.flatMap_nil, List.append_nil]
  · refine List.nodup_append.2 ⟨h.ids_nodup, List.pairwise_singleton _ _, ?_⟩
    rintro _ hid _ hx rfl
    obtain ⟨y, hy, hid⟩ := List.mem_map.1 hid
    rw [isLoaded, find?, Option.isSome_eq_false_iff, Option.isNone_iff_eq_none,
      List.find?_eq_none] at hnew
    exact hnew y hy (beq_iff_eq.2 (hid.trans (List.mem_singleton.1 hx)))
  · intro y hy
    rcases List.mem_append.1 hy with hy | hy
    · exact h.ids_plain y hy
    · rw [List.mem_singleton.1 hy]
      exact hplain
  · unfold isFull at hroom
    rw [h.config_eq, decide_eq_false_iff_not] at hroom
    rw [List.length_append, List.length_singleton]
    omega
  · rw [hsame.xip_sector]
    exact (h.sections.mono hsame.xip_partition (Nat.le_refl _) (Nat.le_refl _)).append
      (himage.flash.mono hsame.xip_partition (Nat.le_refl _) (Nat.le_refl _)) (Nat.zero_le _)
      ho.context.xip_le
  · exact (h.copies.mono hsame.iflash_partition (Nat.le_refl _) (Nat.le_refl _)).append hcopies
      (Nat.zero_le _) ho.context.iflash_le
  · exact h.blocks.append himage.pool (Nat.zero_le _) ho.context.pool_le
  · rw [ho.registry_eq, h.registry_eq, List.append_assoc]
    rcases hd : x.descriptor with _ | d
    · rw [List.filterMap_cons_none (by rw [hd]; rfl)]
      rfl
    · rw [List.filterMap_cons_some (by rw [hd]; rfl)]
      rfl

/-- **Adopting a module** keeps the invariant, whatever fails. -/
lemma adopt (h : Inv config handed m) (hplain : checkId config.maxIdLen id = .ok ())
    (hnew : m.isLoaded id = false) (hroom : m.isFull = false) (entry : String) (source : Source)
    (manifest : Option Manifest) :
    Sat (Manager.adopt id entry source manifest) m (fun _ => Inv config handed)
      fun _ => Inv config handed := by
  unfold Manager.adopt
  refine Sat.bind (place_sat h.sized h.ready.xip_sound h.ready.iflash_sound id entry source) ?_ ?_
  swap
  · rintro _ _ ⟨loader, c, hsized, hrestored, rfl⟩
    exact h.onward ⟨rfl, rfl, rfl, hrestored.onward h.ready, hsized⟩
  rintro image _ ⟨loader, c, hsized, hfilled, himage, rfl⟩
  have hplaced := hfilled.advanced.onward h.ready
  refine Sat.bind (makeResident_sat id image _) ?_ fun _ _ h => h.elim
  rintro residency _ ⟨hreport, rfl⟩
  dsimp only at hreport ⊢
  have hpass : c.Onward (Patcher.runOn image (c, m.cpu)).state.1 :=
    (Patcher.runOn_advanced hplaced.ready image m.cpu).onward hplaced.ready
  have hcopies : (Patcher.runOn image (c, m.cpu)).state.1.iflash.Holds c.iflash.nextFree
      (Patcher.runOn image (c, m.cpu)).state.1.iflash.nextFree
      (residency.copies.map (·.extent)) := by
    rcases hreport with rfl | hreport
    · exact .nil _ _ _
    · exact (Patcher.runOn_holds hplaced.ready image m.cpu).of_result hreport
  generalize Patcher.runOn image (c, m.cpu) = o at hpass hcopies ⊢
  obtain ⟨_, ⟨c₁, cpu⟩, _⟩ := o
  dsimp only at hpass hcopies ⊢
  -- from here on the extension joins, however its entry point ends
  have hjoined : ∀ m₂ d, Ran { m with loader, context := c₁, cpu } m₂ →
      Inv config handed (m₂.joined ⟨id, image, manifest, d, residency⟩) := by
    rintro _ d ⟨cpu, c₂, hc₂, rfl⟩
    have hran : c₁.Onward c₂ := hc₂.onward hpass.ready
    have hafter : c.Onward c₂ := hpass.trans hran
    have honward : m.Onward { m with loader, context := c₂, cpu } :=
      ⟨rfl, rfl, rfl, hplaced.trans hafter, hsized⟩
    refine h.joined honward hplain hnew hroom (himage.mono (.refl h.ready) hafter) ?_
    exact hcopies.mono hran.same.iflash_partition hplaced.iflash_le hran.iflash_le
  refine Sat.bind (enlist_sat id image manifest residency _) ?_ ?_
  · rintro _ _ ⟨m₂, d, hran, rfl⟩
    exact sat_pure.2 (hjoined m₂ (some d) hran)
  · rintro _ _ ⟨hran, -, rfl⟩
    exact hjoined _ none hran

/-- **All parts of operations** keep the invariant. -/
lemma stable : Stable config (Inv config : List (String × Descriptor) → Manager σ → Prop) where
  config_eq h := h.config_eq
  arm h f g := h.onward ⟨rfl, rfl, rfl, ⟨Nat.le_refl _, Nat.le_refl _, Nat.le_refl _,
    ⟨rfl, rfl, rfl, rfl, rfl, rfl⟩, h.ready.withFaults f g⟩, h.sized⟩
  restock h store := h.onward ⟨rfl, rfl, rfl, .refl h.ready, h.sized⟩
  run := by
    rintro handed m _ h ⟨cpu, c, hc, rfl⟩
    exact h.onward ⟨rfl, rfl, rfl, hc.onward h.ready, h.sized⟩
  trampoline handed target base := Preserves.zoom fun m h =>
    (Context.emit_sat h.ready.packed h.ready.room target base).mono
      (fun _ _ hc => h.onward ⟨rfl, rfl, rfl, hc.1.onward h.ready, h.sized⟩)
      fun _ _ hc => h.onward ⟨rfl, rfl, rfl, hc.onward h.ready, h.sized⟩
  adopt h _ hplain hnew hroom entry source manifest := h.adopt hplain hnew hroom entry source manifest
  reset h := ⟨.none h.config_eq rfl rfl, ⟨h.ready.emptied, h.sized⟩⟩

end Inv

/-! ### What is reached -/

variable [Store σ]

/-- **The invariant** holds of all managers that are reached. -/
lemma Inv.reached (h₀ : Inv m₀.config m₀.registry m₀) (h : Reached m₀ handed m) :
    Inv m₀.config handed m := stable.reached h₀ h

/-- **Managers are consistent.** Whatever has been asked of a manager, whatever the store held and
whatever failed: the identifiers of the resident extensions are good and distinct, there are not too
many extensions, their sections, copies and variables lie apart below the bump offsets, and since the
last reset the registry was told of each one that has a descriptor, in order, and of nothing else. -/
theorem reached_consistent (config : ManagerConfig) {loader : Loader} {xip iflash : Region} (pool : Pool)
    (store : σ) (cpu : Cpu) (exports : Exports) (hloader : loader.Sized) (hxip : xip.Sound)
    (hiflash : iflash.Sound) (hroom : Record.width ≤ iflash.sector)
    (h : Reached (fresh config loader xip iflash pool store cpu exports) handed m) :
    m.Consistent config handed := by
  have hstart : Inv config [] (fresh config loader xip iflash pool store cpu exports) :=
    ⟨.none rfl rfl rfl, ⟨⟨hxip, hiflash, hroom, nofun⟩, hloader⟩⟩
  exact (hstart.reached h).toConsistent

/-- Code that answers the address of a descriptor, and the descriptor: no name and no callbacks. -/
def describedObject : Bytes := Small.object
  (Small.ofWords [0x47704800, 0, 0, 0, 0, 0, 7, 4, 0x202, 0, 0, 0, 0, 1, 1, 0, 0x10012, 3, 0, 0, 0x20011] ++
    (Bytes.ofText "\x00e\x00v\x00.text\x00.data\x00").toList)
  [.replicate 10 0, [5, 1, 6, 0, 52, 8, 0, 0, 4, 0], [11, 1, 3, 0, 60, 20, 0, 0, 4, 0],
    [0, 9, 0, 0, 80, 8, 4, 1, 4, 8], [0, 2, 0, 0, 88, 48, 5, 1, 4, 16],
    [0, 3, 0, 0, 136, 17, 0, 0, 1, 0]]

/-- A manager on a small board, with two modules in store. -/
def stocked : Manager MemStore :=
  fresh { ManagerConfig.default with entrySymbol := "e" } (Small.loader 16) (Small.region "xip" 0x10000000)
    (Small.region "iflash" 0x8000000) (.create 0x20000000 48)
    ⟨[("a", ⟨some describedObject, none⟩), ("b", ⟨some describedObject, none⟩)]⟩
    (Cpu.create.withStack 0x20030000 64) .empty

/-- Both modules are loaded, one after the other, and both are registered. -/
theorem reached_consistent_stocked :
    ∃ m, Reached stocked [] m ∧ m.registry.map (·.1) = ["a", "b"] ∧ m.Consistent stocked.config [] := by
  have hrun : Reached stocked [] _ := (Reached.start.hotLoad "a").hotLoad "b"
  have hends : (hotLoad "b" (hotLoad "a" stocked).state).state.registry.map (·.1) = ["a", "b"] := by
    decide +kernel
  exact ⟨_, hrun, hends, reached_consistent _ _ _ _ _ (Small.loader_sized (by decide) rfl)
    (Small.region_sound _ _) (Small.region_sound _ _) (by decide) hrun⟩

end Manager

end FlashLink
