import FlashLink.Extension.Descriptor
import FlashLink.Proofs.Calls
import FlashLink.Proofs.Histories

/-!
What running code can do to a context. Whatever no access to a memory can change, no call can change
either, nor can decoding a descriptor. Through the address space, code can only write variables: flash
is only read, and no allocator moves.
-/

namespace FlashLink

/-! ### Invariants of memories -/

namespace Memory

variable {μ : Type} [Memory μ]

/-- No access to the memory changes this. -/
structure Invariant (I : μ → Prop) : Prop where
  read : ∀ {m} addr len, I m → Op.Sat (Memory.read addr len) m (fun _ => I) fun _ => I
  write : ∀ {m} addr data, I m → Op.Sat (Memory.write addr data) m (fun _ => I) fun _ => I

variable {I : μ → Prop}

/-- The memory is in lockstep with itself. -/
lemma Invariant.coupled (hI : Invariant I) : Coupled fun m m' => m = m' ∧ I m where
  read {m m'} addr len h := by
    obtain ⟨rfl, h⟩ := h
    exact ((Op.sim_same _ m).and_sat (hI.read addr len h)).mono (fun _ _ _ h => h) fun _ _ _ h => h
  write {m m'} addr data h := by
    obtain ⟨rfl, h⟩ := h
    exact ((Op.sim_same _ m).and_sat (hI.write addr data h)).mono (fun _ _ _ h => h) fun _ _ _ h => h

lemma Invariant.readWord (hI : Invariant I) {m : μ} (h : I m) (addr : Addr) :
    Op.Sat (Memory.readWord addr) m (fun _ => I) fun _ => I :=
  (hI.read addr 4 h).bind (fun _ _ h => Op.sat_pure.2 h) fun _ _ h => h

lemma Invariant.readText (hI : Invariant I) {m : μ} (h : I m) (addr : Addr) (limit : Nat) :
    Op.Sat (Memory.readText addr limit) m (fun _ => I) fun _ => I := by
  have hfrom : ∀ fuel addr' seen m, I m →
      Op.Sat (Memory.readTextFrom addr limit fuel addr' seen) m (fun _ => I) fun _ => I := by
    intro fuel
    induction fuel with
    | zero => exact fun _ _ _ h => h
    | succ fuel ih =>
      intro addr' seen m h
      unfold Memory.readTextFrom
      refine (hI.read addr' 1 h).bind (fun b m h => ?_) fun _ _ h => h
      dsimp only
      split_ifs
      · split
        · exact h
        · exact h
      · exact ih _ _ m h
  exact hfrom limit addr #[] m h

/-- Decoding a descriptor only reads. -/
lemma Invariant.descriptor (hI : Invariant I) {m : μ} (h : I m) (addr : Addr) :
    Op.Sat (Descriptor.read addr) m (fun _ => I) fun _ => I := by
  have hname : ∀ (a : Addr) m, I m → Op.Sat (Descriptor.readName a) m (fun _ => I) fun _ => I := by
    intro a m h
    unfold Descriptor.readName
    split_ifs
    · exact h
    · exact hI.readText h a maxNameLen
  unfold Descriptor.read
  refine (hI.readWord h _).bind (fun name m h => ?_) fun _ _ h => h
  refine (hI.readWord h _).bind (fun _ m h => ?_) fun _ _ h => h
  refine (hI.readWord h _).bind (fun _ m h => ?_) fun _ _ h => h
  refine (hI.readWord h _).bind (fun _ m h => ?_) fun _ _ h => h
  refine (hI.readWord h _).bind (fun _ m h => ?_) fun _ _ h => h
  exact (hname name m h).bind (fun _ _ h => Op.sat_pure.2 h) fun _ _ h => h

/-- **A call** keeps what no access changes. -/
lemma Invariant.call (hI : Invariant I) {x : Machine μ} (h : I x.mem) (func base : Addr)
    (args : List UInt32) :
    Op.Sat (Machine.call func base args) x (fun _ y => I y.mem) fun _ y => I y.mem := by
  have hrun : ∀ (n : Nat) (pc : Addr) (y : Machine μ), I y.mem →
      Op.Sat (Machine.run n pc) y (fun _ z => I z.mem) fun _ z => I z.mem := by
    intro n pc y hy
    have hlags : Machine.Lags (fun m m' => m = m' ∧ I m) y.cpu.stepLimit 0 y y := ⟨rfl, rfl, hy⟩
    have hlockstep := Machine.run_lockstep hI.coupled hlags pc n
    unfold Op.Sat
    generalize Machine.run n pc y = o at hlockstep ⊢
    rcases o with ⟨v, z⟩ | ⟨e, z⟩
    · exact hlockstep.2.2.2
    · exact hlockstep.2.2.2
  unfold Machine.call
  split_ifs
  · exact Op.Sat.throw_bind h
  · refine Op.Sat.modify_bind (Op.Sat.bind (P := fun _ y => I y.mem) (G := fun _ y => I y.mem) ?_
      (fun pc y hy => Op.Sat.get_bind (hrun _ pc y hy)) fun _ _ h => h)
    unfold Machine.interwork
    split_ifs
    · exact h
    · exact h

end Memory

/-! ### The address space -/

namespace Context

/-- Only variables have changed, and counters of reads. -/
structure Accessed (c c' : Context) : Prop where
  xip : Region.Written (fun _ => False) c.xip c'.xip
  iflash : Region.Written (fun _ => False) c.iflash c'.iflash
  pool : Pool.Changed (fun _ => True) c.pool c'.pool
  trampolines_eq : c'.trampolines = c.trampolines

namespace Accessed

variable {c c' c'' : Context}

lemma refl (c : Context) : Accessed c c := ⟨.refl _ _, .refl _ _, .refl _, rfl⟩

lemma trans (h : Accessed c c') (h' : Accessed c' c'') : Accessed c c'' :=
  ⟨h.1.trans h'.1, h.2.trans h'.2, h.3.trans h'.3, h'.4.trans h.4⟩

lemma sameBoard (h : Accessed c c') : SameBoard c c' :=
  ⟨h.xip.partition_eq, h.xip.sector_eq, h.iflash.partition_eq, h.iflash.sector_eq, h.pool.base_eq,
    h.pool.size_eq⟩

lemma ready (h : Accessed c c') (hc : c.Ready) : c'.Ready := by
  refine ⟨h.xip.sound hc.xip_sound, h.iflash.sound hc.iflash_sound, h.iflash.sector_eq ▸ hc.room,
    fun s hs => ?_⟩
  rw [h.iflash.free_eq, h.iflash.address_eq]
  exact hc.packed s (h.trampolines_eq ▸ hs)

end Accessed

/-- **Running code** can only write variables. -/
lemma accessed_invariant (c : Context) : Memory.Invariant (Accessed c) where
  read {m} addr len h := by
    change Op.Sat (Context.read addr len) m _ _
    unfold Op.Sat Context.read
    rcases m.xip.offsetOf? addr with _ | offset
    · rcases m.iflash.offsetOf? addr with _ | offset
      · rcases m.pool.span? addr len with _ | start
        · exact h
        · exact h
      · exact Op.sat_zoom.2 ((Region.read_written offset len m.iflash).mono
          (fun _ _ hw => h.trans ⟨.refl _ _, hw, .refl _, rfl⟩)
          fun _ _ hw => h.trans ⟨.refl _ _, hw, .refl _, rfl⟩)
    · exact Op.sat_zoom.2 ((Region.read_written offset len m.xip).mono
        (fun _ _ hw => h.trans ⟨hw, .refl _ _, .refl _, rfl⟩)
        fun _ _ hw => h.trans ⟨hw, .refl _ _, .refl _, rfl⟩)
  write {m} addr data h := by
    change Op.Sat (Context.write addr data) m _ _
    unfold Op.Sat Context.write
    split_ifs
    · exact h
    · rcases m.pool.span? addr data.size with _ | start
      · exact h
      · exact h.trans ⟨.refl _ _, .refl _ _, Pool.changed_overwrite fun _ _ _ => trivial, rfl⟩

end Context

end FlashLink
