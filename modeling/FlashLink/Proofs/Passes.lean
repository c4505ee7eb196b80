import FlashLink.Residency.Patcher
import FlashLink.Proofs.Logic

/-!
Rules for a residency pass. What is proved of a pass is proved of what it does to the regions: of reserving,
reading and writing them. All that surrounds these operations is taken apart here, once, from a single
record up to the whole pass: each rule asks of the first operation for what it leaves to the ones after it.
-/

namespace FlashLink

open Act

/-! ### Records -/

namespace Trampolines

variable {t : Trampolines} {r : Region} {G : Error → Trampolines × Region → Prop}

/-- The sector has room for another record, or the next one is erased. -/
lemma sectorWithRoom_rule {P : FlashSpan → Trampolines × Region → Prop}
    (hroom : ∀ s, t.room? = some s → P s (t, r))
    (hfresh : t.room? = none → Sat (Region.reserveErased r.sector) r
      (fun s r' => P s ({ t with sector := some s, used := 0 }, r')) fun e r' => G e (t, r')) :
    Sat sectorWithRoom (t, r) P G := by
  unfold sectorWithRoom
  refine Sat.get_bind ?_
  rcases hs : t.room? with _ | s <;> dsimp only
  · refine Sat.seq (sat_zoom.2 (Sat.get_bind ((hfresh hs).mono (fun s r' h => ?_) fun _ _ h => h)))
    exact Sat.note_bind (Sat.modify_bind (sat_pure.2 h))
  · exact sat_pure.2 (hroom s hs)

lemma emit_rule {target base : Addr} {P : Addr → Trampolines × Region → Prop}
    (h : Sat sectorWithRoom (t, r)
      (fun s w => Op.Sat (Region.write (s.offset + w.1.used) (Record.bytes target base)) w.2
        (fun _ r' => P ((s.addr + UInt32.ofNat w.1.used) ||| 1)
          ({ w.1 with used := w.1.used + Record.width, created := w.1.created + 1 }, r'))
        fun e r' => G e (w.1, r')) G) :
    Sat (emit target base) (t, r) P G := by
  unfold emit
  refine Sat.seq (h.mono (fun s w hwrite => ?_) fun _ _ h => h)
  refine Sat.get_bind (Sat.seq (sat_zoom.2 (sat_ofOp.2 (hwrite.mono (fun _ r' h => ?_) fun _ _ h => h))))
  exact Sat.modify_bind (Sat.note_bind (sat_pure.2 h))

end Trampolines

namespace Patcher

/-! ### Copying -/

section Copying

variable {c : Context} {G : Error → Context → Prop}

/-- From `done` on there is nothing left to copy, or one block is read and written, and then the rest. -/
lemma copyFrom_rule {src dest len fuel done : Nat} {P : Unit → Context → Prop}
    (hover : len ≤ done → P () c)
    (hblock : done < len → Op.Sat (Region.read (src + done) (min (len - done) copyBlock)) c.xip
      (fun data r => Op.Sat (Region.write (dest + done) (data ++ Array.replicate
          (alignUp (min (len - done) copyBlock) wordSize - min (len - done) copyBlock)
          c.iflash.device.reported)) c.iflash
        (fun _ r' => Op.Sat (copyFrom src dest len fuel (done + min (len - done) copyBlock))
          { c with xip := r, iflash := r' } P G)
        fun e r' => G e { c with xip := r, iflash := r' })
      fun e r => G e { c with xip := r }) :
    Op.Sat (copyFrom src dest len (fuel + 1) done) c P G := by
  unfold copyFrom
  split_ifs with hle
  · exact Op.sat_pure.2 (hover hle)
  refine Op.Sat.seq (Op.sat_zoom.2 ((hblock (Nat.not_le.1 hle)).mono (fun data r hwrite => ?_)
    fun _ _ h => h))
  exact Op.Sat.get_bind (Op.Sat.seq (Op.sat_zoom.2 hwrite))

/-- A section outside of XIP flash is refused. Any other is copied to a span that is erased before. -/
lemma copySection_rule {q : PlacedSection} {P : FlashSpan → Context → Prop}
    (hnone : c.xip.offsetOf? q.addr = none → G (.flash (.notInXip q.name q.addr)) c)
    (hsome : ∀ src, c.xip.offsetOf? q.addr = some src → Sat (Region.reserveErased q.size) c.iflash
      (fun dest r => Op.Sat (copyFrom src dest.offset q.size q.size 0) { c with iflash := r }
        (fun _ => P dest) G)
      fun e r => G e { c with iflash := r }) :
    Sat (copySection q) c P G := by
  unfold copySection
  refine Sat.get_bind ?_
  rcases hsrc : c.xip.offsetOf? q.addr with _ | src <;> dsimp only
  · exact sat_throw.2 (hnone hsrc)
  refine Sat.seq (sat_zoom.2 ((hsome src hsrc).mono (fun dest r hcopy => ?_) fun _ _ h => h))
  exact (sat_ofOp.2 hcopy).bind (fun _ _ h => Sat.note_bind (sat_pure.2 h)) fun _ _ h => h

end Copying

variable {κ : Type} {s : State κ} {G : Error → State κ → Prop}

lemma copy_rule {index : Nat} {P : PatchStage → State κ → Prop}
    (hnone : s.patcher.image.sections[index]? = none → P .done s)
    (hsome : ∀ q, s.patcher.image.sections[index]? = some q → Sat (copySection q) s.context
      (fun dest c => P (.patching ⟨index, q.addr, dest.addr, q.size⟩ 0)
        { s with
          patcher.report.copies := s.patcher.report.copies ++ [⟨q.name, q.addr, dest.addr, q.size⟩]
          patcher.report.bytesCopied := s.patcher.report.bytesCopied + q.size
          context := c })
      fun e c => G e { s with context := c }) :
    Sat (copy index) s P G := by
  unfold copy
  refine Sat.get_bind ?_
  rcases hq : s.patcher.image.sections[index]? with _ | q <;> dsimp only
  · exact sat_pure.2 (hnone hq)
  · refine Sat.seq (sat_zoom.2 ((hsome q hq).mono (fun dest c h => ?_) fun _ _ h => h))
    exact Sat.modify_bind (sat_pure.2 h)

/-! ### Patching -/

/-- A trampoline that was made before is used again. -/
lemma trampolineTo_rule {target base : Addr} {P : Addr → State κ → Prop}
    (hmade : ∀ addr, s.patcher.made.lookup target = some addr → P addr s)
    (hnew : s.patcher.made.lookup target = none →
      Sat (zoom Context.trampolinePart (Trampolines.emit target base)) s.context
        (fun addr c => P addr
          { s with
            patcher.made := (target, addr) :: s.patcher.made
            patcher.report.trampolines := s.patcher.report.trampolines + 1
            context := c })
        fun e c => G e { s with context := c }) :
    Sat (trampolineTo target base) s P G := by
  unfold trampolineTo
  refine Sat.get_bind ?_
  rcases haddr : s.patcher.made.lookup target with _ | addr <;> dsimp only
  · refine Sat.seq (sat_zoom.2 ((hnew haddr).mono (fun addr c h => ?_) fun _ _ h => h))
    exact Sat.modify_bind (sat_pure.2 h)
  · exact sat_pure.2 (hmade addr haddr)

/-- There are no variables, no word is left that points into the section, or the next such word is
redirected. -/
lemma patch_rule {t : PatchTarget} {cursor : Nat} {P : PatchStage → State κ → Prop}
    (hbare : s.patcher.image.data = none → P (.scanning (t.index + 1)) s)
    (hnone : ∀ b, s.patcher.image.data = some b →
      findWord t (s.context.pool.bytes b) (b.len / 4 - cursor) cursor = none →
      P (.scanning (t.index + 1)) s)
    (hsome : ∀ b i word target, s.patcher.image.data = some b →
      findWord t (s.context.pool.bytes b) (b.len / 4 - cursor) cursor = some (i, word, target) →
      Sat (trampolineTo target s.patcher.image.gotBase) s
        (fun addr s' => P (.patching t (i + 1))
          { s' with
            patcher.report.pointersPatched := s'.patcher.report.pointersPatched + 1
            context.pool := s'.context.pool.overwrite b (4 * i) (Bytes.ofU32 addr) }) G) :
    Sat (patch t cursor) s P G := by
  unfold patch
  refine Sat.get_bind ?_
  rcases hb : s.patcher.image.data with _ | b <;> dsimp only
  · exact Sat.note_bind (sat_pure.2 (hbare hb))
  rcases hfind : findWord t (s.context.pool.bytes b) (b.len / 4 - cursor) cursor with
    _ | ⟨i, word, target⟩ <;> dsimp only
  · exact sat_pure.2 (hnone b hb hfind)
  · refine Sat.seq ((hsome b i word target hb hfind).mono (fun addr s' h => ?_) fun _ _ h => h)
    exact Sat.modify_bind (Sat.note_bind (sat_pure.2 h))

variable [CacheControl κ]

/-! ### The last stage -/

lemma finish_sat (s : State κ) :
    Sat finish s (fun _ s' => s'.patcher = s.patcher ∧ s'.context = s.context) fun _ _ => False := by
  unfold finish
  refine Sat.get_bind ?_
  dsimp only
  split_ifs
  · exact ⟨rfl, rfl⟩
  · rcases s.patcher.image.data with _ | block <;> dsimp only
    · exact Sat.modify_bind ⟨rfl, rfl⟩
    · exact Sat.modify_bind (Sat.modify_bind ⟨rfl, rfl⟩)

/-- The next section is found, or there is none and the pass is finished. -/
lemma scan_rule {next : Nat} {P : PatchStage → State κ → Prop}
    (hfound : ∀ index, nextTagged? s.patcher.image next = some index → P (.copying index) s)
    (hnone : nextTagged? s.patcher.image next = none → Sat finish s (fun _ => P .done) G) :
    Sat (scan next) s P G := by
  unfold scan
  refine Sat.get_bind ?_
  rcases hnext : nextTagged? s.patcher.image next with _ | index <;> dsimp only
  · exact (hnone hnext).bind (fun _ _ h => sat_pure.2 h) fun _ _ h => h
  · exact sat_pure.2 (hfound index hnext)

/-! ### Steps -/

lemma step_rule {P : Bool → State κ → Prop}
    (h : Sat (advance s.patcher.stage) s
      (fun stage s' => P (stage ≠ .done) { s' with patcher.stage := stage }) G) : Sat step s P G := by
  unfold step
  exact Sat.get_bind (h.bind (fun _ _ h' => Sat.modify_bind (sat_pure.2 h')) fun _ _ h' => h')

/-- What every step keeps is kept by any number of steps. -/
lemma steps_rule {I : State κ → Prop}
    (hstep : ∀ s, I s → Sat step s (fun _ => I) G) (n : Nat) (h : I s) :
    Sat (steps n) s (fun _ => I) G := by
  induction n generalizing s with
  | zero => exact sat_pure.2 h
  | succ n ih =>
    unfold steps
    refine (hstep s h).bind (fun more s' h' => ?_) fun _ _ h' => h'
    cases more with
    | false => exact sat_pure.2 h'
    | true => exact ih h'

/-- Steps that come nearer to the end reach it, if there are enough of them. -/
lemma steps_end_rule {I D : State κ → Prop} {m : State κ → Nat}
    (hstep : ∀ s, I s → Sat step s (fun more s' => if more then I s' ∧ m s' < m s else D s') G)
    (hend : ∀ s, I s → m s = 0 → D s) (n : Nat) (h : I s) (hn : m s ≤ n) :
    Sat (steps n) s (fun _ => D) G := by
  induction n generalizing s with
  | zero => exact sat_pure.2 (hend s h (Nat.le_zero.1 hn))
  | succ n ih =>
    unfold steps
    refine (hstep s h).bind (fun more s' h' => ?_) fun _ _ h' => h'
    cases more with
    | false => exact sat_pure.2 h'
    | true =>
      obtain ⟨hnext, hless⟩ := h'
      exact ih hnext (by omega)

/-! ### A whole pass -/

lemma run_rule {P : ResidencyReport → State κ → Prop}
    (h : Sat (steps (fuel s.patcher.image)) s (fun _ s' => P s'.patcher.report s') G) : Sat run s P G := by
  unfold run
  exact Sat.get_bind (h.bind (fun _ _ h' => Sat.get_bind (sat_pure.2 h')) fun _ _ h' => h')

lemma runOn_rule {image : Image} {c : Context} {k : κ} {P : ResidencyReport → Context × κ → Prop}
    {G : Error → Context × κ → Prop}
    (h : Sat (steps (fuel image)) ⟨start image, c, k⟩
      (fun _ s' => P s'.patcher.report (s'.context, s'.cache)) fun e s' => G e (s'.context, s'.cache)) :
    Sat (runOn image) (c, k) P G := by
  unfold runOn
  exact sat_zoom.2 (run_rule h)

end Patcher

end FlashLink
