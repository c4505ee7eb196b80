import FlashLink.Residency.Patcher
import FlashLink.Proofs.Footprints
import FlashLink.Proofs.Twins

/-!
The residency pass over different remains. The pass reads the code sections that it copies and the
variables that it patches, and nothing else of flash and pool. Where two contexts agree on these, it makes
the same copies and trampolines in both and redirects the same pointers, and they agree ever after.
-/

namespace FlashLink.Patcher

open Act

variable {κ : Type}

/-- Contexts in `R` look alike to a pass over the image, and what it does to both leaves them in `R`. -/
structure Blind (image : Image) (R : Context → Context → Prop) : Prop where
  bytes : ∀ {c e}, R c e → ∀ b ∈ image.data, e.pool.bytes b = c.pool.bytes b
  copied : ∀ {c e}, R c e → ∀ q ∈ image.sections, q.cls = .text →
    Sim (copySection q) (copySection q) c e (fun _ => R) fun _ => R
  emitted : ∀ {c e}, R c e → ∀ target base : Addr,
    Sim (zoom Context.trampolinePart (Trampolines.emit target base))
      (zoom Context.trampolinePart (Trampolines.emit target base)) c e (fun _ => R) fun _ => R
  redirected : ∀ {c e}, R c e → ∀ (b : RamBlock) (start : Nat) (data : Bytes),
    R { c with pool := c.pool.overwrite b start data } { e with pool := e.pool.overwrite b start data }

/-- Only code is copied. -/
def OnText (p : Patcher) : Prop :=
  ∀ index, p.stage = .copying index → ∀ q, p.image.sections[index]? = some q → q.cls = .text

/-- Patchers at the same point of a pass over the image. -/
structure Twin (image : Image) (R : Context → Context → Prop) (s t : State κ) : Prop where
  image_eq : s.patcher.image = image
  patcher_eq : t.patcher = s.patcher
  cache_eq : t.cache = s.cache
  related : R s.context t.context

variable {image : Image} {R : Context → Context → Prop} {s t : State κ}

/-- The patchers do the same. -/
lemma Twin.modify (h : Twin image R s t) {p : Patcher} (himage : p.image = s.patcher.image) (k : κ) :
    Twin image R ⟨p, s.context, k⟩ ⟨p, t.context, k⟩ :=
  ⟨himage.trans h.image_eq, rfl, rfl, h.related⟩

lemma trampolineTo_sim (hR : Blind image R) (h : Twin image R s t) (target base : Addr) :
    Sim (trampolineTo target base) (trampolineTo target base) s t
      (fun _ s' t' => Twin image R s' t' ∧ s'.patcher.stage = s.patcher.stage)
      (fun _ s' t' => Twin image R s' t' ∧ s'.patcher = s.patcher) := by
  unfold trampolineTo
  refine Sim.get_bind ?_
  rw [h.patcher_eq]
  rcases s.patcher.made.lookup target with _ | addr <;> dsimp only
  · refine Sim.bind (S := fun _ s' t' => Twin image R s' t' ∧ s'.patcher = s.patcher)
      (G := fun _ s' t' => Twin image R s' t' ∧ s'.patcher = s.patcher) ?_ ?_ fun _ _ _ h => h
    · exact sim_zoom.2 ((hR.emitted h.related target base).mono
        (fun _ _ _ h' => ⟨⟨h.image_eq, h.patcher_eq, h.cache_eq, h'⟩, rfl⟩)
        fun _ _ _ h' => ⟨⟨h.image_eq, h.patcher_eq, h.cache_eq, h'⟩, rfl⟩)
    · rintro addr s' t' ⟨h', hpatcher⟩
      refine Sim.modify_bind (sim_pure.2 ⟨?_, by dsimp only; rw [hpatcher]⟩)
      rw [h'.patcher_eq, h'.cache_eq]
      exact Twin.modify h' (by rfl) _
  · exact sim_pure.2 ⟨h, rfl⟩

/-- The stage that follows is one of code. -/
def Follows (image : Image) (R : Context → Context → Prop) (stage : PatchStage) (s t : State κ) : Prop :=
  Twin image R s t ∧ OnText { s.patcher with stage }

lemma patch_sim (hR : Blind image R) (h : Twin image R s t) (target : PatchTarget) (cursor : Nat) :
    Sim (patch target cursor) (patch target cursor) s t (fun stage => Follows image R stage)
      (fun _ s' t' => Twin image R s' t' ∧ s'.patcher = s.patcher) := by
  unfold patch
  refine Sim.get_bind ?_
  rw [h.patcher_eq, h.image_eq]
  rcases hb : image.data with _ | block <;> dsimp only
  · exact Sim.note_bind (sim_pure.2 ⟨h, fun _ hstage => by cases hstage⟩)
  rw [hR.bytes h.related block hb]
  rcases findWord target (s.context.pool.bytes block) (block.len / 4 - cursor) cursor with
    _ | ⟨i, word, addr⟩ <;> dsimp only
  · exact sim_pure.2 ⟨h, fun _ hstage => by cases hstage⟩
  refine Sim.bind (trampolineTo_sim hR h addr _) ?_ fun _ _ _ h => h
  rintro call s' t' ⟨h', -⟩
  refine Sim.modify_bind (Sim.note_bind (sim_pure.2 ⟨⟨h'.image_eq, ?_, h'.cache_eq,
    hR.redirected h'.related block _ _⟩, fun _ hstage => by cases hstage⟩))
  dsimp only
  rw [h'.patcher_eq]

lemma copy_sim (hR : Blind image R) (h : Twin image R s t) {index : Nat}
    (htext : ∀ q, image.sections[index]? = some q → q.cls = .text) :
    Sim (copy index) (copy index) s t (fun stage => Follows image R stage)
      (fun _ s' t' => Twin image R s' t' ∧ s'.patcher = s.patcher) := by
  unfold copy
  refine Sim.get_bind ?_
  rw [h.patcher_eq, h.image_eq]
  rcases hq : image.sections[index]? with _ | placed <;> dsimp only
  · exact sim_pure.2 ⟨h, fun _ hstage => by cases hstage⟩
  refine Sim.bind (S := fun _ s' t' => Twin image R s' t' ∧ s'.patcher = s.patcher)
    (G := fun _ s' t' => Twin image R s' t' ∧ s'.patcher = s.patcher) ?_ ?_ fun _ _ _ h => h
  · exact sim_zoom.2 ((hR.copied h.related placed (List.mem_of_getElem? hq) (htext placed hq)).mono
      (fun _ _ _ h' => ⟨⟨h.image_eq, h.patcher_eq, h.cache_eq, h'⟩, rfl⟩)
      fun _ _ _ h' => ⟨⟨h.image_eq, h.patcher_eq, h.cache_eq, h'⟩, rfl⟩)
  · rintro dest s' t' ⟨h', -⟩
    refine Sim.modify_bind (sim_pure.2 ⟨?_, fun _ hstage => by cases hstage⟩)
    rw [h'.patcher_eq, h'.cache_eq]
    exact Twin.modify h' (by rfl) _

lemma nextTagged_text {next index : Nat} (h : nextTagged? image next = some index)
    {q : PlacedSection} (hq : image.sections[index]? = some q) : q.cls = .text := by
  unfold nextTagged? at h
  obtain ⟨i, hi, rfl⟩ := Option.map_eq_some_iff.1 h
  obtain ⟨hlt, htagged, -⟩ := List.findIdx?_eq_some_iff_getElem.1 hi
  rw [List.getElem_drop] at htagged
  obtain ⟨_, rfl⟩ := List.getElem?_eq_some_iff.1 hq
  simp only [Bool.and_eq_true, beq_iff_eq] at htagged
  exact htagged.2

variable [CacheControl κ]

lemma finish_sim (h : Twin image R s t) :
    Sim finish finish s t (fun _ s' t' => Twin image R s' t' ∧ s'.patcher = s.patcher)
      (fun _ _ _ => False) := by
  unfold finish
  refine Sim.get_bind ?_
  rw [h.patcher_eq]
  dsimp only
  split_ifs
  · exact ⟨rfl, h, rfl⟩
  · have hcache : ∀ f : κ → κ,
        Twin image R { s with cache := f s.cache } { t with cache := f t.cache } := by
      intro f
      rw [h.patcher_eq, h.cache_eq]
      exact Twin.modify h (by rfl) _
    rcases s.patcher.image.data with _ | block <;> dsimp only
    · exact Sim.modify_bind ⟨rfl, hcache _, rfl⟩
    · exact Sim.modify_bind (Sim.modify_bind ⟨rfl, hcache fun k =>
        CacheControl.invalidateInstructions (CacheControl.flushData block.addr block.len k), rfl⟩)

/-- **A step** goes alike, and so does the next one. -/
lemma step_sim (hR : Blind image R) (h : Twin image R s t) (htext : s.patcher.OnText) :
    Sim step step s t (fun _ s' t' => Twin image R s' t' ∧ s'.patcher.OnText)
      (fun _ s' t' => Twin image R s' t' ∧ s'.patcher = s.patcher) := by
  unfold step
  refine Sim.get_bind ?_
  rw [h.patcher_eq]
  refine Sim.bind (S := fun stage => Follows image R stage)
    (G := fun _ s' t' => Twin image R s' t' ∧ s'.patcher = s.patcher) ?_ ?_ fun _ _ _ h => h
  · rcases hstage : s.patcher.stage with next | index | ⟨target, cursor⟩ | _
    · change Sim (scan next) (scan next) s t _ _
      unfold scan
      refine Sim.get_bind ?_
      rw [h.patcher_eq, h.image_eq]
      rcases hnext : nextTagged? image next with _ | index <;> dsimp only
      · refine Sim.bind (finish_sim h) ?_ fun _ _ _ h => h.elim
        rintro _ s' t' ⟨h', -⟩
        exact sim_pure.2 ⟨h', fun _ hstage => by cases hstage⟩
      · refine sim_pure.2 ⟨h, ?_⟩
        rintro _ ⟨⟩ q hq
        rw [h.image_eq] at hq
        exact nextTagged_text hnext hq
    · exact copy_sim hR h fun q hq => htext index hstage q (by rw [h.image_eq, hq])
    · exact patch_sim hR h target cursor
    · exact sim_pure.2 ⟨h, fun _ hstage => by cases hstage⟩
  · rintro stage s' t' ⟨h', htext'⟩
    refine Sim.modify_bind (sim_pure.2 ⟨?_, htext'⟩)
    rw [h'.patcher_eq, h'.cache_eq]
    exact Twin.modify h' (by rfl) _

lemma steps_sim (hR : Blind image R) (fuel : Nat) (h : Twin image R s t) (htext : s.patcher.OnText) :
    Sim (steps fuel) (steps fuel) s t (fun _ => Twin image R) (fun _ => Twin image R) := by
  induction fuel generalizing s t with
  | zero => exact sim_pure.2 h
  | succ fuel ih =>
    unfold steps
    refine Sim.bind (step_sim hR h htext) ?_ fun _ _ _ h => h.1
    rintro more s' t' ⟨h', htext'⟩
    cases more with
    | false => exact sim_pure.2 h'
    | true => exact ih h' htext'

variable {c e : Context}

/-- **A pass** over contexts that it cannot tell apart answers the same, and does the same. -/
lemma run_sim (hR : Blind image R) (h : R c e) (k : κ) :
    Sim run run ⟨start image, c, k⟩ ⟨start image, e, k⟩ (fun _ => Twin image R)
      (fun _ => Twin image R) := by
  unfold run
  refine Sim.get_bind (Sim.bind (steps_sim hR _ ⟨rfl, rfl, rfl, h⟩ fun _ hstage => by cases hstage) ?_
    fun _ _ _ h => h)
  exact fun _ s' t' h' => Sim.get_bind (sim_pure_of (by rw [h'.patcher_eq]) h')

lemma runOn_sim (hR : Blind image R) (h : R c e) (k : κ) :
    Sim (runOn image) (runOn image) (c, k) (e, k) (fun _ s' t' => R s'.1 t'.1 ∧ t'.2 = s'.2)
      (fun _ s' t' => R s'.1 t'.1 ∧ t'.2 = s'.2) :=
  sim_zoom.2 ((run_sim hR h k).mono (fun _ _ _ h => ⟨h.related, h.cache_eq⟩)
    fun _ _ _ h => ⟨h.related, h.cache_eq⟩)

/-! ### Contexts that agree on all that is allocated -/

variable {n : Nat} {G : Nat → Prop}

/-- Contexts that agree on the image: on all flash that has been allocated, which goes up to `n` and
holds its sections, and on its variables. -/
structure Sees (n : Nat) (G : Nat → Prop) (image : Image) (c e : Context) : Prop extends
  c.Twin (n ≤ ·) G e where
  free_eq : c.xip.nextFree = n
  flash : ∀ q ∈ image.sections, q.cls.isFlash →
    ∃ offset, q.addr = c.xip.address offset ∧ offset + q.size ≤ n
  blocks : ∀ b, image.data = some b ∨ image.bss = some b →
    ∀ k, b.offset ≤ k → k < b.offset + b.len → ¬ G k

namespace Sees

/-- Internal flash is the same on both sides, and so is what becomes of it. -/
lemma resident (h : Sees n G image c e) (t : Trampolines) (r : Region) :
    Sees n G image { c with trampolines := t, iflash := r } { e with trampolines := t, iflash := r } :=
  ⟨⟨⟨h.xip, h.pool⟩, rfl, rfl⟩, h.free_eq, h.flash, h.blocks⟩

lemma iflash (h : Sees n G image c e) (r : Region) :
    Sees n G image { c with iflash := r } { e with iflash := r } :=
  ⟨⟨⟨h.xip, h.pool⟩, rfl, h.trampolines_eq⟩, h.free_eq, h.flash, h.blocks⟩

/-- Reading leaves the regions twins, and allocates nothing. -/
lemma read (h : Sees n G image c e) {F : Nat → Prop} {r r' : Region}
    (hr : r.Twin (n ≤ ·) r') (hwritten : c.xip.Written F r) :
    Sees n G image { c with xip := r } { e with xip := r' } := by
  refine ⟨⟨⟨hr, h.pool⟩, h.iflash_eq, h.trampolines_eq⟩, hwritten.free_eq.trans h.free_eq,
    fun q hq hcls => ?_, h.blocks⟩
  obtain ⟨offset, haddr, hle⟩ := h.flash q hq hcls
  refine ⟨offset, ?_, hle⟩
  rw [haddr, hwritten.address_eq]

/-- A section is found where it is, or below if addresses wrap around. -/
lemma found (h : Sees n G image c e) {q : PlacedSection}
    (hq : q ∈ image.sections) (hcls : q.cls.isFlash) {src : Nat}
    (hsrc : c.xip.offsetOf? q.addr = some src) : src + q.size ≤ n := by
  obtain ⟨offset, haddr, hle⟩ := h.flash q hq hcls
  have hmod : src ≤ offset := by
    unfold Region.offsetOf? at hsrc
    split_ifs at hsrc
    obtain rfl := Option.some.inj hsrc
    rw [haddr, Region.address, UInt32.add_comm, UInt32.add_sub_cancel, UInt32.toNat_ofNat']
    exact Nat.mod_le _ _
  omega

/-- What is copied is read alike. -/
lemma copyFrom_sim (h : Sees n G image c e) {src len : Nat}
    (hle : src + len ≤ n) (dest fuel done : Nat) :
    Op.Sim (copyFrom src dest len fuel done) (copyFrom src dest len fuel done) c e
      (fun _ => Sees n G image) (fun _ => Sees n G image) := by
  induction fuel generalizing done c e with
  | zero => exact Op.sim_pure.2 h
  | succ fuel ih =>
    unfold copyFrom
    split_ifs
    · exact Op.sim_pure.2 h
    refine Op.Sim.bind (S := fun _ => Sees n G image) (G := fun _ => Sees n G image) ?_ ?_
      fun _ _ _ h => h
    · rw [Op.sim_zoom]
      set count := min (len - done) copyBlock with hcount
      have hsim : Op.Sim (Region.read (src + done) count) (Region.read (src + done) count) c.xip
          e.xip _ _ := h.xip.read_sim fun k h1 h2 => by omega
      have hread := hsim.and_sat (Region.read_written (F := fun _ => False) _ _ c.xip)
      exact hread.mono (fun _ _ _ h' => h.read h'.1 h'.2)
        fun _ _ _ h' => h.read h'.1 h'.2
    · intro data c' e' h'
      refine Op.Sim.get_bind ?_
      rw [h'.iflash_eq]
      refine Op.Sim.bind (S := fun _ => Sees n G image) (G := fun _ => Sees n G image) ?_
        (fun _ _ _ h => ih h _) fun _ _ _ h => h
      rw [Op.sim_zoom]
      change Op.Sim _ _ c'.iflash e'.iflash _ _
      rw [h'.iflash_eq]
      refine (Op.sim_same _ _).mono ?_ ?_
      · rintro _ r _ rfl
        exact h'.iflash r
      · rintro _ r _ rfl
        exact h'.iflash r

lemma copySection_sim (h : Sees n G image c e) {s : PlacedSection}
    (hs : s ∈ image.sections) (hcls : s.cls.isFlash) :
    Sim (copySection s) (copySection s) c e (fun _ => Sees n G image) (fun _ => Sees n G image) := by
  unfold copySection
  refine Sim.get_bind ?_
  have hoffset : e.xip.offsetOf? s.addr = c.xip.offsetOf? s.addr := by
    rw [Region.offsetOf?, Region.offsetOf?, h.xip.partition_eq]
  rw [hoffset]
  rcases hsrc : c.xip.offsetOf? s.addr with _ | src <;> dsimp only
  · exact sim_throw.2 h
  refine Sim.bind (S := fun _ => Sees n G image) (G := fun _ => Sees n G image) ?_ ?_
    fun _ _ _ h => h
  · rw [sim_zoom]
    change Sim _ _ c.iflash e.iflash _ _
    rw [h.iflash_eq]
    refine (sim_same _ _).mono ?_ ?_
    · rintro _ r _ rfl
      exact h.iflash r
    · rintro _ r _ rfl
      exact h.iflash r
  · intro dest c' e' h'
    refine Sim.bind (sim_ofOp.2 (copyFrom_sim h' (h.found hs hcls hsrc) _ _ _)) ?_
      fun _ _ _ h => h
    exact fun _ _ _ h'' => Sim.note_bind (sim_pure.2 h'')

/-- A pass cannot tell contexts apart that agree on its image. -/
lemma blind (n : Nat) (G : Nat → Prop) (image : Image) : Blind image (Sees n G image) where
  bytes h b hb := (h.pool.same.slice_eq fun i h1 h2 => h.blocks b (.inl hb) i h1 h2).symm
  copied h _ hq hcls := h.copySection_sim hq (by rw [hcls]; rfl)
  emitted {c e} h target base := by
    have hpart : (Context.trampolinePart e).1 = (Context.trampolinePart c).1 :=
      Prod.ext h.trampolines_eq h.iflash_eq
    rw [sim_zoom, hpart]
    refine (sim_same _ _).mono ?_ ?_
    · rintro _ w _ rfl
      exact h.resident w.1 w.2
    · rintro _ w _ rfl
      exact h.resident w.1 w.2
  redirected h _ _ _ := ⟨⟨⟨h.xip, h.pool.withMem (h.pool.same.overwrite fun _ hi => .inl hi)⟩,
    h.iflash_eq, h.trampolines_eq⟩, h.free_eq, h.flash, h.blocks⟩

end Sees

end FlashLink.Patcher
