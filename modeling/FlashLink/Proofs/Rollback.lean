import FlashLink.Proofs.OneShot
import FlashLink.Proofs.Reloading
import FlashLink.Proofs.Repatching
import FlashLink.Proofs.Untouched

/-!
Loading after a rollback. Rolling back gives up what a load has allocated and leaves in place what it
has written, so a later load starts over other remains. It ends as it would have without the first one,
and its sections are the same. But the places between the sections of its data block are written by
nobody, and the residency pass scans them. The first load leaves no trace exactly if it left those
places as they were.
-/

namespace FlashLink

open Act

/-! ### Rolling back -/

namespace Context

variable {K : Nat → Prop} {c c' : Context}

/-- What has only advanced since a checkpoint can be rolled back. -/
lemma Advanced.rollback (h : Advanced K c c') (hxip : c.xip.Sound) (hiflash : c.iflash.Sound) :
    Sat (Context.rollback c.checkpoint) c' (fun _ back => back = c'.rewound c.checkpoint)
      fun _ _ => False := by
  refine rollback_sat h.xip.free_le ?_ h.resident.edited.free_le ?_
  · rw [h.xip.sector_eq]
    exact hxip.free_aligned
  · rw [h.resident.edited.sector_eq]
    exact hiflash.free_aligned

/-- Rolled back, all is as it was, but for what was free. -/
lemma Advanced.twin (h : Advanced (fun _ => False) c c') (hiflash : c'.iflash = c.iflash)
    (htrampolines : c'.trampolines = c.trampolines) (hunarmed : c.xip.Unarmed) :
    c.Twin (c.xip.nextFree ≤ ·) (c.pool.used ≤ ·) (c'.rewound c.checkpoint) := by
  refine ⟨⟨.of_edited h.xip hunarmed, ?_, h.pool.same.mono fun i hi => ⟨by omega, id⟩⟩, ?_, ?_⟩
  · have hbase := h.pool.base_eq
    dsimp only [rewound, checkpoint]
    rw [← hbase]
  · dsimp only [rewound, checkpoint]
    rw [hiflash]
  · exact (if_pos htrampolines).trans htrampolines

end Context

/-! ### The plan of the later load -/

lemma StoredAt.twin {c c' d d' : Context} {F G : Nat → Prop} {q : PlacedSection} {offset : Nat}
    {b : Bytes} (h : StoredAt c d q offset b) (htwin : d.Twin F G d')
    (hfree : c'.xip.nextFree = c.xip.nextFree) (hused : c'.pool.used = c.pool.used)
    (hF : q.cls.isFlash → ∀ k, offset ≤ k → k < offset + q.size → ¬ F k)
    (hG : q.cls.isFlash = false → ∀ k, offset ≤ k → k < offset + q.size → ¬ G k) :
    StoredAt c' d' q offset b := by
  unfold StoredAt at h ⊢
  split_ifs at h ⊢ with hcls
  · rw [hfree, htwin.xip.free_eq, Region.address, htwin.xip.partition_eq,
      htwin.xip.bytes_eq (hF hcls)]
    exact h
  · have hslice := htwin.pool.same.slice_eq (hG (Bool.eq_false_iff.2 hcls))
    rw [hused, htwin.pool.used_eq, htwin.pool.base_eq, ← hslice]
    exact h

namespace Job

/-- What is granted to a context is granted to every one whose allocators stand alike. -/
lemma Granted.alike {o : Object} {space : Reservation} {c e c' : Context} (h : Granted o space c e)
    (ha : Alike c c') : ∃ e', Granted o space c' e' := by
  refine ⟨c'.advanced e.xip.nextFree e.pool.used, fun d => ?_⟩
  have hsim := reserve_sim (j := ⟨d, c⟩) (k := ⟨d, c'⟩) ha o
  have hsat := h d
  unfold Sat at hsat
  rcases hr : reserve o ⟨d, c⟩ with ⟨_ | space', j, es⟩ <;> rw [hr] at hsat
  · exact hsat.elim
  · obtain ⟨rfl, rfl⟩ := hsat
    refine (hsim.of_ok hr).mono ?_ fun _ _ h => h
    rintro _ _ ⟨rfl, n, u, hj, rfl⟩
    obtain ⟨-, rfl⟩ := Job.mk.inj hj
    exact ⟨rfl, rfl⟩

namespace Plan

variable {config : LoaderConfig} {src : Source} {p : Plan} {c d e : Context} {name : String}
  {a : Addr} {k : Nat}

/-- The bytes of the data block that lie between its sections. -/
def Gap (p : Plan) (i : Nat) : Prop :=
  ∃ b ∈ p.space.data, b.ram.offset ≤ i ∧ i < b.ram.offset + b.ram.len ∧ ¬ p.space.Covers i

lemma Settled.alike {c' : Context} (h : p.Settled config src c e) (ha : Alike c c') :
    ∃ e', p.Settled config src c' e' := by
  obtain ⟨e', hgranted⟩ := h.granted.alike ha
  exact ⟨e', h.inspected, hgranted⟩

/-- Every placed section is stored somewhere, and in the pool at places that are written. -/
lemma Settled.stored (h : p.Settled config src c e) (hw : Wrote p.space k e d)
    (hsound : c.xip.Sound) {q : PlacedSection} (hq : q ∈ (p.image name a).sections) :
    ∃ offset b, StoredAt c d q offset b ∧ (q.cls.isFlash = false → ∀ i, offset ≤ i →
      i < offset + q.size → p.space.Covers i) := by
  obtain ⟨hdatas, hbsss, -⟩ := h.reserved.housed
  rcases hcls : q.cls.isFlash with _ | _
  · obtain ⟨s, b, offset, hoffset, hqs, ha, ⟨-, hb⟩ | ⟨-, hb⟩⟩ := h.block_section hq hcls
    · refine ⟨_, _, h.stored_block hw (hdatas b hb) hoffset hqs ha hcls, fun _ i h1 h2 => ?_⟩
      exact .inl ⟨b, hb, _, hoffset, h1, by rw [← hqs.size_eq]; exact h2⟩
    · refine ⟨_, _, h.stored_block hw (hbsss b hb) hoffset hqs ha hcls, fun _ i h1 h2 => ?_⟩
      have hlaid := ((hbsss b hb).laid.mem hoffset).2
      have hsize := hqs.size_eq
      exact .inr ⟨b, hb, by omega, by omega⟩
  · obtain ⟨s, span, hspan, hqs, ha⟩ := h.flash_section hq hcls
    exact ⟨_, _, h.stored_flash hw hsound hspan hqs ha hcls, fun hno => by cases hno⟩

/-- Nobody writes to the gaps. -/
lemma Settled.gap_eq (h : p.Settled config src c e) (hw : Wrote p.space k e d) {i : Nat}
    (hi : p.Gap i) : d.pool.mem[i]? = c.pool.mem[i]? := by
  obtain ⟨b, -, -, -, hcovers⟩ := hi
  rw [← hw.pool.same.get_eq i hcovers, h.reserved.mem_eq]

end Plan

end Job

/-! ### Traces -/

namespace Image

/-- The contexts agree on all flash that has been allocated, and on the variables of the image. -/
structure Agree (image : Image) (c e : Context) : Prop where
  partition_eq : e.xip.partition = c.xip.partition
  free_eq : e.xip.nextFree = c.xip.nextFree
  flash : ∀ offset len, offset + len ≤ c.xip.nextFree →
    e.xip.bytes offset len = c.xip.bytes offset len
  blocks : ∀ b, image.data = some b ∨ image.bss = some b → e.pool.bytes b = c.pool.bytes b
  iflash_eq : e.iflash = c.iflash
  trampolines_eq : e.trampolines = c.trampolines

/-- The contexts agree on the image, a residency pass over the image answers the same in both, and the
contexts that it leaves agree as well. -/
def Untraced (image : Image) (c e : Context) : Prop :=
  image.Agree c e ∧ ∀ {κ : Type} [CacheControl κ] (cache : κ),
    (Patcher.runOn image (e, cache)).result = (Patcher.runOn image (c, cache)).result ∧
      (Patcher.runOn image (e, cache)).state.2 = (Patcher.runOn image (c, cache)).state.2 ∧
      image.Agree (Patcher.runOn image (c, cache)).state.1 (Patcher.runOn image (e, cache)).state.1

end Image

namespace Patcher

variable {n : Nat} {G : Nat → Prop} {image : Image} {c e : Context}

lemma Sees.agree (h : Sees n G image c e) : image.Agree c e := by
  refine ⟨h.xip.partition_eq, h.xip.free_eq, fun offset len hle => ?_, fun b hb => ?_, h.iflash_eq,
    h.trampolines_eq⟩
  · refine h.xip.bytes_eq fun k _ _ => ?_
    have := h.free_eq
    omega
  · exact (h.pool.same.slice_eq (h.blocks b hb)).symm

lemma Sees.untraced (h : Sees n G image c e) : image.Untraced c e := by
  refine ⟨h.agree, fun cache => ?_⟩
  have hsim := runOn_sim (Sees.blind n G image) h cache
  exact ⟨hsim.result_eq, hsim.states.2, hsim.states.1.agree⟩

end Patcher

namespace Job.Plan

variable {config : LoaderConfig} {src : Source} {p : Plan} {c d d' e : Context} {name : String}
  {a : Addr} {k : Nat}

/-- Where the gaps agree, the image is seen alike. -/
lemma Settled.sees (h : p.Settled config src c e) (hw : Wrote p.space k e d) (hsound : c.xip.Sound)
    (htwin : d.Twin (d.xip.nextFree ≤ ·) (fun i => c.pool.used ≤ i ∧ ¬ p.space.Covers i) d')
    (hgap : ∀ i, p.Gap i → d'.pool.mem[i]? = d.pool.mem[i]?) :
    Patcher.Sees d.xip.nextFree
      (fun i => c.pool.used ≤ i ∧ ¬ p.space.Covers i ∧ ¬ p.Gap i) (p.image name a) d d' := by
  refine ⟨⟨⟨htwin.xip, htwin.pool.eq, htwin.pool.same.size_eq, fun i hi => ?_⟩, htwin.iflash_eq,
    htwin.trampolines_eq⟩, rfl, fun q hq hcls => ?_, ?_⟩
  · by_cases hg : p.Gap i
    · exact (hgap i hg).symm
    · exact htwin.pool.same.get_eq i fun hi' => hi ⟨hi'.1, hi'.2, hg⟩
  · obtain ⟨offset, b, hstored, -⟩ := h.stored hw hsound hq
    rw [StoredAt, if_pos hcls] at hstored
    exact ⟨offset, hstored.2.2.1, hstored.2.1⟩
  · rintro b (hb | hb) i h1 h2 ⟨-, hcovers, hg⟩
    · obtain ⟨b, hmem, rfl⟩ := Option.map_eq_some_iff.1 hb
      exact hg ⟨b, hmem, h1, h2, hcovers⟩
    · obtain ⟨b, hmem, rfl⟩ := Option.map_eq_some_iff.1 hb
      exact hcovers (.inr ⟨b, hmem, h1, h2⟩)

/-- Contexts that agree on the image agree on its gaps. -/
lemma gap_of_agree (h : (p.image name a).Agree d d') {i : Nat} (hi : p.Gap i) :
    d'.pool.mem[i]? = d.pool.mem[i]? := by
  obtain ⟨b, hb, h1, h2, -⟩ := hi
  have hbytes := congrArg (·[i - b.ram.offset]?)
    (h.blocks b.ram (.inl (Option.map_eq_some_iff.2 ⟨b, hb, rfl⟩)))
  dsimp only [Pool.bytes] at hbytes
  rw [Bytes.getElem?_slice, Bytes.getElem?_slice, if_pos (by omega), if_pos (by omega),
    Nat.add_sub_cancel' h1] at hbytes
  exact hbytes

/-- Two loads with one plan differ in nothing exactly if the gaps of the data block agreed before. -/
lemma Settled.untraced_iff {c' e' : Context} {k' : Nat} (h : p.Settled config src c e)
    (hw : Wrote p.space k e d) (h' : p.Settled config src c' e') (hw' : Wrote p.space k' e' d')
    (hsound : c.xip.Sound)
    (htwin : d.Twin (d.xip.nextFree ≤ ·) (fun i => c.pool.used ≤ i ∧ ¬ p.space.Covers i) d') :
    (p.image name a).Untraced d d' ↔ ∀ i, p.Gap i → c'.pool.mem[i]? = c.pool.mem[i]? := by
  constructor
  · intro huntraced i hi
    rw [← h'.gap_eq hw' hi, ← h.gap_eq hw hi]
    exact gap_of_agree huntraced.1 hi
  · intro hgaps
    refine (h.sees hw hsound htwin fun i hi => ?_).untraced
    rw [h'.gap_eq hw' hi, h.gap_eq hw hi, hgaps i hi]

end Job.Plan

/-! ### Loading after a rollback -/

namespace Loader

open Job

variable {l : Loader} {a b : Source} {c back : Context} {first name firstEntry entry : String}
  {firstExports exports : Lookup} {s t t' : State} {es es' fs fs' : List Event}
  {outcome answer answer' : Except Error Image} {undone : Except Error PUnit}

/-- What a load leaves behind that is rolled back: a good loader, and other remains in what is free. -/
lemma rolledBack (hl : l.Sized) (hsound : c.xip.Sound) (hunarmed : c.xip.Unarmed)
    (hiflash : c.iflash.Sound)
    (hload : load first firstExports firstEntry ⟨l, a, c⟩ = ⟨outcome, s, es⟩)
    (hback : Context.rollback c.checkpoint s.context = ⟨undone, back, es'⟩) :
    undone = .ok () ∧ (s.loader.config = l.config ∧ s.loader.Sized) ∧
      back.pool.mem = s.context.pool.mem ∧
      c.Twin (c.xip.nextFree ≤ ·) (c.pool.used ≤ ·) back := by
  have hallocates : Sat (load first firstExports firstEntry) ⟨l, a, c⟩ _ _ := load_allocates hl
  have hresident : Sat (load first firstExports firstEntry) ⟨l, a, c⟩ _ _ := load_resident
  have hsized : Sat (load first firstExports firstEntry) ⟨l, a, c⟩ _ _ := load_sized hl
  have hadvanced := (hallocates.mono (fun _ _ h => h.1) fun _ _ h => h).state
  have hresident := hresident.state
  have hsized := hsized.state
  rw [hload] at hadvanced hresident hsized
  have hrewound := hadvanced.rollback hsound hiflash
  rcases undone with e | ⟨⟩
  · exact (hrewound.of_error hback).elim
  obtain rfl := hrewound.of_ok hback
  exact ⟨rfl, hsized, rfl, hadvanced.twin hresident.1 hresident.2 hunarmed⟩

/-- **A load that is rolled back** changes neither what the next load answers nor the sections that it
stores. Nothing at all tells the two apart, not even a residency pass, exactly if the first load left
the gaps of the data block as they were. -/
theorem load_after_rollback (hl : l.Sized) (hsound : c.xip.Sound) (hunarmed : c.xip.Unarmed)
    (hiflash : c.iflash.Sound)
    (hfirst : load first firstExports firstEntry ⟨l, a, c⟩ = ⟨outcome, s, es⟩)
    (hback : Context.rollback c.checkpoint s.context = ⟨undone, back, es'⟩)
    (hdirect : load name exports entry ⟨l, b, c⟩ = ⟨answer, t, fs⟩)
    (hlater : load name exports entry ⟨s.loader, b, back⟩ = ⟨answer', t', fs'⟩) :
    undone = .ok () ∧ answer' = answer ∧ ∀ image, answer = .ok image →
      (∀ q ∈ image.sections, ∃ offset bytes, StoredAt c t.context q offset bytes ∧
        StoredAt back t'.context q offset bytes) ∧
      ∃ p e, Plan.Settled l.config b c e p ∧ image = p.image name image.entry ∧
        (image.Untraced t.context t'.context ↔
          ∀ i, p.Gap i → s.context.pool.mem[i]? = c.pool.mem[i]?) := by
  obtain ⟨hundone, hsized, hmem, htwin⟩ := rolledBack hl hsound hunarmed hiflash hfirst hback
  -- the next load
  have hsim : Sim (load name exports entry) (load name exports entry) ⟨l, b, c⟩
      ⟨s.loader, b, back⟩ _ _ := load_sim hsized.1 rfl hl hsized.2 hsound htwin
  have hanswer := hsim.result_eq
  rw [hdirect, hlater] at hanswer
  refine ⟨hundone, hanswer, ?_⟩
  rintro image rfl
  dsimp only at hanswer
  subst hanswer
  obtain ⟨-, p, e, hp, himage, hw⟩ := (load_allocates (s := ⟨l, b, c⟩) hl).of_ok hdirect
  obtain ⟨-, p', e', hp', -, hw'⟩ := (load_allocates (s := ⟨s.loader, b, back⟩) hsized.2).of_ok
    hlater
  have hends := hsim.of_result (a := image) (by rw [hdirect])
  rw [hdirect, hlater] at hends
  dsimp only at hends
  obtain ⟨p₂, e₂, hp₂, hends⟩ := hends
  -- it has the same plan either way
  obtain ⟨rfl, rfl⟩ := hp.unique hp₂
  obtain ⟨e₃, hp₃⟩ := hp.alike htwin.alike
  rw [hsized.1] at hp'
  obtain ⟨rfl, rfl⟩ := hp₃.unique hp'
  obtain ⟨addr, rfl⟩ : ∃ addr, image = p.image name addr := ⟨_, himage⟩
  refine ⟨fun q hq => ?_, p, e, hp, rfl, ?_⟩
  · obtain ⟨offset, bytes, hstored, hcovers⟩ := hp.stored hw hsound hq
    refine ⟨offset, bytes, hstored, hstored.twin hends htwin.xip.free_eq htwin.pool.used_eq ?_
      fun hcls i h1 h2 hi => hi.2 (hcovers hcls i h1 h2)⟩
    intro hcls k _ h2 hk
    rw [StoredAt, if_pos hcls] at hstored
    omega
  · rw [hp.untraced_iff hw hp' hw' hsound hends, hmem]

/-- Two variables, the second of which is the address of resident code. There is nothing to enter. -/
def staleObject : Bytes := Small.object
  (Small.ofWords [0, 0x10000001, 0, 0, 0, 0] ++ (Bytes.ofText "\x00.data\x00").toList)
  [.replicate 10 0, [1, 1, 3, 0, 52, 8, 0, 0, 4, 0], [0, 2, 0, 0, 60, 16, 3, 0, 4, 16],
    [0, 3, 0, 0, 76, 7, 0, 0, 1, 0]]

/-- Resident code, and two variables with a word between them. -/
def gappedObject : Bytes := Small.object
  (Small.ofWords [0x4770, 1, 2, 0, 0, 0, 0, 1, 1, 0, 0x10012] ++
    (Bytes.ofText "\x00e\x00.text.iflash\x00.data\x00").toList)
  [.replicate 10 0, [3, 1, 6, 0, 52, 4, 0, 0, 4, 0], [16, 1, 3, 0, 56, 4, 0, 0, 4, 0],
    [16, 1, 3, 0, 60, 4, 0, 0, 8, 0], [0, 2, 0, 0, 64, 32, 5, 1, 4, 16],
    [0, 3, 0, 0, 96, 22, 0, 0, 1, 0]]

/-- Loading on the small board, after another load there has been rolled back. -/
def loadAgain (first file : Bytes) : Outcome State Image :=
  let s := (Small.load 32 first Small.context).state
  load "m" (fun _ => none) "e" ⟨s.loader, .ofBytes "m" file,
    (Context.rollback Small.context.checkpoint s.context).state⟩

/-- How many pointers a residency pass redirects after a load. -/
def redirected (loaded : Outcome State Image) : Option Nat := do
  let image ← loaded.result.toOption
  let report ← (Patcher.runOn image (loaded.state.context, ())).result.toOption
  return report.pointersPatched

/-- The word that the failed load has left between the variables counts as one of them. -/
theorem load_after_rollback_gappedObject :
    ∃ image t fs t' fs',
      (Small.load 32 staleObject Small.context).result = .error (.entryNotFound "e") ∧
      Small.load 32 gappedObject Small.context = ⟨.ok image, t, fs⟩ ∧
      loadAgain staleObject gappedObject = ⟨.ok image, t', fs'⟩ ∧
      ¬ image.Untraced t.context t'.context ∧
      redirected (Small.load 32 gappedObject Small.context) = some 0 ∧
      redirected (loadAgain staleObject gappedObject) = some 1 := by
  obtain ⟨image, t, fs, hdirect⟩ := exists_ok
    (o := Small.load 32 gappedObject Small.context) (by decide +kernel)
  have hfailed : (Small.load 32 staleObject Small.context).result = .error (.entryNotFound "e") := by
    decide +kernel
  have hnone : redirected (Small.load 32 gappedObject Small.context) = some 0 := by decide +kernel
  have hone : redirected (loadAgain staleObject gappedObject) = some 1 := by decide +kernel
  rcases hlater : loadAgain staleObject gappedObject with ⟨answer', t', fs'⟩
  rcases hfirst : Small.load 32 staleObject Small.context with ⟨outcome, s, es⟩
  rcases hback : Context.rollback Small.context.checkpoint s.context with ⟨undone, back, es'⟩
  have hagain := hlater
  rw [loadAgain, hfirst, hback] at hagain
  obtain ⟨-, rfl, -⟩ := load_after_rollback (c := Small.context)
    (Small.loader_sized (by decide) rfl) (Small.region_sound _ _) rfl (Small.region_sound _ _)
    hfirst hback hdirect hagain
  refine ⟨image, t, fs, t', fs', hfirst ▸ hfailed, hdirect, rfl, fun h => ?_, hnone, hlater ▸ hone⟩
  have hsame := (h.2 ()).1
  rw [hdirect] at hnone
  rw [hlater] at hone
  unfold redirected at hnone hone
  dsimp only [Except.toOption, Option.bind_eq_bind, Option.bind_some] at hnone hone
  rw [hsame, hnone] at hone
  cases hone

end Loader

end FlashLink
