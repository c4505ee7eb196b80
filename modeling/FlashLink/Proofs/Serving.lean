import FlashLink.Proofs.Mirroring

/-!
A context that is reset is as good as new.

A service is a context that takes requests one after the other: to load a module, to make an image
resident that it has loaded before, to make a trampoline. After a reset, flash still holds what the
modules of old have left there, and a fresh device holds something else. The services over both answer
every request alike, and hold the same bytes wherever an answer says that something is.
-/

namespace FlashLink

open Act

/-! ### Places that have been handed out -/

namespace Region

/-- The regions hold the same `len` bytes at an address of the first that has been handed out. -/
def AgreesAt (r s : Region) (addr : Addr) (len : Nat) : Prop :=
  ∃ offset, addr = r.address offset ∧ offset + len ≤ r.nextFree ∧ s.bytes offset len = r.bytes offset len

/-- The address is that of a record among what has been handed out, with the Thumb bit. -/
def RecordTaken (r : Region) (addr : Addr) : Prop :=
  ∃ offset, addr = r.address offset ||| 1 ∧ offset + Record.width ≤ r.nextFree

lemma RecordTaken.grown {F : Nat → Prop} {r r' : Region} {addr : Addr} (h : r.RecordTaken addr)
    (hr : Edited F r r') : r'.RecordTaken addr := by
  obtain ⟨offset, haddr, hle⟩ := h
  exact ⟨offset, by rw [hr.address_eq, haddr], Nat.le_trans hle hr.free_le⟩

end Region

lemma Trampolines.RecordAt.recordTaken {t : Trampolines} {r : Region} {addr : Addr} {offset : Nat}
    (h : t.RecordAt r addr offset) (hp : t.Packed r) : r.RecordTaken addr := by
  obtain ⟨s, hs, hoffset, hused, haddr⟩ := h
  have hend := (hp s hs).1
  exact ⟨offset, haddr, by omega⟩

namespace Patcher

/-- The copies and the records of the pass have been handed out. -/
structure Housed (p : Patcher) (r : Region) : Prop where
  copies : ∀ copy ∈ p.report.copies, ∃ offset, copy.iflash = r.address offset ∧
    offset + copy.size ≤ r.nextFree
  records : ∀ made ∈ p.made, r.RecordTaken made.2

lemma Housed.grown {F : Nat → Prop} {p : Patcher} {r r' : Region} (h : p.Housed r)
    (hr : Region.Edited F r r') : p.Housed r' := by
  refine ⟨fun copy hcopy => ?_, fun made hmade => (h.records made hmade).grown hr⟩
  obtain ⟨offset, haddr, hle⟩ := h.copies copy hcopy
  exact ⟨offset, by rw [hr.address_eq, haddr], Nat.le_trans hle hr.free_le⟩

variable {κ : Type} {s s' : State κ}

lemma Housed.stepped (h : s.patcher.Housed s.context.iflash) (hs : Stepped s s')
    (hc : s.context.Ready) : s'.patcher.Housed s'.context.iflash := by
  have hgrown := h.grown hs.advanced.resident.edited
  refine ⟨fun copy hcopy => ?_, fun made hmade => ?_⟩
  · rcases hs.copies with hsame | ⟨new, offset, hnew, -, hend, haddr, -⟩
    · exact hgrown.copies copy (hsame ▸ hcopy)
    · rw [hnew] at hcopy
      rcases List.mem_append.1 hcopy with hold | hlast
      · exact hgrown.copies copy hold
      · obtain rfl := List.mem_singleton.1 hlast
        exact ⟨offset, haddr, hend⟩
  · rcases hs.made with hsame | ⟨target, addr, offset, hnew, hrecord⟩
    · exact hgrown.records made (hsame ▸ hmade)
    · rw [hnew] at hmade
      rcases List.mem_cons.1 hmade with rfl | hold
      · exact hrecord.recordTaken (hs.advanced.ready hc).packed
      · exact hgrown.records made hold

variable [CacheControl κ]

/-- What a pass has made so far is handed out, however it ends. -/
lemma steps_housed (n : Nat) (hc : s.context.Ready) (h : s.patcher.Housed s.context.iflash) :
    Sat (steps n) s (fun _ s' => s'.patcher.Housed s'.context.iflash)
      (fun _ s' => s'.patcher.Housed s'.context.iflash) := by
  refine steps_ready_rule (I := fun s => s.patcher.Housed s.context.iflash)
    (fun s s' h hc hs => h.stepped hs hc) (fun s s' h _ hs => ?_) n hc h
  rw [hs.patcher_eq]
  exact h.grown hs.advanced.resident.edited

lemma run_housed {c : Context} (hc : c.Ready) (image : Image) (k : κ) :
    Sat run ⟨start image, c, k⟩
      (fun _ s' => Context.Advanced (Patched image) c s'.context ∧ s'.patcher.Housed s'.context.iflash)
      (fun _ s' => Context.Advanced (Patched image) c s'.context ∧ s'.patcher.Housed s'.context.iflash) := by
  have hnone : (start image).Housed c.iflash := by
    constructor <;> rintro _ ⟨⟩
  exact run_rule ((steps_advanced _ hc).and (steps_housed _ hc hnone))

end Patcher

/-! ### Requests -/

/-- What a context can be asked to do. -/
inductive Request where
  | load (loader : Loader) (source : Source) (name : String) (exports : Lookup) (entry : String)
  /-- A residency pass over the image that the answer at this place of the log is about. -/
  | patch (index : Nat)
  | emit (target base : Addr)

/-- What has come of a request. -/
inductive Answer where
  | loaded (result : Except Error Image)
  /-- How the pass ended, and all that it has made on the way. -/
  | patched (result : Except Error ResidencyReport) (patcher : Patcher)
  | made (result : Except Error Addr)

/-- The requests are the same, to loaders that differ in nothing but what is left in their buffers. -/
inductive Request.Alike : Request → Request → Prop
  | load {l l' : Loader} (hconfig : l'.config = l.config) (hl : l.Sized) (hl' : l'.Sized)
    (source : Source) (name : String) (exports : Lookup) (entry : String) :
    Alike (.load l source name exports entry) (.load l' source name exports entry)
  | patch (index : Nat) : Alike (.patch index) (.patch index)
  | emit (target base : Addr) : Alike (.emit target base) (.emit target base)

/-- A context at work, with the caches of the machine and all answers so far. -/
structure Service (κ : Type) where
  context : Context
  cache : κ
  log : List Answer

namespace Answer

/-- What the answer tells of has been handed out, and is not at the offsets `F` of flash. -/
def Lasts (F : Nat → Prop) (c : Context) : Answer → Prop
  | loaded (.ok image) => image.ClearOf F c
  | patched _ p => p.Housed c.iflash
  | made (.ok addr) => c.iflash.RecordTaken addr
  | loaded (.error _) | made (.error _) => True

/-- Both contexts hold the same bytes wherever the answer says that there is something: code and
constants, copies, and records. -/
def Agrees (c e : Context) : Answer → Prop
  | loaded (.ok image) => ∀ q ∈ image.sections, q.cls.isFlash → c.xip.AgreesAt e.xip q.addr q.size
  | patched _ p => (∀ copy ∈ p.report.copies, c.iflash.AgreesAt e.iflash copy.iflash copy.size) ∧
    ∀ made ∈ p.made, ∃ addr, made.2 = addr ||| 1 ∧ c.iflash.AgreesAt e.iflash addr Record.width
  | made (.ok call) => ∃ addr, call = addr ||| 1 ∧ c.iflash.AgreesAt e.iflash addr Record.width
  | loaded (.error _) | made (.error _) => True

/-- The request has been met. -/
def succeeded : Answer → Bool
  | loaded result => result.isOk
  | patched result _ => result.isOk
  | made result => result.isOk

variable {F F' K : Nat → Prop} {c c' e : Context} {a : Answer}

lemma Lasts.advanced (h : a.Lasts F c) (hF : ∀ k, F' k → F k) (hc : Context.Advanced K c c') :
    a.Lasts F' c' := by
  match a with
  | loaded (.ok _) => exact Image.ClearOf.advanced h hF hc
  | patched _ _ => exact Patcher.Housed.grown h hc.resident.edited
  | made (.ok _) => exact Region.RecordTaken.grown h hc.resident.edited
  | loaded (.error _) | made (.error _) => trivial

/-- Where internal flash has been handed out, mirrored contexts agree. -/
lemma agreesAt_iflash (h : c.Mirror F e) {offset len : Nat} (hle : offset + len ≤ c.iflash.nextFree) :
    c.iflash.AgreesAt e.iflash (c.iflash.address offset) len :=
  ⟨offset, rfl, hle, h.iflash.bytes_eq fun k _ h2 hk => by omega⟩

lemma Lasts.agrees (h : a.Lasts F c) (hc : c.Mirror F e) : a.Agrees c e := by
  have hrecord : ∀ {call}, c.iflash.RecordTaken call → ∃ addr, call = addr ||| 1 ∧
      c.iflash.AgreesAt e.iflash addr Record.width := by
    rintro _ ⟨offset, rfl, hle⟩
    exact ⟨_, rfl, agreesAt_iflash hc hle⟩
  match a with
  | loaded (.ok image) =>
    intro q hq hcls
    obtain ⟨offset, haddr, hle, hclear⟩ := h q hq hcls
    exact ⟨offset, haddr, hle, hc.xip.bytes_eq hclear⟩
  | patched _ p =>
    refine ⟨fun copy hcopy => ?_, fun made hmade => hrecord (Patcher.Housed.records h made hmade)⟩
    obtain ⟨offset, haddr, hle⟩ := Patcher.Housed.copies h copy hcopy
    rw [haddr]
    exact agreesAt_iflash hc hle
  | made (.ok _) => exact hrecord h
  | loaded (.error _) | made (.error _) => trivial

end Answer

namespace Service

variable {κ : Type} [CacheControl κ]

/-- The image that an answer of the log is about. -/
def imageAt? (s : Service κ) (index : Nat) : Option Image :=
  match s.log[index]? with
  | some (.loaded (.ok image)) => some image
  | _ => none

/-- Does what is asked, and notes what comes of it. A pass over no image is passed over. -/
def serve (s : Service κ) : Request → Service κ
  | .load loader source name exports entry =>
    let o := Loader.load name exports entry ⟨loader, source, s.context⟩
    { s with context := o.state.context, log := s.log ++ [.loaded o.result] }
  | .patch index =>
    match s.imageAt? index with
    | none => s
    | some image =>
      let o := Patcher.run ⟨.start image, s.context, s.cache⟩
      ⟨o.state.context, o.state.cache, s.log ++ [.patched o.result o.state.patcher]⟩
  | .emit target base =>
    let o := zoom Context.trampolinePart (Trampolines.emit target base) s.context
    { s with context := o.state, log := s.log ++ [.made o.result] }

/-- Serves one request after the other. -/
def serveAll (s : Service κ) (requests : List Request) : Service κ := requests.foldl serve s

end Service

/-- Work from `c` on has gone alike on both sides, and the answer has come of it. -/
def Answer.Given (F : Nat → Prop) (c : Context) (a : Answer) (c' e' : Context) : Prop :=
  ∃ F' K, c'.Mirror F' e' ∧ (∀ i, F' i → F i) ∧ Context.Advanced K c c' ∧ a.Lasts F' c'

/-! ### Work that goes alike -/

namespace Context.Mirror

variable {F : Nat → Prop} {c d e : Context}

/-- An image that has been loaded is where the contexts agree from now on. -/
lemma clearOf_loaded {config : LoaderConfig} {src : Source} {p : Job.Plan} {k : Nat} {name : String}
    {addr : Addr} (hp : p.Settled config src c e) (hsound : c.xip.Sound)
    (hw : Job.Wrote p.space k e d) : (p.image name addr).ClearOf (fun i => F i ∧ p.space.Beside i) d := by
  intro q hq hcls
  obtain ⟨s, span, hspan, hqs, haddr⟩ := hp.flash_section hq hcls
  obtain ⟨-, hend, heq⟩ := hp.reserved.spans.mem hspan
  have hlen : q.size ≤ span.len := by
    rw [heq, hqs.size_eq]
    exact le_alignUp _ hsound.sector_pos
  refine ⟨span.offset, ?_, ?_, fun i h1 h2 hi => hi.2 _ hspan ⟨h1, Nat.lt_of_lt_of_le h2 ?_⟩⟩
  · rw [haddr, heq, hw.xip.address_eq, hp.reserved.address_eq]
  · rw [hw.xip.free_eq]
    omega
  · exact Nat.add_le_add_left hlen _

/-- What a load leaves alone is as it was. -/
lemma loaded {F' : Nat → Prop} {c' e' : Context} (h : c.Mirror F e)
    (hc : Context.Advanced (fun _ => False) c c')
    (hs : c'.iflash = c.iflash ∧ c'.trampolines = c.trampolines)
    (ht : e'.iflash = e.iflash ∧ e'.trampolines = e.trampolines)
    (htwin : c'.LoadTwin F' (fun _ => False) e') : c'.Mirror F' e' := by
  refine ⟨htwin.xip, ?_, htwin.pool.eq_of fun _ hi => hi, ?_, hc.ready h.ready⟩
  · rw [hs.1, ht.1]
    exact h.iflash
  · rw [hs.2, ht.2, h.trampolines_eq]

variable (h : c.Mirror F e)

include h

/-- A module is loaded in both, or in neither. -/
lemma load_sim {l l' : Loader} (hconfig : l'.config = l.config) (hl : l.Sized) (hl' : l'.Sized)
    (source : Source) (name entry : String) (exports : Lookup) :
    Sim (Loader.load name exports entry) (Loader.load name exports entry) ⟨l, source, c⟩ ⟨l', source, e⟩
      (fun image s' t' => (Answer.loaded (.ok image)).Given F c s'.context t'.context)
      (fun why s' t' => (Answer.loaded (.error why)).Given F c s'.context t'.context) := by
  have hpool : c.pool.Twin (fun _ => False) e.pool := ⟨by rw [h.pool_eq], h.pool_eq ▸ .refl _⟩
  have hsound := h.ready.xip_sound
  have hsim : Sim (Loader.load name exports entry) (Loader.load name exports entry) ⟨l, source, c⟩
      ⟨l', source, e⟩ _ _ := Loader.load_twin hconfig rfl hl hl' hsound ⟨h.xip, hpool⟩
  have hall := ((hsim.and_sat (Loader.load_allocates hl)).and_sat Loader.load_resident).and_sat_right
    Loader.load_resident
  refine hall.mono ?_ ?_
  · rintro image s' t' ⟨⟨⟨⟨p, d, hp, htwin⟩, hadvanced, p', d', hp', himage, hw⟩, hs'⟩, ht'⟩
    obtain ⟨rfl, rfl⟩ := hp.unique hp'
    refine ⟨_, _, h.loaded hadvanced hs' ht' ⟨htwin.xip, htwin.pool.mono fun _ hi => hi.1⟩,
      fun i hi => hi.1, hadvanced, ?_⟩
    rw [himage]
    exact clearOf_loaded hp hsound hw
  · rintro why s' t' ⟨⟨⟨htwin, hadvanced⟩, hs'⟩, ht'⟩
    exact ⟨F, _, h.loaded hadvanced hs' ht' htwin, fun _ hi => hi, hadvanced, trivial⟩

/-- A record is made in both, or in neither. -/
lemma emit_sim (target base : Addr) :
    Sim (zoom trampolinePart (Trampolines.emit target base))
      (zoom trampolinePart (Trampolines.emit target base)) c e
      (fun addr c' e' => c'.Mirror F e' ∧ Context.Advanced (fun _ => False) c c' ∧
        c'.iflash.RecordTaken addr)
      (fun _ c' e' => c'.Mirror F e' ∧ Context.Advanced (fun _ => False) c c') := by
  have hmade : Sim (zoom trampolinePart (Trampolines.emit target base))
      (zoom trampolinePart (Trampolines.emit target base)) c e
      (fun _ c' e' => c'.Ready → c'.Mirror F e') (fun _ c' e' => c'.Ready → c'.Mirror F e') := by
    rw [sim_zoom]
    change Sim _ _ (c.trampolines, c.iflash) (e.trampolines, e.iflash) _ _
    rw [h.trampolines_eq]
    refine (Trampolines.emit_sim h.ready.iflash_sound h.ready.packed h.ready.room h.iflash target
      base).mono ?_ ?_
    all_goals
      rintro _ w w' ⟨ht, hr⟩ hready
      exact ⟨h.xip, hr, h.pool_eq, ht, hready⟩
  refine (hmade.and_sat (Context.emit_sat h.ready.packed h.ready.room target base)).mono ?_ ?_
  · rintro addr c' e' ⟨hmirror, hadvanced, offset, hrecord⟩
    have hready := hadvanced.ready h.ready
    exact ⟨hmirror hready, hadvanced, hrecord.recordTaken hready.packed⟩
  · rintro _ c' e' ⟨hmirror, hadvanced⟩
    exact ⟨hmirror (hadvanced.ready h.ready), hadvanced⟩

omit h in
/-- A residency pass cannot tell the contexts apart. -/
lemma blind (F : Nat → Prop) (image : Image) :
    Patcher.Blind image fun c e => c.Mirror F e ∧ image.ClearOf F c ∧
      c.xip.partition.size ≤ UInt32.size := by
  have hkept : ∀ {c c' e' : Context}, (image.ClearOf F c ∧ c.xip.partition.size ≤ UInt32.size) →
      c'.Mirror F e' ∧ Context.Advanced (fun _ => False) c c' →
      c'.Mirror F e' ∧ image.ClearOf F c' ∧ c'.xip.partition.size ≤ UInt32.size := by
    rintro c c' e' ⟨hclear, hsize⟩ ⟨hmirror, hadvanced⟩
    exact ⟨hmirror, hclear.advanced (fun _ hk => hk) hadvanced,
      hadvanced.sameBoard.xip_partition ▸ hsize⟩
  refine ⟨fun {c e} h b _ => by rw [h.1.pool_eq], fun {c e} h q hq hcls => ?_,
    fun {c e} h target base => ?_, fun {c e} h b start data => ?_⟩
  · have hsat : Sat (Patcher.copySection q) c _ _ :=
      Patcher.copySection_sat h.1.ready.iflash_sound.sector_pos q
    refine ((h.1.copySection_sim h.2.1 h.2.2 hq (by rw [hcls]; rfl)).and_sat hsat).mono ?_ ?_
    · exact fun _ _ _ h' => hkept h.2 ⟨h'.1, h'.2.1.advanced⟩
    · exact fun _ _ _ h' => hkept h.2 ⟨h'.1, h'.2.advanced⟩
  · exact (h.1.emit_sim target base).mono (fun _ _ _ h' => hkept h.2 ⟨h'.1, h'.2.1⟩)
      fun _ _ _ h' => hkept h.2 h'
  · obtain ⟨⟨hxip, hiflash, hpool, ht, hready⟩, hclear, hsize⟩ := h
    refine ⟨⟨hxip, hiflash, ?_, ht, hready.1, hready.2, hready.3, hready.4⟩, hclear, hsize⟩
    dsimp only
    rw [hpool]

/-- A pass does the same in both. -/
lemma run_sim {κ : Type} [CacheControl κ] {image : Image} (himage : image.ClearOf F c)
    (hsize : c.xip.partition.size ≤ UInt32.size) (k : κ) :
    Sim Patcher.run Patcher.run ⟨.start image, c, k⟩ ⟨.start image, e, k⟩
      (fun report s' t' => t'.patcher = s'.patcher ∧ t'.cache = s'.cache ∧
        (Answer.patched (.ok report) s'.patcher).Given F c s'.context t'.context)
      (fun why s' t' => t'.patcher = s'.patcher ∧ t'.cache = s'.cache ∧
        (Answer.patched (.error why) s'.patcher).Given F c s'.context t'.context) := by
  have hsim : Sim Patcher.run Patcher.run ⟨.start image, c, k⟩ ⟨.start image, e, k⟩ _ _ :=
    Patcher.run_sim (blind F image) ⟨h, himage, hsize⟩ k
  refine (hsim.and_sat (Patcher.run_housed h.ready image k)).mono ?_ ?_
  all_goals
    rintro _ s' t' ⟨htwin, hadvanced, hhoused⟩
    exact ⟨htwin.patcher_eq, htwin.cache_eq, F, _, htwin.related.1, fun _ hi => hi, hadvanced, hhoused⟩

end Context.Mirror

namespace Service

variable {κ : Type} [CacheControl κ] {F : Nat → Prop} {s t : Service κ}

/-- The services have given the same answers, and differ in nothing but the offsets `F` of flash and
internal flash that is not handed out. -/
structure Mirror (F : Nat → Prop) (s t : Service κ) : Prop where
  context : s.context.Mirror F t.context
  cache_eq : t.cache = s.cache
  log_eq : t.log = s.log
  lasting : ∀ a ∈ s.log, a.Lasts F s.context
  size_le : s.context.xip.partition.size ≤ UInt32.size

omit [CacheControl κ] in
/-- One more answer. -/
lemma Mirror.answered (h : Mirror F s t) {c e : Context} {k : κ} {a : Answer}
    (ha : a.Given F s.context c e) : ∃ F', Mirror F' ⟨c, k, s.log ++ [a]⟩ ⟨e, k, t.log ++ [a]⟩ := by
  obtain ⟨F', K, hmirror, hF, hc, hlasts⟩ := ha
  refine ⟨F', hmirror, rfl, by rw [h.log_eq], fun b hb => ?_, hc.sameBoard.xip_partition ▸ h.size_le⟩
  rcases List.mem_append.1 hb with hold | hlast
  · exact (h.lasting b hold).advanced hF hc
  · exact List.mem_singleton.1 hlast ▸ hlasts

/-- **A request** is answered alike. -/
lemma Mirror.serve (h : Mirror F s t) {r r' : Request} (hr : r.Alike r') :
    ∃ F', Mirror F' (s.serve r) (t.serve r') := by
  cases hr with
  | load hconfig hl hl' source name exports entry =>
    obtain ⟨hresult, hgiven⟩ := (h.context.load_sim hconfig hl hl' source name entry exports).ends
      (R := fun r (s' t' : Loader.State) => (Answer.loaded r).Given F s.context s'.context t'.context)
    unfold Service.serve
    dsimp only
    rw [hresult, h.cache_eq]
    exact h.answered hgiven
  | patch index =>
    have himage : t.imageAt? index = s.imageAt? index := by rw [imageAt?, imageAt?, h.log_eq]
    unfold Service.serve
    dsimp only
    rw [himage]
    rcases hat : s.imageAt? index with _ | image <;> dsimp only
    · exact ⟨F, h⟩
    have hclear : image.ClearOf F s.context := by
      unfold imageAt? at hat
      split at hat
      next i hi =>
        obtain rfl := Option.some.inj hat
        exact h.lasting _ (List.mem_of_getElem? hi)
      next => cases hat
    obtain ⟨hresult, hpatcher, hcache, hgiven⟩ := (h.context.run_sim hclear h.size_le s.cache).ends
      (R := fun r (s' t' : Patcher.State κ) => t'.patcher = s'.patcher ∧ t'.cache = s'.cache ∧
        (Answer.patched r s'.patcher).Given F s.context s'.context t'.context)
    rw [h.cache_eq, hresult, hpatcher, hcache]
    exact h.answered hgiven
  | emit target base =>
    obtain ⟨hresult, hgiven⟩ := Sim.ends
      (R := fun r c' e' => (Answer.made r).Given F s.context c' e')
      ((h.context.emit_sim target base).mono
        (fun _ _ _ h' => ⟨F, _, h'.1, fun _ hi => hi, h'.2.1, h'.2.2⟩)
        fun _ _ _ h' => ⟨F, _, h'.1, fun _ hi => hi, h'.2, trivial⟩)
    unfold Service.serve
    dsimp only
    rw [hresult, h.cache_eq]
    exact h.answered hgiven

/-- **Requests** are answered alike. -/
lemma Mirror.serveAll (h : Mirror F s t) {requests requests' : List Request}
    (hr : List.Forall₂ Request.Alike requests requests') :
    ∃ F', Mirror F' (s.serveAll requests) (t.serveAll requests') := by
  induction hr generalizing F s t with
  | nil => exact ⟨F, h⟩
  | cons hfirst _ ih =>
    obtain ⟨F', h'⟩ := h.serve hfirst
    exact ih h'

end Service

/-! ### Boards of one make -/

/-- A pool that is reset is a fresh one. -/
lemma Pool.reset_eq (p : Pool) : p.reset = .create p.base p.capacity := by
  have hmem : p.mem.fill 0 p.mem.size 0 = .zeros p.mem.size := by
    refine Bytes.ext_get fun i => ?_
    rw [Bytes.getElem?_fill, Bytes.zeros, Array.getElem?_replicate]
    split_ifs with h1 h2 h3
    · rw [Array.getElem?_eq_getElem h2]
      rfl
    · omega
    · omega
    · exact Array.getElem?_eq_none (by omega)
  rw [reset, hmem]
  rfl

namespace Region

/-- A region over the same partition of a device of the same make, which holds the same outside the
partition and whatever inside. No failure is armed. -/
structure Kin (r s : Region) : Prop where
  name_eq : s.name = r.name
  partition_eq : s.partition = r.partition
  sector_eq : s.sector = r.sector
  reported_eq : s.device.reported = r.device.reported
  unarmed : s.Unarmed
  outside : Bytes.SameOn r.Outside r.device.contents s.device.contents

namespace Kin

variable {r s t : Region}

lemma refl (h : r.Unarmed) : Kin r r := ⟨rfl, rfl, rfl, rfl, h, .refl _⟩

lemma edited {F : Nat → Prop} (h : Kin r s) (he : Edited F s t) : Kin r t := by
  refine ⟨he.name_eq.trans h.name_eq, he.partition_eq.trans h.partition_eq,
    he.sector_eq.trans h.sector_eq, he.reported_eq.trans h.reported_eq, he.unarmed h.unarmed,
    h.outside.trans (he.outside.mono fun i hi => ?_)⟩
  rw [Outside, h.partition_eq]
  exact hi

/-- The bump offset is not of the make. -/
lemma movedTo (h : Kin r s) (n : Nat) : Kin r { s with nextFree := n } :=
  ⟨h.1, h.2, h.3, h.4, h.5, h.6⟩

/-- Two of a make with the same bump offset may only differ inside the partition. -/
lemma twin (hs : Kin r s) (ht : Kin r t) (hfree : t.nextFree = s.nextFree) :
    s.Twin (fun _ => True) t := by
  refine ⟨?_, hs.unarmed, hs.outside.size_eq.symm.trans ht.outside.size_eq, fun i hi => ?_⟩
  · have hname := ht.name_eq.trans hs.name_eq.symm
    have hpartition := ht.partition_eq.trans hs.partition_eq.symm
    have hsector := ht.sector_eq.trans hs.sector_eq.symm
    have hreported := ht.reported_eq.trans hs.reported_eq.symm
    have harmed := ht.unarmed.trans hs.unarmed.symm
    obtain ⟨name, ⟨contents, sector, reported, stats, armed⟩, partition, free⟩ := s
    obtain ⟨name', ⟨contents', sector', reported', stats', armed'⟩, partition', free'⟩ := t
    simp only [Region.sector] at hname hpartition hsector hreported harmed hfree
    subst hname hpartition hsector hreported harmed hfree
    rfl
  · have hout : r.Outside i := by
      rw [Outside, ← hs.partition_eq]
      by_contra hin
      exact hi (i - s.partition.offset) trivial (by omega) (by omega)
    rw [← hs.outside.get_eq i hout, ht.outside.get_eq i hout]

end Kin

end Region

namespace BoardHistory

variable {xip iflash : Region} {h h' : BoardHistory} {failure : Option Error}

/-- Both regions are of the make of those that the board has begun with. -/
def Kept (xip iflash : Region) (c : Context) : Prop := xip.Kin c.xip ∧ iflash.Kin c.iflash

lemma Kept.advanced {K : Nat → Prop} {c c' : Context} (hk : Kept xip iflash c)
    (hc : Context.Advanced K c c') : Kept xip iflash c' :=
  ⟨hk.1.edited hc.xip, hk.2.edited hc.resident.edited⟩

lemma Kept.step {board : Context} (hi : Inv board h) (hk : Kept xip iflash h.context)
    (hs : Step False failure h h') : Kept xip iflash h'.context := by
  cases hs with
  | arm _ hfaults => exact hfaults.elim
  | execute _ mem => exact hk
  | @load _ loader hl source name entry exports o ho =>
    have hload : Sat (Loader.load name exports entry) ⟨loader, source, h.context⟩ _ _ :=
      Loader.load_allocates hl
    exact ho ▸ hk.advanced ((hload.mono (fun _ _ h => h.1) fun _ _ h => h).state)
  | patch _ himage cache ho => exact ho ▸ hk.advanced (Patcher.runOn_advanced hi.ready _ cache)
  | emit _ target base ho =>
    have hemit := Context.emit_sat hi.ready.packed hi.ready.room target base
    exact ho ▸ hk.advanced ((hemit.mono (fun _ _ h => h.1) fun _ _ h => h).state)
  | checkpoint _ => exact hk
  | @rollback _ p hp o ho =>
    rw [← ho]
    exact Sat.state (R := Kept xip iflash) (Context.rollback_rule (fun _ => hk)
      (fun _ _ => ⟨hk.1.movedTo _, hk.2⟩) fun _ _ => ⟨hk.1.movedTo _, hk.2.movedTo _⟩)
  | reset _ ho =>
    rw [← ho]
    refine Sat.state (R := Kept xip iflash) ((Context.reset_sat h.context).mono ?_ fun _ _ h => h.elim)
    rintro _ _ rfl
    exact ⟨hk.1.movedTo _, hk.2.movedTo _⟩

lemma Kept.run {board : Context} (hi : Inv board h) (hk : Kept xip iflash h.context)
    (hrun : Run False h h') : Kept xip iflash h'.context := by
  induction hrun with
  | refl => exact hk
  | tail hrun hstep ih => exact ih.step (hi.run hrun) hstep

/-- **A reset context is as good as new.** -/
theorem reset_as_new {pool : Pool} (hxip : xip.Sound) (hiflash : iflash.Sound)
    (hxip' : xip.Unarmed) (hiflash' : iflash.Unarmed) (hroom : Record.width ≤ iflash.sector)
    (hsize : xip.partition.size ≤ UInt32.size) (hrun : Run False (start xip iflash pool) h)
    {freshXip freshIflash : Region} (hfresh : xip.Kin freshXip) (hfresh' : iflash.Kin freshIflash)
    (hfree : freshXip.nextFree = 0) (hfree' : freshIflash.nextFree = 0)
    {requests requests' : List Request} (halike : List.Forall₂ Request.Alike requests requests')
    {κ : Type} [CacheControl κ] (k : κ) :
    ∃ c es, Context.reset h.context = ⟨.ok (), c, es⟩ ∧
      ∃ s t : Service κ, s = Service.serveAll ⟨c, k, []⟩ requests ∧
        t = Service.serveAll ⟨.create freshXip freshIflash (.create pool.base pool.capacity), k, []⟩
          requests' ∧
        t.log = s.log ∧ t.context.pool = s.context.pool ∧
        ∀ a ∈ s.log, a.Agrees s.context t.context := by
  have hinv := (inv_start pool hxip hiflash hroom).run hrun
  have hkept : Kept xip iflash h.context :=
    Kept.run (inv_start pool hxip hiflash hroom) ⟨.refl hxip', .refl hiflash'⟩ hrun
  rcases hreset : Context.reset h.context with ⟨_ | _, c, es⟩
  · exact ((Context.reset_sat h.context).of_error hreset).elim
  obtain rfl := (Context.reset_sat h.context).of_ok hreset
  refine ⟨_, es, rfl, _, _, rfl, rfl, ?_⟩
  have hmirror : Service.Mirror (fun _ => True) ⟨h.context.emptied, k, []⟩
      ⟨.create freshXip freshIflash (.create pool.base pool.capacity), k, []⟩ := by
    refine ⟨⟨?_, ?_, ?_, rfl, hinv.ready.emptied⟩, rfl, rfl, fun _ ha => (List.not_mem_nil ha).elim, ?_⟩
    · exact (hkept.1.movedTo 0).twin hfresh hfree
    · exact ((hkept.2.movedTo 0).twin hfresh' hfree').mono fun k _ _ => Nat.zero_le k
    · dsimp only [Context.emptied, Context.create]
      rw [Pool.reset_eq, hinv.same.pool_base, hinv.same.pool_capacity]
      rfl
    · dsimp only [Context.emptied]
      rwa [hkept.1.partition_eq]
  obtain ⟨F, hserved⟩ := hmirror.serveAll halike
  exact ⟨hserved.log_eq, hserved.context.pool_eq,
    fun a ha => (hserved.lasting a ha).agrees hserved.context⟩

/-- What is left on the small board after a load and a trampoline. -/
def remains : Context :=
  (zoom Context.trampolinePart (Trampolines.emit 0x8000021 0x20000000)
    (Small.load 16 pointersObject Small.context).state.context).state

/-- A load, a pass over the image, and another trampoline. -/
def errands : List Request :=
  [.load (Small.loader 16) (.ofBytes "m" pointersObject) "m" (fun _ => none) "e", .patch 0,
    .emit 0x8000045 0x20000010]

/-- Over the remains, all of it succeeds as it does on a new board. -/
theorem reset_as_new_errands :
    ∃ c es, Context.reset remains = ⟨.ok (), c, es⟩ ∧
      c.xip.device.contents ≠ (Small.region "xip" 0x10000000).device.contents ∧
      c.iflash.device.contents ≠ (Small.region "iflash" 0x8000000).device.contents ∧
      ∃ s t : Service Unit, s = Service.serveAll ⟨c, (), []⟩ errands ∧
        t = Service.serveAll ⟨.create (Small.region "xip" 0x10000000) (Small.region "iflash" 0x8000000)
          (.create 0x20000000 48), (), []⟩ errands ∧
        s.log.map Answer.succeeded = [true, true, true] ∧
        t.log = s.log ∧ t.context.pool = s.context.pool ∧
        ∀ a ∈ s.log, a.Agrees s.context t.context := by
  have hsized : (Small.loader 16).Sized := Small.loader_sized (by decide) rfl
  rcases hload : Small.load 16 pointersObject Small.context with ⟨loaded, l, es⟩
  rcases hemit : zoom Context.trampolinePart (Trampolines.emit 0x8000021 0x20000000) l.context with
    ⟨call, used, es'⟩
  have hused : remains = used := by
    rw [remains, hload]
    dsimp only
    rw [hemit]
  have hfirst : Step False _ (start (Small.region "xip" 0x10000000) (Small.region "iflash" 0x8000000)
      (.create 0x20000000 48)) _ := .load _ hsized _ _ _ _ hload
  have hrun := ((Run.refl _).tail hfirst).tail (.emit _ _ _ hemit)
  have halike : List.Forall₂ Request.Alike errands errands :=
    .cons (.load rfl hsized hsized _ _ _ _) (.cons (.patch 0) (.cons (.emit _ _) .nil))
  obtain ⟨c, es, hreset, s, t, hs, ht, hsame⟩ := reset_as_new (Small.region_sound _ _)
    (Small.region_sound _ _) rfl rfl (by decide) (by decide) hrun (.refl rfl) (.refl rfl) rfl rfl
    halike ()
  have hc : c = remains.emptied := hused ▸ (Context.reset_sat used).of_ok hreset
  rw [hused]
  refine ⟨c, es, hreset, ?_, ?_, s, t, hs, ht, ?_, hsame⟩
  · rw [hc]
    decide +kernel
  · rw [hc]
    decide +kernel
  · rw [hs, hc]
    decide +kernel

end BoardHistory

end FlashLink
