import FlashLink.Proofs.Committing
import FlashLink.Proofs.Parsing

/-!
Loading as a whole. A load succeeds exactly if the object can be inspected, space can be reserved, every
section can be linked, every flash section can be cut into chunks, and the entry symbol is found. What
it leaves behind is the linked sections, and an image that says where they are.
-/

namespace FlashLink

open Act Relocation

namespace SectionInfo

/-- The source holds the table of the section, and every field lies in the section. -/
def TableFits (s : SectionInfo) (src : Source) : Prop :=
  ∀ t ∈ s.relocations, t.Held src ∧ ∀ r ∈ t.entries src.data, r.stop ≤ s.size

lemma TableFits.held {s : SectionInfo} {src : Source} (h : s.TableFits src) : s.TableHeld src :=
  fun t ht => (h t ht).1

end SectionInfo

namespace Job

variable {src : Source} {config : LoaderConfig} {j : Job}

/-! ### Inspecting -/

/-- Everything that is read before anything is allocated. -/
structure Inspected (config : LoaderConfig) (src : Source) (o : Object) (symbols : SymbolTable) :
    Prop where
  parsed : (Object.parse config src).result = .ok o
  symbols_eq : (o.symbolTable config src).result = .ok symbols
  tables : ∀ s ∈ o.sections.toList, s.TableFits src

lemma Inspected.describes {o : Object} {symbols : SymbolTable} (h : Inspected config src o symbols) :
    Object.Describes config src.data o :=
  ((Object.parse_sat (.refl src) config).of_result h.parsed).2

/-- Reading changes nothing but the record of reads. -/
lemma read_sat {α : Type} {x : Act Source α} (hx : Source.Steady x)
    (hsrc : Source.Same src j.desk.linker.source) :
    Sat (zoom sourcePart x) j
      (fun a j' => (x src).result = .ok a ∧ Desk.Reread j.desk j'.desk ∧ j'.context = j.context)
      (fun e _ => (x src).result = .error e) := by
  rw [sat_zoom]
  exact (hx src j.desk.linker.source hsrc).mono
    (fun a t h => ⟨h.1, ⟨rfl, rfl, rfl, hsrc.euclid h.2⟩, rfl⟩) fun _ _ h => h.1

lemma checkTables_sat (sections : List SectionInfo) (hsrc : Source.Same src j.desk.linker.source)
    (hbatch : 0 < j.desk.scratch.batchSize) :
    Sat (checkTables sections) j
      (fun _ j' => Desk.Reread j.desk j'.desk ∧ j'.context = j.context ∧
        ∀ s ∈ sections, s.TableFits src)
      (fun _ _ => ¬ ∀ s ∈ sections, s.TableFits src) := by
  induction sections generalizing j with
  | nil => exact ⟨.refl _, rfl, fun _ h => by cases h⟩
  | cons s rest ih =>
    have hstep : ∀ j' : Job, Desk.Reread j.desk j'.desk ∧ j'.context = j.context ∧ s.TableFits src →
        Sat (checkTables rest) j'
          (fun _ j'' => Desk.Reread j.desk j''.desk ∧ j''.context = j.context ∧
            ∀ q ∈ s :: rest, q.TableFits src)
          (fun _ _ => ¬ ∀ q ∈ s :: rest, q.TableFits src) := by
      rintro j' ⟨hre, hcontext, hs⟩
      refine (ih (hsrc.trans hre.same) (hre.batchSize_eq ▸ hbatch)).mono ?_
        fun _ _ h h' => h fun q hq => h' q (.tail _ hq)
      rintro _ j'' ⟨hre', hcontext', hrest⟩
      exact ⟨hre.trans hre', hcontext'.trans hcontext, List.forall_mem_cons.2 ⟨hs, hrest⟩⟩
    unfold checkTables
    rcases hr : s.relocations with _ | t <;> dsimp only
    · exact hstep j ⟨.refl _, rfl, fun t ht => by rw [hr] at ht; cases ht⟩
    · refine Sat.bind (P := fun _ j' => Desk.Reread j.desk j'.desk ∧ j'.context = j.context ∧
          s.TableFits src) (G := fun _ _ => ¬ s.TableFits src) ?_ (fun _ j' h => hstep j' h)
        fun _ _ h h' => h (h' s (.head _))
      rw [sat_zoom]
      refine (Desk.checkFields_sat hsrc hbatch).mono ?_ ?_
      · rintro _ d ⟨hre, hheld, hfields⟩
        exact ⟨hre, rfl, fun t' ht' => by rw [hr] at ht'; cases ht'; exact ⟨hheld, hfields⟩⟩
      · exact fun _ _ h h' => h (h' t hr)

lemma notes_sat {σ : Type} (l : List Event) (s : σ) {P : PUnit → σ → Prop} {E : Error → σ → Prop}
    (h : P ⟨⟩ s) : Sat (l.forM fun e => Act.note e) s P E := by
  induction l with
  | nil => exact h
  | cons e rest ih => exact Sat.note_bind ih

lemma inspect_sat (name : String) (hsrc : Source.Same src j.desk.linker.source)
    (hbatch : 0 < j.desk.scratch.batchSize) :
    Sat (inspect config name) j
      (fun a j' => Inspected config src a.1 a.2 ∧ Desk.Reread j.desk j'.desk ∧
        j'.context = j.context)
      (fun _ _ => ¬ ∃ o symbols, Inspected config src o symbols) := by
  unfold inspect
  refine Sat.bind (read_sat (Object.parse_steady config) hsrc) ?_ ?_
  swap
  · rintro e _ he ⟨o, symbols, h⟩
    rw [h.parsed] at he
    cases he
  rintro o j1 ⟨hparsed, hre1, hc1⟩
  refine Sat.bind (P := fun _ j' => j' = j1) (G := fun _ _ => False) (notes_sat _ _ rfl) ?_
    fun _ _ h => h.elim
  rintro _ _ rfl
  have hunique : ∀ o', (Object.parse config src).result = .ok o' → o' = o := fun o' h => by
    rw [hparsed] at h
    cases h
    rfl
  refine Sat.bind (read_sat (Object.symbolTable_steady o config) (hsrc.trans hre1.same)) ?_ ?_
  swap
  · rintro e _ he ⟨o', symbols, h⟩
    obtain rfl := hunique o' h.parsed
    rw [h.symbols_eq] at he
    cases he
  rintro symbols j2 ⟨hsymbols, hre2, hc2⟩
  have hre := hre1.trans hre2
  refine Sat.bind (checkTables_sat o.sections.toList (hsrc.trans hre.same)
    (hre.batchSize_eq ▸ hbatch)) ?_ ?_
  · rintro _ j3 ⟨hre3, hc3, htables⟩
    exact ⟨⟨hparsed, hsymbols, htables⟩, hre.trans hre3, hc3.trans (hc2.trans hc1)⟩
  · rintro _ _ hno ⟨o', symbols', h⟩
    obtain rfl := hunique o' h.parsed
    exact hno h.tables

/-! ### Planning -/

/-- The context grants the object its space, and becomes `e`. No buffer has a say in it. -/
def Granted (o : Object) (space : Reservation) (c e : Context) : Prop :=
  ∀ d, Sat (reserve o) ⟨d, c⟩ (fun space' j => space' = space ∧ j = ⟨d, e⟩) fun _ _ => False

lemma Granted.reserved {o : Object} {space : Reservation} {c e : Context} (d : Desk)
    (h : Granted o space c e) : Reserved c o space e := by
  have hboth := (h d).and (reserve_sat o ⟨d, c⟩)
  unfold Sat at hboth
  rcases hr : reserve o ⟨d, c⟩ with ⟨_ | space', j, _⟩ <;> rw [hr] at hboth
  · exact hboth.1.elim
  · obtain ⟨⟨rfl, rfl⟩, hreserved, -⟩ := hboth
    exact hreserved

lemma Granted.unique {o : Object} {space space' : Reservation} {c e e' : Context} (d : Desk)
    (h : Granted o space c e) (h' : Granted o space' c e') : space = space' ∧ e = e' := by
  have hboth := (h d).and (h' d)
  unfold Sat at hboth
  rcases hr : reserve o ⟨d, c⟩ with ⟨_ | t, j, _⟩ <;> rw [hr] at hboth
  · exact hboth.1.elim
  · obtain ⟨⟨rfl, rfl⟩, hspace, hj⟩ := hboth
    exact ⟨hspace, congrArg Job.context hj⟩

lemma reserve_granted (o : Object) (j : Job) :
    Sat (reserve o) j (fun space j' => Granted o space j.context j'.context ∧ j'.desk = j.desk)
      (fun _ _ => ¬ ∃ space e, Granted o space j.context e) := by
  have hsim : ∀ d, Sim (reserve o) (reserve o) j ⟨d, j.context⟩ (fun _ => Abreast j ⟨d, j.context⟩)
      fun _ => Abreast j ⟨d, j.context⟩ := fun d =>
    reserve_sim (k := ⟨d, j.context⟩) (.refl j.context) o
  unfold Sat
  rcases hr : reserve o j with ⟨_ | space, j', es⟩
  · rintro ⟨space, e, h⟩
    exact (h j.desk).of_error hr
  · refine ⟨fun d => ?_, ?_⟩
    · refine ((hsim d).of_ok hr).mono ?_ fun _ _ h => h
      rintro _ k' ⟨rfl, n, u, rfl, rfl⟩
      exact ⟨rfl, rfl⟩
    · exact ((reserve_sat o j).of_ok hr).2

/-! ### Running -/

/-- What a load settles before it links anything. -/
structure Plan where
  object : Object
  symbols : SymbolTable
  space : Reservation

namespace Plan

def scope (p : Plan) (exports : Lookup) : Scope :=
  ⟨p.symbols, p.space.placement p.object, exports⟩

/-- The image of the module if it is entered at `entry`. -/
def image (p : Plan) (name : String) (entry : Addr) : Image :=
  let sections := placedSections p.object (p.space.placement p.object)
  let data := p.space.data.map (·.ram)
  { name, sections, data, bss := p.space.bss.map (·.ram), entry, gotBase := gotBase sections data }

/-- The plan is the one for this object, in this context. -/
structure Settled (config : LoaderConfig) (src : Source) (c e : Context) (p : Plan) : Prop where
  inspected : Inspected config src p.object p.symbols
  granted : Granted p.object p.space c e

/-- Any desk will do to ask for space. -/
lemma Settled.reserved {c e : Context} {p : Plan} (h : p.Settled config src c e) :
    Reserved c p.object p.space e :=
  h.granted.reserved ⟨⟨#[], #[], []⟩, ⟨src, .create 0⟩⟩

lemma Settled.unique {c e e' : Context} {p p' : Plan} (h : p.Settled config src c e)
    (h' : p'.Settled config src c e') : p = p' ∧ e = e' := by
  obtain ⟨o, symbols, space⟩ := p
  obtain ⟨o', symbols', space'⟩ := p'
  have ho : o = o' := by simpa [h'.inspected.parsed] using h.inspected.parsed.symm
  subst ho
  have hs : symbols = symbols' := by simpa [h'.inspected.symbols_eq] using h.inspected.symbols_eq.symm
  subst hs
  obtain ⟨rfl, rfl⟩ := h.granted.unique ⟨⟨#[], #[], []⟩, ⟨src, .create 0⟩⟩ h'.granted
  exact ⟨rfl, rfl⟩

/-- All that is asked of the module from then on. -/
structure Loadable (config : LoaderConfig) (src : Source) (exports : Lookup) (entry : String)
    (p : Plan) : Prop where
  streamable : Streamable config.chunkSize (p.scope exports) src config.strict p.space.flash
  copyable : Copyable (p.scope exports) src config.strict p.space.data
  entered : ∃ a, ((p.scope exports).entryAddress entry src).result = .ok a

/-- The plan has been carried out. -/
structure Loaded (config : LoaderConfig) (src : Source) (name : String) (exports : Lookup)
    (entry : String) (p : Plan) (c e e' : Context) (image : Image) : Prop where
  committed : Committed config.chunkSize (p.scope exports) src config.strict p.space c e e'
  entered : ((p.scope exports).entryAddress entry src).result = .ok image.entry
  image_eq : image = p.image name image.entry

end Plan

/-- **Loading** succeeds exactly if the plan can be settled and carried out, and then it has been. -/
lemma run_sat {name entry : String} {exports : Lookup}
    (hchunk : j.desk.scratch.staging.size = config.chunkSize)
    (hbatch : 0 < j.desk.scratch.batchSize) (hword : config.chunkSize % wordSize = 0)
    (hpos : 0 < config.chunkSize) (hsrc : Source.Same src j.desk.linker.source)
    (hempty : ∀ i, j.desk.linker.cache.find? i = none)
    (hsound : j.context.xip.Sound) (hunarmed : j.context.xip.Unarmed) :
    Sat (run config name exports entry) j
      (fun image j' => ∃ p e, Plan.Settled config src j.context e p ∧
        p.Loaded config src name exports entry j.context e j'.context image)
      (fun _ _ => ¬ ∃ p e, Plan.Settled config src j.context e p ∧
        p.Loadable config src exports entry) := by
  unfold run
  refine Sat.bind (inspect_sat name hsrc hbatch) ?_
    fun _ _ h ⟨p, _, hp, _⟩ => h ⟨_, _, hp.inspected⟩
  rintro ⟨o, symbols⟩ j1 ⟨hinspected, hre, hc1⟩
  refine Sat.bind (reserve_granted o j1) ?_ ?_
  swap
  · rintro _ _ h ⟨p, e, hp, -⟩
    obtain rfl : p.object = o := by simpa [hp.inspected.parsed] using hinspected.parsed
    rw [hc1] at h
    exact h ⟨_, _, hp.granted⟩
  rintro space j2 ⟨hgranted, hdesk⟩
  rw [hc1] at hgranted
  have hsettled : Plan.Settled config src j.context j2.context ⟨o, symbols, space⟩ :=
    ⟨hinspected, hgranted⟩
  have honly : (∃ p e, Plan.Settled config src j.context e p ∧
      p.Loadable config src exports entry) →
      Plan.Loadable config src exports entry ⟨o, symbols, space⟩ := by
    rintro ⟨p, e, hp, h⟩
    obtain ⟨rfl, -⟩ := hp.unique hsettled
    exact h
  dsimp only
  set scope : Scope := ⟨symbols, space.placement o, exports⟩ with hscope
  have hready : j2.desk.Ready config.chunkSize scope src := by
    rw [hdesk]
    exact (Desk.ready_of_empty hchunk hbatch hsrc hempty).reread hre
  refine Sat.bind (commit_sat hready hword hpos (hgranted.reserved j.desk) hsound hunarmed
    fun s hs => ⟨(hinspected.tables s hs).held, hinspected.describes.size_pos hs⟩) ?_ ?_
  swap
  · exact fun _ _ h h' => h ⟨(honly h').streamable, (honly h').copyable⟩
  rintro sum j3 ⟨hready3, hcommitted⟩
  refine Sat.bind (read_sat (scope.entryAddress_steady entry) hready3.linker.same) ?_ ?_
  swap
  · rintro e _ he h
    obtain ⟨a, ha⟩ := (honly h).entered
    cases he.symm.trans ha
  rintro a j4 ⟨ha, -, hc4⟩
  refine Sat.note_bind (Sat.get_bind (Sat.note_bind (sat_pure.2 ?_)))
  exact ⟨_, _, hsettled, by rw [hc4]; exact hcommitted, ha, rfl⟩

end Job

/-! ### Loaders -/

namespace Loader

/-- The buffers are those of the configuration. -/
structure Sized (l : Loader) : Prop where
  accepted : l.config.fault? = none
  staging_size : l.scratch.staging.size = l.config.chunkSize
  raw_size : l.scratch.raw.size = l.config.batchSize * Relocation.width

lemma Sized.chunk {l : Loader} (h : l.Sized) :
    l.config.chunkSize % wordSize = 0 ∧ 0 < l.config.chunkSize := by
  have := h.accepted
  unfold LoaderConfig.fault? at this
  split_ifs at this
  rw [wordSize]
  omega

lemma Sized.batch {l : Loader} (h : l.Sized) : 0 < l.scratch.batchSize := by
  have := h.accepted
  unfold LoaderConfig.fault? at this
  split_ifs at this
  rw [Scratch.batchSize, h.raw_size, Nat.mul_div_cancel _ (by decide)]
  omega

/-- Every loader that is created has buffers of the right size. -/
lemma create_sized {config : LoaderConfig} {l : Loader} (h : create config = .ok l) : l.Sized := by
  unfold create at h
  split at h
  · cases h
  · cases h
    refine ⟨‹_›, ?_, ?_⟩
    · simp [Scratch.create, Bytes.zeros]
    · simp [Scratch.create, Bytes.zeros]

/-- **The rule of loading**: a load is a job that starts with the buffers of the loader and an empty cache,
and leaves its limits as they are. -/
lemma load_rule {name entry : String} {exports : Lookup} {s : State} {P : Image → State → Prop}
    {E : Error → State → Prop}
    (h : Sat (Job.run s.loader.config name exports entry)
      ⟨⟨s.loader.scratch, ⟨s.source, .create s.loader.config.cacheSlots⟩⟩, s.context⟩
      (fun image j => P image ⟨⟨s.loader.config, j.desk.scratch⟩, j.desk.linker.source, j.context⟩)
      (fun e j => E e ⟨⟨s.loader.config, j.desk.scratch⟩, j.desk.linker.source, j.context⟩)) :
    Sat (load name exports entry) s P E := by
  obtain ⟨⟨config, scratch⟩, source, context⟩ := s
  unfold load
  exact Sat.get_bind (sat_zoom.2 h)

/-- **Loading** through a loader. -/
lemma load_sat {name entry : String} {exports : Lookup} {s : State} (hl : s.loader.Sized)
    (hsound : s.context.xip.Sound) (hunarmed : s.context.xip.Unarmed) :
    Sat (load name exports entry) s
      (fun image s' => ∃ p e, Job.Plan.Settled s.loader.config s.source s.context e p ∧
        p.Loaded s.loader.config s.source name exports entry s.context e s'.context image)
      (fun _ _ => ¬ ∃ p e, Job.Plan.Settled s.loader.config s.source s.context e p ∧
        p.Loadable s.loader.config s.source exports entry) := by
  exact load_rule (Job.run_sat hl.staging_size hl.batch hl.chunk.1 hl.chunk.2 (.refl _)
    (SymbolCache.find?_create _) hsound hunarmed)

end Loader

/-! ### A small board -/

namespace Small

/-- An empty region of four small sectors. -/
def region (name : String) (base : Addr) : Region := ⟨name, .create 64 16 0xff, ⟨0, 64, base⟩, 0⟩

lemma region_sound (name : String) (base : Addr) : (region name base).Sound := by
  constructor <;> simp [region, Region.sector, Nor.create, Nor.size, wordSize]

/-- A board with small regions and a small pool. -/
def context : Context :=
  .create (region "xip" 0x10000000) (region "iflash" 0x8000000) (.create 0x20000000 48)

def loader (chunk : Nat) : Loader :=
  let config : LoaderConfig := ⟨chunk, 2, 2, 32, 4096, 512, false⟩
  ⟨config, .create config⟩

lemma loader_sized {chunk : Nat} (hmin : 16 ≤ chunk) (hword : chunk % 4 = 0) :
    (loader chunk).Sized := by
  refine @Loader.create_sized (loader chunk).config _ ?_
  have hfault : (loader chunk).config.fault? = none := by
    simp [loader, LoaderConfig.fault?]
    omega
  rw [Loader.create, hfault]
  rfl

def ofWords (ws : List UInt32) : List UInt8 := ws.flatMap fun w => (Bytes.ofU32 w).toList

/-- An object with these contents and section headers, the last of which is that of all names. -/
def object (contents : List UInt8) (headers : List (List UInt32)) : Bytes :=
  let count := UInt32.ofNat headers.length
  (ofWords [0x464c457f, 0x10101, 0, 0, 0x280001, 1, 0, 0, 52 + UInt32.ofNat contents.length,
    0x5000000, 52, 0x280000, count ||| (count - 1) <<< 16] ++ contents ++
      ofWords headers.flatten).toArray

/-- Loading a file on this board, without exports. -/
def load (chunk : Nat) (file : Bytes) (c : Context) : Outcome Loader.State Image :=
  Loader.load "m" (fun _ => none) "e" ⟨loader chunk, .ofBytes "m" file, c⟩

end Small

end FlashLink
