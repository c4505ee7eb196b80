import FlashLink.Proofs.Committing

/-!
What each stage of a load fails for.

Reading and checking an object fails for its source or for the object, asking for space for want of
room, and linking for its source, a symbol or a field. Flash has no part in any of these; a load can only
fail for flash while a section is streamed. There the one fault of the object that can still show is
that no chunk can end between its fields.
-/

namespace FlashLink

/-! ### Causes -/

namespace Error

/-- The object cannot be read, or its headers or tables are malformed. -/
def OfObject : Error → Prop
  | io _ => True
  | parse (.straddled _) => False
  | parse _ => True
  | _ => False

/-- There is no room for the object. -/
def OfSpace : Error → Prop
  | outOfFlash .. => True
  | outOfMemory .. => True
  | breach _ => True
  | _ => False

/-- A symbol cannot be resolved, or a field cannot refer to it. -/
def OfLinking : Error → Prop
  | io _ => True
  | unresolvedSymbol _ => True
  | invalidSymbol .. => True
  | unplacedSection _ => True
  | relocationRange .. => True
  | unsupportedRelocation .. => True
  | entryNotFound _ => True
  | breach _ => True
  | _ => False

end Error

variable {σ τ α β : Type} {K L : Error → Prop}

/-- If it failed, then for a cause in `K`. -/
def Raised (K : Error → Prop) (r : Except Error α) : Prop := ∀ e, r = .error e → K e

namespace Raised

lemma ok (a : α) : Raised K (.ok a) := nofun

lemma error {e : Error} (h : K e) : Raised K (.error e : Except Error α) := by
  rintro _ ⟨⟩
  exact h

lemma ite {r r' : Except Error α} {p : Prop} [Decidable p] (h : Raised K r) (h' : Raised K r') :
    Raised K (if p then r else r') := by
  split_ifs
  · exact h
  · exact h'

lemma bind {r : Except Error α} {f : α → Except Error β} (h : Raised K r)
    (hf : ∀ a, Raised K (f a)) : Raised K (r >>= f) := by
  rcases r with e | a
  · exact error (h e rfl)
  · exact hf a

end Raised

namespace Act

/-- From whatever state, the action fails for nothing but a cause in `K`. -/
def Raises (K : Error → Prop) (x : Act σ α) : Prop := ∀ s, Raised K (x s).result

variable {x : Act σ α} {f : α → Act σ β} {s : σ} {P : α → σ → Prop} {E : Error → σ → Prop}

lemma raised_iff_sat : Raised K (x s).result ↔ Sat x s (fun _ _ => True) fun e _ => K e := by
  unfold Sat
  rcases x s with ⟨_ | a, t, es⟩
  · exact ⟨fun h => h _ rfl, fun h => .error h⟩
  · exact ⟨fun _ => trivial, fun _ => .ok a⟩

namespace Raises

/-- What is known of the run besides. -/
lemma sat (h : Raises K x) (hx : Sat x s P E) : Sat x s P fun e t => K e ∧ E e t :=
  ((raised_iff_sat.1 (h s)).and hx).mono (fun _ _ h => h.2) fun _ _ h => h

lemma mono (h : Raises K x) (hK : ∀ e, K e → L e) : Raises L x := fun s e he => hK e (h s e he)

lemma bind (h : Raises K x) (hf : ∀ a, Raises K (f a)) : Raises K (x >>= f) := fun s =>
  raised_iff_sat.2 (Sat.bind (raised_iff_sat.1 (h s)) (fun a _ _ => raised_iff_sat.1 (hf a _))
    fun _ _ h => h)

lemma ite {y : Act σ α} {p : Prop} [Decidable p] (hx : Raises K x) (hy : Raises K y) :
    Raises K (if p then x else y) := by
  split_ifs
  · exact hx
  · exact hy

lemma pure (a : α) : Raises K (Pure.pure a : Act σ α) := fun _ => .ok a

lemma throw {e : Error} (h : K e) : Raises K (throw e : Act σ α) := fun _ => .error h

lemma throw_bind {e : Error} (h : K e) : Raises K (MonadExcept.throw e >>= f) := fun _ => .error h

/-- A check before the rest. -/
lemma check {e : Error} {p : Prop} [Decidable p] (he : K e) (hx : Raises K x) :
    Raises K (if p then MonadExcept.throw e >>= fun _ : PUnit => x else x) :=
  .ite (throw_bind he) hx

lemma note (ev : Event) : Raises K (Act.note ev : Act σ Unit) := fun _ => .ok ()

lemma get : Raises K (get : Act σ σ) := fun s => .ok s

lemma modify (m : σ → σ) : Raises K (modify m : Act σ PUnit) := fun _ => .ok _

lemma modifyGet (m : σ → α × σ) : Raises K (modifyGet m : Act σ α) := fun _ => .ok _

lemma ofExcept {r : Except Error α} (h : Raised K r) : Raises K (Act.ofExcept r : Act σ α) :=
  fun _ => h

lemma zoom {part : Part τ σ} (h : Raises K x) : Raises K (Act.zoom part x) := fun _ =>
  raised_iff_sat.2 (sat_zoom.2 (raised_iff_sat.1 (h _)))

end Raises

end Act

open Act

/-! ### Reading -/

section

variable (hio : ∀ why, K (.io why))
include hio

namespace Source

lemma deliver_raised {s : Source} {offset len : Nat} {e : Error}
    (h : (s.deliver offset len).2 = some e) : K e := by
  unfold deliver at h
  split at h <;> split_ifs at h <;> cases h <;> exact hio _

lemma readInto_raises (start offset len : Nat) : Raises K (readInto start offset len) := by
  rintro ⟨buf, s⟩
  unfold readInto
  dsimp only
  rcases h : s.deliver offset len with ⟨got, _ | e⟩
  · exact .ok ()
  · exact .error (deliver_raised hio (congrArg Prod.snd h))

lemma read_raises (offset len : Nat) : Raises K (read offset len) := by
  intro s
  unfold read
  dsimp only
  rcases h : s.deliver offset len with ⟨got, _ | e⟩
  · exact .ok got
  · exact .error (deliver_raised hio (congrArg Prod.snd h))

end Source

namespace Desk

lemma readBatch_raises (t : RelocationTable) (first : Nat) : Raises K (readBatch t first) :=
  Raises.get.bind fun _ => (Source.readInto_raises hio _ _ _).zoom.bind fun _ =>
    (Raises.modify _).bind fun _ => Raises.get.bind fun _ => .pure _

/-- What every batch keeps of the value that is folded, the whole table keeps. -/
lemma foldBatches_keeps_raised {P : β → Prop} {f : β → List Relocation → Act Desk β}
    (hf : ∀ b batch d, P b → Sat (f b batch) d (fun b' _ => P b') fun e _ => K e)
    (t : RelocationTable) {b : β} (hb : P b) (d : Desk) :
    Sat (foldBatches t b f) d (fun b' _ => P b') fun e _ => K e := by
  have hfold : ∀ fuel first b d, P b →
      Sat (foldFrom t f fuel first b) d (fun b' _ => P b') fun e _ => K e := by
    intro fuel
    induction fuel with
    | zero => exact fun _ _ _ hb => hb
    | succ fuel ih =>
      intro first b d hb
      unfold foldFrom
      split_ifs
      · exact hb
      · exact (raised_iff_sat.1 (readBatch_raises hio t first d)).bind (fun batch d' _ =>
          (hf b batch d' hb).bind (fun b' d'' hb' => ih _ b' d'' hb') fun _ _ h => h) fun _ _ h => h
  exact hfold t.count 0 b d hb

lemma foldBatches_raises {f : β → List Relocation → Act Desk β}
    (hf : ∀ b batch, Raises K (f b batch)) (t : RelocationTable) (b : β) :
    Raises K (foldBatches t b f) := fun d =>
  raised_iff_sat.2 (foldBatches_keeps_raised hio (P := fun _ => True)
    (fun b batch d _ => raised_iff_sat.1 (hf b batch d)) t trivial d)

/-- Looking for the end of a chunk fails for the source, or because fields straddle all ends. -/
lemma boundaryFrom_raises (hstraddled : ∀ b, K (.parse (.straddled b))) (t : RelocationTable)
    (start fuel stop : Nat) : Raises K (boundaryFrom t start fuel stop) := by
  induction fuel generalizing stop with
  | zero => exact .throw (hstraddled _)
  | succ fuel ih =>
    unfold boundaryFrom
    exact (foldBatches_raises hio (fun _ _ => .pure _) t _).bind fun low =>
      .ite (.pure _) (.check (hstraddled _) ((Raises.note _).bind fun _ => ih _))

end Desk

lemma Bench.chunkEnd_raises (hstraddled : ∀ b, K (.parse (.straddled b))) (s : SectionInfo)
    (start : Nat) : Raises K (chunkEnd s start) := by
  unfold chunkEnd
  refine Raises.get.bind fun _ => ?_
  dsimp only
  split
  · exact .pure _
  · exact .ite (Desk.boundaryFrom_raises hio hstraddled _ _ _ _) (.pure _)

lemma Object.readStrings_raises (h : SectionHeader) (limit : Nat) :
    Raises K (readStrings h limit) := by
  unfold readStrings
  exact .ite ((Raises.note _).bind fun _ => Source.read_raises hio _ _) (Source.read_raises hio _ _)

end

/-! ### Parsing and checking -/

namespace Object

lemma readHeaders_raises (offset left index : Nat) :
    Raises Error.OfObject (readHeaders offset left index) := by
  induction left generalizing index with
  | zero => exact .pure _
  | succ left ih =>
    exact (Source.read_raises (fun _ => trivial) _ _).bind fun _ => (ih _).bind fun _ => .pure _

lemma sectionName_raised (names : Bytes) (index : Nat) (h : SectionHeader) :
    Raised Error.OfObject (sectionName names index h) := by
  unfold sectionName
  refine .ite (.ok _) ?_
  split
  · exact .ok _
  · exact .error trivial

lemma checkSymtab_raised (seen : Option SectionHeader) (h : SectionHeader) :
    Raised Error.OfObject (checkSymtab seen h) := by
  unfold checkSymtab
  exact .ite (.error trivial) (.ite (.error trivial) (.ok _))

lemma describe_raised (names : Bytes) (index : Nat) (seen : Option SectionHeader)
    (hs : List SectionHeader) : Raised Error.OfObject (describe names index seen hs) := by
  induction hs generalizing index seen with
  | nil => exact .ok _
  | cons h hs ih =>
    unfold describe
    refine (sectionName_raised _ _ _).bind fun name => ?_
    dsimp only
    exact .ite ((checkSymtab_raised _ _).bind fun _ => (ih _ _).bind fun _ => .ok _)
      ((ih _ _).bind fun _ => .ok _)

lemma tableFor_raised (sections : Array SectionInfo) (index : Nat) (h : SectionHeader) :
    Raised Error.OfObject (tableFor sections index h) := by
  unfold tableFor
  refine .ite (.ok _) ?_
  dsimp only
  split
  · exact .error trivial
  refine .ite (.ok _) (.ite (.error trivial) (.ite (.error trivial) (.ite (.ok _) ?_)))
  split
  · exact .ok _
  · exact .error trivial
  · exact .ite (.error trivial) (.ok _)

lemma attachTables_raised (rest : List SectionInfo) (sections : Array SectionInfo) :
    Raised Error.OfObject (attachTables rest sections) := by
  induction rest generalizing sections with
  | nil => exact .ok _
  | cons s rest ih =>
    unfold attachTables
    refine (tableFor_raised _ _ _).bind fun table => ?_
    rcases table with _ | ⟨target, table⟩
    · exact ih _
    · exact ih _

lemma ofHeaders_raised (names : Bytes) (headers : List SectionHeader) :
    Raised Error.OfObject (ofHeaders names headers) := by
  unfold ofHeaders
  refine (describe_raised _ _ _ _).bind fun ⟨sections, symtab⟩ => ?_
  dsimp only
  split
  · exact .error trivial
  split
  · exact .error trivial
  · exact (attachTables_raised _ _).bind fun _ => .ok _

/-- Whatever is wrong with a file header has nothing to do with fields. -/
lemma fileHeader_raised (b : Bytes) : Raised Error.OfObject (FileHeader.parse b) := by
  have hfault : ∀ (h : FileHeader) why, h.fault? = some why → (Error.parse why).OfObject := by
    intro h why hwhy
    unfold FileHeader.fault? at hwhy
    split_ifs at hwhy <;> cases hwhy <;> trivial
  unfold FileHeader.parse
  dsimp only
  split
  · exact .error (hfault _ _ ‹_›)
  · exact .ok _

lemma readLayout_raises (maxSections : Nat) : Raises Error.OfObject (readLayout maxSections) := by
  unfold readLayout
  refine (Source.read_raises (fun _ => trivial) _ _).bind fun b =>
    (Raises.ofExcept (fileHeader_raised b)).bind fun file => ?_
  dsimp only
  exact .check trivial (.check trivial ((readHeaders_raises _ _ _).bind fun _ => .pure _))

lemma parse_raises (config : LoaderConfig) : Raises Error.OfObject (parse config) := by
  unfold parse
  refine (readLayout_raises _).bind fun ⟨file, headers⟩ => ?_
  dsimp only
  split
  · exact .throw trivial
  · exact (readStrings_raises (fun _ => trivial) _ _).bind fun _ => .ofExcept (ofHeaders_raised _ _)

lemma symbolTable_raises (o : Object) (config : LoaderConfig) :
    Raises Error.OfObject (o.symbolTable config) :=
  (readStrings_raises (fun _ => trivial) _ _).bind fun _ => .pure _

end Object

namespace Desk

lemma checkFields_raises (t : RelocationTable) (size : Nat) :
    Raises Error.OfObject (checkFields t size) := by
  refine foldBatches_raises (fun _ => trivial) (fun _ batch => ?_) t ()
  split
  · exact .throw trivial
  · exact .pure _

end Desk

namespace Job

/-- **Inspecting** fails for the object. -/
lemma inspect_raises (config : LoaderConfig) (name : String) :
    Raises Error.OfObject (inspect config name) := by
  have htables : ∀ sections, Raises Error.OfObject (checkTables sections) := by
    intro sections
    induction sections with
    | nil => exact .pure _
    | cons s rest ih =>
      unfold checkTables
      split
      · exact (Desk.checkFields_raises _ _).zoom.bind fun _ => ih
      · exact ih
  have hnotes : ∀ l : List Event,
      Raises Error.OfObject (l.forM fun e => Act.note e : Act Job PUnit) := by
    intro l
    induction l with
    | nil => exact .pure _
    | cons e rest ih => exact (Raises.note e).bind fun _ => ih
  exact (Object.parse_raises _).zoom.bind fun o => (hnotes _).bind fun _ =>
    (o.symbolTable_raises _).zoom.bind fun _ => (htables _).bind fun _ => .pure _

end Job

/-! ### Asking for space -/

lemma Region.reserve_raises (size : Nat) : Raises Error.OfSpace (reserve size) := by
  intro r
  unfold reserve
  dsimp only
  split_ifs
  · exact .error trivial
  · exact .error trivial
  · exact .ok _

lemma Block.reserve_raises (sections : List SectionInfo) : Raises Error.OfSpace (reserve sections) := by
  have hpool : ∀ size align, Raises Error.OfSpace (Pool.reserve size align) := by
    intro size align p
    unfold Pool.reserve
    dsimp only
    split_ifs
    · exact .error trivial
    · exact .error trivial
    · exact .ok _
  unfold reserve
  exact .ite (.pure _) ((hpool _ _).bind fun _ => (Raises.note _).bind fun _ => .pure _)

/-- **Reserving** fails for want of space. -/
lemma Job.reserve_raises (o : Object) : Raises Error.OfSpace (reserve o) := by
  have hflash : ∀ sections, Raises Error.OfSpace (reserveFlash sections) := by
    intro sections
    induction sections with
    | nil => exact .pure _
    | cons s rest ih =>
      exact (Region.reserve_raises _).zoom.bind fun _ => ih.bind fun _ => .pure _
  exact (hflash _).bind fun _ => (Block.reserve_raises _).zoom.bind fun _ =>
    (Block.reserve_raises _).zoom.bind fun _ => .pure _

/-! ### Resolving -/

namespace SymbolTable

lemma read_raises (t : SymbolTable) (index : Nat) : Raises Error.OfLinking (t.read index) := by
  unfold read
  exact .check trivial ((Source.read_raises (fun _ => trivial) _ _).bind fun _ => .pure _)

lemma name_raised (t : SymbolTable) (index : Nat) (s : Symbol) :
    Raised Error.OfLinking (t.name index s) := by
  unfold name
  refine .ite (.error trivial) ?_
  split
  · exact .error trivial
  split
  · exact .error trivial
  · exact .ok _

lemma findFrom_raises (t : SymbolTable) (name : String) (left index : Nat) :
    Raises Error.OfLinking (t.findFrom name left index) := by
  induction left generalizing index with
  | zero => exact .pure _
  | succ left ih =>
    unfold findFrom
    exact (read_raises t index).bind fun s => .ite (.pure _) (ih _)

end SymbolTable

namespace Scope

lemma address_raises (c : Scope) (index : Nat) (s : Symbol) :
    Raises Error.OfLinking (c.address index s) := by
  unfold address
  refine .ite ?_ (.ite (.pure _) ?_)
  · refine (Raises.ofExcept (SymbolTable.name_raised _ _ _)).bind fun name => ?_
    split
    · exact .throw trivial
    · exact (Raises.note _).bind fun _ => .pure _
  · split
    · exact .throw trivial
    · exact .pure _

lemma resolve_raises (c : Scope) (index : Nat) : Raises Error.OfLinking (c.resolve index) := by
  unfold resolve
  refine .ite (.pure _) ((Raises.modifyGet _).bind fun found => ?_)
  split
  · exact .pure _
  · exact (SymbolTable.read_raises _ _).zoom.bind fun s => (address_raises c index s).bind fun _ =>
      (Raises.modify _).bind fun _ => .pure _

lemma entryAddress_raises (c : Scope) (name : String) : Raises Error.OfLinking (c.entryAddress name) := by
  unfold entryAddress
  refine (SymbolTable.findFrom_raises _ _ _ _).bind fun found => ?_
  split
  · exact .throw trivial
  dsimp only
  split
  · exact .throw trivial
  · exact .pure _

end Scope

/-! ### Relocating -/

namespace Relocation

variable {resolve : Nat → Act σ Addr} {w : Bytes × σ}

/-- A field inside the buffer is not refused for where it is. -/
lemma apply_raised (h : ∀ i, Raises Error.OfLinking (resolve i)) {first : Nat} (base : Addr)
    (strict : Bool) {r : Relocation} (hinside : inside first w.1.size r) :
    Sat (r.apply first base strict resolve) w (fun _ _ => True) fun e _ => e.OfLinking := by
  have htarget : Raises Error.OfLinking (zoom (Part.second (α := Bytes)) (resolve r.symbol)) :=
    (h _).zoom
  have hplace : first ≤ r.start && r.start - first + 4 ≤ w.1.size := by
    rw [inside, Bool.and_eq_true, decide_eq_true_eq, decide_eq_true_eq, stop] at hinside
    rw [Bool.and_eq_true, decide_eq_true_eq, decide_eq_true_eq]
    omega
  unfold apply
  refine Sat.get_bind ?_
  dsimp only
  rw [if_pos hplace]
  refine raised_iff_sat.1 ((?_ : Raises Error.OfLinking _) w)
  split
  · exact .pure _
  · exact htarget.bind fun _ => (Raises.modify _).bind fun _ => .pure _
  · refine htarget.bind fun _ => Raises.get.bind fun _ => ?_
    split
    · exact .throw trivial
    · exact (Raises.modify _).bind fun _ => .pure _
  · exact .check trivial ((Raises.note _).bind fun _ => .pure _)

lemma applyChunk_raises (h : ∀ i, Raises Error.OfLinking (resolve i)) (first : Nat) (base : Addr)
    (strict : Bool) (rs : List Relocation) :
    Raises Error.OfLinking (applyChunk first base strict resolve rs) := by
  have hall : ∀ (rs : List Relocation) t,
      Raises Error.OfLinking (applyAll first base strict resolve rs t) := by
    intro rs
    induction rs with
    | nil => exact fun t => .pure t
    | cons r rs ih =>
      intro t w
      unfold applyAll
      refine raised_iff_sat.2 (Sat.get_bind ?_)
      split_ifs with hinside
      · exact (apply_raised h base strict hinside).bind (fun _ w' _ => raised_iff_sat.1 (ih _ w'))
          fun _ _ h => h
      · exact raised_iff_sat.1 (ih t w)
  unfold applyChunk
  exact Raises.get.bind fun _ => .check trivial (hall _ _)

end Relocation

/-- **Staging** a chunk fails for linking. -/
lemma Desk.stageChunk_raises (scope : Scope) (strict : Bool) (s : SectionInfo) (base : Addr)
    (padding : UInt8) (start len : Nat) :
    Raises Error.OfLinking (stageChunk scope strict s base padding start len) := by
  unfold stageChunk
  refine (Raises.modify _).bind fun _ =>
    (Source.readInto_raises (fun _ => trivial) _ _ _).zoom.bind fun _ => ?_
  split
  · exact .pure _
  · exact foldBatches_raises (fun _ => trivial) (fun sum batch =>
      (Relocation.applyChunk_raises scope.resolve_raises _ _ _ _).zoom.bind fun _ => .pure _) _ _

/-- **Copying** the variables fails for linking. -/
lemma Workshop.copyAll_raises (scope : Scope) (strict : Bool) (ram : RamBlock)
    (offsets : List (SectionInfo × Nat)) (sum : Tally) :
    Raises Error.OfLinking (copyAll scope strict ram offsets sum) := by
  have hrelocate : ∀ (s : SectionInfo) start base t fuel first sum,
      Raises Error.OfLinking (copySection.relocate scope strict s start base t fuel first sum) := by
    intro s start base t fuel
    induction fuel with
    | zero => exact fun _ _ => .pure _
    | succ fuel ih =>
      intro first sum
      unfold copySection.relocate
      exact .ite (.pure _) ((Desk.readBatch_raises (fun _ => trivial) t first).zoom.bind fun _ =>
        (Relocation.applyChunk_raises scope.resolve_raises _ _ _ _).zoom.bind fun _ => ih _ _)
  have hsection : ∀ (s : SectionInfo) offset,
      Raises Error.OfLinking (copySection scope strict ram s offset) := by
    intro s offset
    unfold copySection
    refine (Source.readInto_raises (fun _ => trivial) _ _ _).zoom.bind fun _ => ?_
    split
    · exact (Raises.pure _).bind fun _ => (Raises.note _).bind fun _ => .pure _
    · exact (hrelocate s _ _ _ _ _ _).bind fun _ => (Raises.note _).bind fun _ => .pure _
  induction offsets generalizing sum with
  | nil => exact .pure _
  | cons q rest ih => exact (hsection q.1 q.2).bind fun _ => ih _

/-- The last thing that committing does cannot fail. -/
lemma Job.clearLast_raises (space : Reservation) (sum : Tally) :
    Raises K (clearLast space sum) := by
  unfold clearLast
  split
  · exact ((Raises.modify _).bind fun _ => Raises.note _).zoom.bind fun _ => .pure _
  · exact .pure _

/-! ### Writing -/

namespace Region

/-- An access outside the partition is a fault of flash. -/
lemma checkSpan_raised (offset len : Nat) (r : Region) :
    Op.Sat (checkSpan offset len) r (fun _ _ => True) fun e _ => ∃ why, e = .flash why := by
  unfold Op.Sat checkSpan
  split_ifs
  · trivial
  · exact ⟨_, rfl⟩

/-- Erasing fails for flash. -/
lemma erase_raises (s : FlashSpan) (r : Region) :
    Op.Sat (erase s) r (fun _ _ => True) fun e _ => ∃ why, e = .flash why := by
  have hdevice : ∀ offset len d, Op.Sat (Nor.erase offset len) d (fun _ _ => True)
      fun e _ => ∃ why, e = .flash why := by
    intro offset len d
    unfold Op.Sat Nor.erase
    split_ifs
    · exact ⟨_, rfl⟩
    · exact ⟨_, rfl⟩
    · exact ⟨_, rfl⟩
    · trivial
  unfold erase
  split_ifs
  · trivial
  · exact Op.Sat.bind (checkSpan_raised _ _ r)
      (fun _ r' _ => Op.Sat.get_bind (Op.sat_zoom.2 (hdevice _ _ _))) fun _ _ h => h

/-- Writing fails for flash. -/
lemma write_raises (offset : Nat) (data : Bytes) (r : Region) :
    Op.Sat (write offset data) r (fun _ _ => True) fun e _ => ∃ why, e = .flash why := by
  have hdevice : ∀ offset d, Op.Sat (Nor.write offset data) d (fun _ _ => True)
      fun e _ => ∃ why, e = .flash why := by
    intro offset d
    unfold Op.Sat Nor.write
    split_ifs
    · exact ⟨_, rfl⟩
    · exact ⟨_, rfl⟩
    · exact ⟨_, rfl⟩
    · rcases Nor.firstRise? d.contents offset data with _ | i
      · trivial
      · exact ⟨_, rfl⟩
  unfold write
  refine Op.Sat.get_bind ?_
  dsimp only
  split_ifs
  · exact Op.Sat.throw_bind ⟨_, rfl⟩
  · exact Op.Sat.bind (checkSpan_raised _ _ r)
      (fun _ r' _ => Op.Sat.get_bind (Op.sat_zoom.2 (hdevice _ _))) fun _ _ h => h

end Region

/-! ### What flash has no part in -/

/-- The failure is one of a flash device or region. -/
def Error.isFlash : Error → Bool
  | .flash _ => true
  | _ => false

namespace Error

lemma OfObject.not_flash {e : Error} (h : e.OfObject) : e.isFlash = false := by
  cases e <;> first | rfl | exact h.elim

lemma OfSpace.not_flash {e : Error} (h : e.OfSpace) : e.isFlash = false := by
  cases e <;> first | rfl | exact h.elim

lemma OfLinking.not_flash {e : Error} (h : e.OfLinking) : e.isFlash = false := by
  cases e <;> first | rfl | exact h.elim

end Error

/-- If it failed, then not for flash. -/
def Benign (r : Except Error α) : Prop := ∀ e, r = .error e → e.isFlash = false

namespace Act

/-- However it ends, the action does not fail for flash. -/
def OffFlash (x : Act σ α) : Prop := ∀ s, Benign (x s).result

variable {x : Act σ α}

lemma OffFlash.raises (h : OffFlash x) : Raises (fun e => e.isFlash = false) x := h

lemma Raises.offFlash (h : Raises K x) (hK : ∀ e, K e → e.isFlash = false) : OffFlash x := h.mono hK

end Act

lemma Region.reserve_offFlash (size : Nat) : OffFlash (reserve size) :=
  (reserve_raises size).offFlash fun _ h => h.not_flash

lemma Desk.stageChunk_offFlash (scope : Scope) (strict : Bool) (s : SectionInfo) (base : Addr)
    (padding : UInt8) (start len : Nat) :
    OffFlash (stageChunk scope strict s base padding start len) :=
  (stageChunk_raises _ _ _ _ _ _ _).offFlash fun _ h => h.not_flash

lemma Workshop.copyAll_offFlash (scope : Scope) (strict : Bool) (ram : RamBlock)
    (offsets : List (SectionInfo × Nat)) (sum : Tally) :
    OffFlash (copyAll scope strict ram offsets sum) :=
  (copyAll_raises _ _ _ _ _).offFlash fun _ h => h.not_flash

lemma Scope.entryAddress_offFlash (c : Scope) (name : String) : OffFlash (c.entryAddress name) :=
  (c.entryAddress_raises name).offFlash fun _ h => h.not_flash

namespace Job

lemma inspect_offFlash (config : LoaderConfig) (name : String) : OffFlash (inspect config name) :=
  (inspect_raises config name).offFlash fun _ h => h.not_flash

/-- Running out of flash is not a fault of flash. -/
lemma reserve_offFlash (o : Object) : OffFlash (Job.reserve o) :=
  (reserve_raises o).offFlash fun _ h => h.not_flash

end Job

end FlashLink
