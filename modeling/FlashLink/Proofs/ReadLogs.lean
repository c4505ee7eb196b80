import FlashLink.Proofs.Supported
import FlashLink.Proofs.Untouched

/-!
What a load reads, and what for.

A source keeps a record of its reads. Here every read is put down with its purpose, and the purpose says
where in the object the read may be and how long. All that looks something up, be it a header, a name, an
entry or a symbol, reads from the tables of the object, however it ends.
-/

namespace FlashLink

open Act

/-- What fails at once stays where it is. -/
lemma Act.Preserves.throw_bind {σ α β : Type} {I : σ → Prop} {e : Error} {f : α → Act σ β} :
    Preserves I (MonadExcept.throw e >>= f) := fun _ hs => hs

/-! ### The tables of an object -/

namespace Object

/-- Header of the table of section names. -/
def nameTable? (data : Bytes) : Option SectionHeader := (rawHeaders data)[(rawFile data).shstrndx.toNat]?

/-- Header of the symbol table. -/
def symbolTable? (data : Bytes) : Option SectionHeader :=
  (rawHeaders data).find? (·.type == SectionHeader.symtab)

/-- Header of the table of symbol names. -/
def stringTable? (data : Bytes) : Option SectionHeader :=
  (symbolTable? data).bind fun h => (rawHeaders data)[h.link.toNat]?

/-- The object has this relocation table. -/
def HasTable (data : Bytes) (t : RelocationTable) : Prop :=
  ∃ h ∈ rawHeaders data, h.type = SectionHeader.rel ∧ t = h.table

/-- The table is the symbol table of the object, whatever names it has. -/
def HasSymbols (data : Bytes) (t : SymbolTable) : Prop :=
  ∃ h, symbolTable? data = some h ∧ t.offset = h.offset ∧ t.count = h.size / Symbol.width

end Object

/-! ### Purposes -/

/-- What a read is for. -/
inductive Purpose where
  /-- The header of the object, or of one of its sections. -/
  | header
  /-- Names of sections, or of symbols. -/
  | names
  /-- A batch of relocation entries. -/
  | entries
  | symbol
  /-- A chunk of the section with that index, which goes to flash. -/
  | chunk (index : Nat)
  /-- The section with that index as a whole, which goes to the pool. -/
  | whole (index : Nat)
deriving DecidableEq

namespace Purpose

/-- Whether the read looks something up. -/
def isTable : Purpose → Bool
  | header | names | entries | symbol => true
  | chunk _ | whole _ => false

/-- What may be read for a purpose. -/
def Asks (config : LoaderConfig) (data : Bytes) : Purpose → ReadRequest → Prop
  | header, r => r = ⟨0, FileHeader.width⟩ ∨ ∃ i < (Object.rawHeaders data).length,
      r = ⟨(Object.rawFile data).shoff.toNat + i * SectionHeader.width, SectionHeader.width⟩
  | names, r =>
    (∃ h, Object.nameTable? data = some h ∧ r = ⟨h.offset, min h.size config.maxNames⟩) ∨
      ∃ h, Object.stringTable? data = some h ∧ r = ⟨h.offset, min h.size config.maxStrings⟩
  | entries, r => ∃ t first n, Object.HasTable data t ∧ first + n ≤ t.count ∧ n ≤ config.batchSize ∧
      r = ⟨t.offset + first * Relocation.width, n * Relocation.width⟩
  | symbol, r => ∃ t i, Object.HasSymbols data t ∧ i < t.count ∧
      r = ⟨t.offset + i * Symbol.width, Symbol.width⟩
  | chunk index, r => ∃ h, (Object.rawHeaders data)[index]? = some h ∧
      h.class?.any SectionClass.isFlash ∧ h.offset ≤ r.offset ∧
      r.offset + r.len ≤ h.offset + h.size ∧ r.len ≤ config.chunkSize
  | whole index, r => ∃ h, (Object.rawHeaders data)[index]? = some h ∧ h.class? = some .data ∧
      r = ⟨h.offset, h.size⟩

end Purpose

/-- The longest read there may be, apart from those of whole sections. -/
def LoaderConfig.readLimit (c : LoaderConfig) (data : Bytes) : Nat :=
  let size (h : Option SectionHeader) : Nat := (h.map (·.size)).getD 0
  max FileHeader.width (max c.chunkSize (max (c.batchSize * Relocation.width)
    (max (min c.maxNames (size (Object.nameTable? data)))
      (min c.maxStrings (size (Object.stringTable? data))))))

/-- Only whole sections are read without a limit. -/
lemma Purpose.Asks.len_le {config : LoaderConfig} {data : Bytes} {p : Purpose} {r : ReadRequest}
    (h : p.Asks config data r) (hp : ∀ i, p ≠ .whole i) : r.len ≤ config.readLimit data := by
  unfold LoaderConfig.readLimit
  dsimp only
  cases p with
  | header =>
    obtain rfl | ⟨i, -, rfl⟩ := h
    · exact Nat.le_max_left ..
    · have : SectionHeader.width ≤ FileHeader.width := by decide
      dsimp only
      omega
  | names =>
    obtain ⟨t, ht, rfl⟩ | ⟨t, ht, rfl⟩ := h
    · rw [ht, Option.map_some, Option.getD_some]
      dsimp only
      omega
    · rw [ht, Option.map_some, Option.getD_some]
      dsimp only
      omega
  | entries =>
    obtain ⟨t, first, n, -, -, hn, rfl⟩ := h
    have := Nat.mul_le_mul_right Relocation.width hn
    dsimp only
    omega
  | symbol =>
    obtain ⟨t, i, -, -, rfl⟩ := h
    have : Symbol.width ≤ FileHeader.width := by decide
    dsimp only
    omega
  | chunk index =>
    obtain ⟨-, -, -, -, -, hlen⟩ := h
    omega
  | whole index => exact (hp index rfl).elim

/-! ### Logs -/

structure LoggedRead where
  purpose : Purpose
  request : ReadRequest
deriving DecidableEq

/-- What has been read for a purpose, in order. -/
def requestsFor (p : Purpose) (log : List LoggedRead) : List ReadRequest :=
  (log.filter (·.purpose = p)).map (·.request)

section RequestsFor

variable {p : Purpose} {log : List LoggedRead}

lemma requestsFor_append (log log' : List LoggedRead) :
    requestsFor p (log ++ log') = requestsFor p log ++ requestsFor p log' := by
  rw [requestsFor, List.filter_append, List.map_append]
  rfl

lemma requestsFor_singleton (r : ReadRequest) : requestsFor p [⟨p, r⟩] = [r] := by
  simp [requestsFor]

lemma requestsFor_eq_nil (h : ∀ r ∈ log, r.purpose ≠ p) : requestsFor p log = [] := by
  rw [requestsFor, List.map_eq_nil_iff, List.filter_eq_nil_iff]
  exact fun r hr => by simpa using h r hr

end RequestsFor

namespace Source

/-- The second source is the first one after the reads of the log, in order. -/
structure Logged (log : List LoggedRead) (s t : Source) : Prop where
  same : Same s t
  reads_eq : t.reads = (log.map (·.request)).reverse ++ s.reads

variable {s t u : Source} {log log' : List LoggedRead} {config : LoaderConfig} {p : Purpose}
  {offset len : Nat}

lemma Logged.refl (s : Source) : Logged [] s s := ⟨.refl s, rfl⟩

lemma Logged.trans (h : Logged log s t) (h' : Logged log' t u) : Logged (log ++ log') s u := by
  refine ⟨h.same.trans h'.same, ?_⟩
  rw [h'.reads_eq, h.reads_eq, List.map_append, List.reverse_append, List.append_assoc]

lemma read_logged (p : Purpose) (offset len : Nat) (s : Source) :
    Sat (read offset len) s (fun _ t => Logged [⟨p, offset, len⟩] s t)
      fun _ t => Logged [⟨p, offset, len⟩] s t := by
  unfold Sat read
  rcases s.deliver offset len with ⟨got, _ | e⟩
  · exact ⟨⟨rfl, rfl⟩, rfl⟩
  · exact ⟨⟨rfl, rfl⟩, rfl⟩

lemma readInto_logged (p : Purpose) (start offset len : Nat) (buf : Bytes) (s : Source) :
    Sat (readInto start offset len) (buf, s) (fun _ t => Logged [⟨p, offset, len⟩] s t.2)
      fun _ t => Logged [⟨p, offset, len⟩] s t.2 := by
  unfold Sat readInto
  dsimp only
  rcases s.deliver offset len with ⟨got, _ | e⟩
  · exact ⟨⟨rfl, rfl⟩, rfl⟩
  · exact ⟨⟨rfl, rfl⟩, rfl⟩

/-! ### Browsing -/

/-- All that has been read since is for tables. -/
def Browsed (config : LoaderConfig) (s t : Source) : Prop :=
  ∃ log, Logged log s t ∧ ∀ r ∈ log, r.purpose.isTable ∧ r.purpose.Asks config s.data r.request

namespace Browsed

lemma refl (s : Source) : Browsed config s s := ⟨[], .refl s, nofun⟩

lemma same (h : Browsed config s t) : Same s t := h.choose_spec.1.same

lemma trans (h : Browsed config s t) (h' : Browsed config t u) : Browsed config s u := by
  obtain ⟨log, hlog, hall⟩ := h
  obtain ⟨log', hlog', hall'⟩ := h'
  rw [hlog.same.data_eq] at hall'
  exact ⟨log ++ log', hlog.trans hlog', List.forall_mem_append.2 ⟨hall, hall'⟩⟩

/-- One more read. -/
lemma logged (h : Browsed config s t) {r : LoggedRead} (ht : r.purpose.isTable)
    (hr : r.purpose.Asks config s.data r.request) (hlog : Logged [r] t u) : Browsed config s u :=
  h.trans ⟨[r], hlog, List.forall_mem_singleton.2 ⟨ht, h.same.data_eq ▸ hr⟩⟩

end Browsed

lemma read_browses (p : Purpose) (ht : p.isTable) (hr : p.Asks config s.data ⟨offset, len⟩) :
    Preserves (Browsed config s) (read offset len) := fun t h =>
  (read_logged p offset len t).mono (fun _ _ hlog => h.logged ht hr hlog)
    fun _ _ hlog => h.logged ht hr hlog

end Source

/-! ### Parsing -/

namespace Object

open Source (Browsed)

variable {config : LoaderConfig} {s : Source}

lemma readHeaders_browses {left index : Nat} (h : index + left ≤ (rawHeaders s.data).length) :
    Preserves (Browsed config s) (readHeaders (rawFile s.data).shoff.toNat left index) := by
  induction left generalizing index with
  | zero => exact .pure _
  | succ left ih =>
    unfold readHeaders
    have hread : Preserves (Browsed config s) (Source.read
        ((rawFile s.data).shoff.toNat + index * SectionHeader.width) SectionHeader.width) :=
      Source.read_browses .header rfl (.inr ⟨index, by omega, rfl⟩)
    exact hread.bind fun _ => (ih (by omega)).bind fun _ => .pure _

lemma readStrings_browses {h : SectionHeader} {limit : Nat}
    (hr : Purpose.names.Asks config s.data ⟨h.offset, min h.size limit⟩) :
    Preserves (Browsed config s) (readStrings h limit) := by
  unfold readStrings
  have hread := Source.read_browses .names rfl hr
  split_ifs
  · exact (Preserves.note _).bind fun _ => hread
  · exact hread

lemma readLayout_browses (maxSections : Nat) : Preserves (Browsed config s) (readLayout maxSections) := by
  intro u hu
  unfold readLayout
  have hread : Preserves (Browsed config s) (Source.read 0 FileHeader.width) :=
    Source.read_browses .header rfl (.inl rfl)
  refine Sat.bind ((hread u hu).and (read_of_same hu.same (by decide))) ?_ fun _ _ h => h.1
  rintro b v ⟨hv, -, hb, -⟩
  refine Sat.bind (P := fun file w => Browsed config s w ∧ file = rawFile s.data)
    (G := fun _ w => Browsed config s w)
    (sat_ofExcept (fun _ h => ⟨hv, by rw [fileHeader_parse_ok h, hb, rawFile]⟩) fun _ _ => hv) ?_
    fun _ _ h => h
  rintro _ w ⟨hw, rfl⟩
  dsimp only
  split_ifs
  · exact Sat.throw_bind hw
  · exact Sat.throw_bind hw
  · exact Sat.throw_bind hw
  · have hlength : 0 + (rawFile s.data).shnum.toNat ≤ (rawHeaders s.data).length := by
      simp [rawHeaders, rawFile]
    exact ((readHeaders_browses hlength).bind fun _ => .pure _) w hw

lemma parse_browses (config : LoaderConfig) : Preserves (Browsed config s) (parse config) := by
  intro u hu
  unfold parse
  refine Sat.bind ((readLayout_browses config.maxSections u hu).and
    (readLayout_sat hu.same config.maxSections)) ?_ fun _ _ h => h.1
  rintro ⟨file, hs⟩ v ⟨hv, -, rfl, rfl⟩
  dsimp only
  rcases hn : (rawHeaders s.data)[_]? with _ | h <;> dsimp only
  · exact hv
  · exact ((readStrings_browses (.inl ⟨h, hn, rfl⟩)).bind fun _ => .ofExcept _) v hv

lemma symbolTable_browses {o : Object} (hd : Describes config s.data o) :
    Preserves (Browsed config s) (o.symbolTable config) := by
  have hstrings : stringTable? s.data = some o.strtab := by
    rw [stringTable?, symbolTable?, hd.symtab_eq, Option.bind_some, hd.strtab_eq]
  exact (readStrings_browses (.inr ⟨_, hstrings, rfl⟩)).bind fun _ => .pure _

/-! ### Relocation tables -/

/-- Every table that is attached stands in a header. -/
lemma attachTables_tables {P : RelocationTable → Prop} {rest : List SectionInfo}
    {sections out : Array SectionInfo} (hok : attachTables rest sections = .ok out)
    (hrest : ∀ q ∈ rest, q.header.type = SectionHeader.rel →
      P ⟨q.header.offset, q.header.size / Relocation.width⟩)
    (hsections : ∀ (i : Nat) (q : SectionInfo), sections[i]? = some q → ∀ t ∈ q.relocations, P t) :
    ∀ (i : Nat) (q : SectionInfo), out[i]? = some q → ∀ t ∈ q.relocations, P t := by
  induction rest generalizing sections with
  | nil =>
    cases hok
    exact hsections
  | cons q rest ih =>
    obtain ⟨hq, hrest⟩ := List.forall_mem_cons.1 hrest
    unfold attachTables at hok
    obtain ⟨found, hfound, hok⟩ := ok_of_bind hok
    rcases found with _ | ⟨target, table⟩ <;> dsimp only at hok
    · exact ih hok hrest hsections
    · obtain ⟨htarget, rfl, -⟩ := tableFor_found hfound
      refine ih hok hrest fun i q' hq' t ht => ?_
      rw [Array.getElem?_modify] at hq'
      split_ifs at hq' with hi
      · obtain ⟨q'', -, rfl⟩ := Option.map_eq_some_iff.1 hq'
        cases ht
        exact hq htarget.1
      · exact hsections i q' hq' t ht

lemma ofHeaders_tables {names data : Bytes} {o : Object} (hok : ofHeaders names (rawHeaders data) = .ok o) :
    ∀ q ∈ o.sections.toList, ∀ t ∈ q.relocations, HasTable data t := by
  obtain ⟨plain, hdescribe, -, -, hsections⟩ := ofHeaders_inv hok
  have hheaders := describe_headers hdescribe
  obtain ⟨-, hplain, -⟩ := describe_ok hdescribe
  intro q hq
  obtain ⟨i, hi⟩ := List.mem_iff_getElem?.1 hq
  rw [Array.getElem?_toList] at hi
  refine attachTables_tables (P := HasTable data) hsections (fun p hp hrel => ?_)
    (fun k p hk t ht => ?_) i q hi
  · exact ⟨p.header, hheaders ▸ List.mem_map_of_mem hp, hrel, rfl⟩
  · rw [List.getElem?_toArray] at hk
    obtain ⟨-, -, -, -, hbare⟩ := hplain k p hk
    rw [hbare] at ht
    cases ht

lemma parse_tables {src u : Source} (hu : Source.Same src u) (config : LoaderConfig) :
    Sat (parse config) u
      (fun o _ => ∀ q ∈ o.sections.toList, ∀ t ∈ q.relocations, HasTable src.data t) fun _ _ => True := by
  unfold parse
  refine Sat.bind (readLayout_sat hu config.maxSections) ?_ fun _ _ _ => trivial
  rintro ⟨file, hs⟩ v ⟨hv, rfl, rfl⟩
  dsimp only
  rcases (rawHeaders src.data)[_]? with _ | h <;> dsimp only
  · trivial
  refine Sat.bind (readStrings_sat hv h config.maxNames) ?_ fun _ _ _ => trivial
  exact fun names w _ => sat_ofExcept (fun o ho => ofHeaders_tables ho) fun _ _ => trivial

end Object

/-! ### Symbols -/

open Source (Browsed)

section Symbols

variable {config : LoaderConfig} {s : Source} {c : Scope}

lemma SymbolTable.read_browses {t : SymbolTable} (ht : Object.HasSymbols s.data t) (index : Nat) :
    Preserves (Browsed config s) (t.read index) := by
  unfold SymbolTable.read
  split_ifs with h
  · exact .throw_bind
  · exact (Source.read_browses .symbol rfl ⟨t, index, ht, by omega, rfl⟩).bind fun _ => .pure _

lemma SymbolTable.findFrom_browses {t : SymbolTable} (ht : Object.HasSymbols s.data t) (name : String)
    (left index : Nat) : Preserves (Browsed config s) (t.findFrom name left index) := by
  induction left generalizing index with
  | zero => exact .pure _
  | succ left ih => exact (read_browses ht index).bind fun _ => .ite (.pure _) (ih _)

namespace Scope

lemma entryAddress_browses (hc : Object.HasSymbols s.data c.symbols) (name : String) :
    Preserves (Browsed config s) (c.entryAddress name) := by
  refine (SymbolTable.findFrom_browses hc name _ _).bind fun found => ?_
  rcases found with _ | q
  · exact .throw _
  · dsimp only
    rcases (if q.isAbsolute then some 0 else c.placement.get? q.home) with _ | base
    · exact .throw _
    · exact .pure _

lemma address_browses (index : Nat) (q : Symbol) :
    Preserves (fun l : Linker => Browsed config s l.source) (c.address index q) := fun l hl =>
  (address_yields c index q l).mono (fun _ _ h => h.2 ▸ hl) fun _ _ h => h.2 ▸ hl

lemma resolve_browses (hc : Object.HasSymbols s.data c.symbols) (index : Nat) :
    Preserves (fun l : Linker => Browsed config s l.source) (c.resolve index) := by
  unfold resolve
  refine .ite (.pure _) (Preserves.bind (fun l hl => ?_) fun found => ?_)
  · exact sat_modifyGet.2 hl
  · rcases found with _ | addr
    · refine (Preserves.zoom fun l hl => SymbolTable.read_browses hc index l.source hl).bind fun q =>
        (address_browses index q).bind fun addr => Preserves.bind (fun l hl => ?_) fun _ => .pure addr
      exact sat_modify.2 hl
    · exact .pure _

end Scope

end Symbols

/-! ### Relocating -/

namespace Relocation

variable {σ : Type} {I : σ → Prop} {resolve : Nat → Act σ Addr}

/-- Relocating does nothing to what stands beside the buffer but resolve symbols. -/
lemma apply_preserves (hres : ∀ i, Preserves I (resolve i)) (first : Nat) (base : Addr) (strict : Bool)
    (r : Relocation) : Preserves (fun w : Bytes × σ => I w.2) (r.apply first base strict resolve) := by
  have htarget : Preserves (fun w : Bytes × σ => I w.2) (zoom Part.second (resolve r.symbol)) :=
    .zoom fun w hw => hres r.symbol w.2 hw
  unfold apply
  refine Preserves.get.bind fun w => .ite ?_ .throw_bind
  rcases r.kind <;> dsimp only
  · exact .pure _
  · exact htarget.bind fun _ => (Preserves.modify (by rintro ⟨_, _⟩ h; exact h)).bind fun _ => .pure _
  · refine htarget.bind fun target => Preserves.get.bind fun w => ?_
    split
    · exact .throw _
    · exact (Preserves.modify (by rintro ⟨_, _⟩ h; exact h)).bind fun _ => .pure _
  · exact .ite .throw_bind ((Preserves.note _).bind fun _ => .pure _)

lemma applyChunk_preserves (hres : ∀ i, Preserves I (resolve i)) (first : Nat) (base : Addr)
    (strict : Bool) (rs : List Relocation) :
    Preserves (fun w : Bytes × σ => I w.2) (applyChunk first base strict resolve rs) := by
  have hall : ∀ (rs : List Relocation) t,
      Preserves (fun w : Bytes × σ => I w.2) (applyAll first base strict resolve rs t) := by
    intro rs
    induction rs with
    | nil => exact fun t => .pure t
    | cons r rs ih =>
      intro t
      unfold applyAll
      exact Preserves.get.bind fun _ =>
        .ite ((apply_preserves hres first base strict r).bind fun _ => ih _) (ih t)
  unfold applyChunk
  exact Preserves.get.bind fun _ => .ite .throw_bind (hall rs _)

end Relocation

/-! ### Batches -/

/-- The desk has browsed, and its batches are within the limit. -/
def Desk.Browses (config : LoaderConfig) (s : Source) (d : Desk) : Prop :=
  Browsed config s d.linker.source ∧ d.scratch.batchSize ≤ config.batchSize

section Batches

variable {config : LoaderConfig} {s : Source} {t : RelocationTable} {c : Scope}

namespace Desk

lemma readBatch_browses (ht : Object.HasTable s.data t) {first : Nat} (hfirst : first < t.count) :
    Preserves (Browses config s) (readBatch t first) := by
  rintro d ⟨hd, hsize⟩
  have hsource : Sat (readBatch t first) d (fun _ e => Browsed config s e.linker.source)
      fun _ e => Browsed config s e.linker.source := by
    unfold readBatch
    refine Sat.get_bind (Sat.bind (P := fun _ e => Browsed config s e.linker.source)
      (G := fun _ e => Browsed config s e.linker.source) ?_
      (fun _ _ he => Sat.modify_bind (Sat.get_bind (sat_pure.2 he))) fun _ _ h => h)
    set n := min d.scratch.batchSize (t.count - first) with hn
    have hr : Purpose.entries.Asks config s.data
        ⟨t.offset + first * Relocation.width, n * Relocation.width⟩ :=
      ⟨t, first, n, ht, by omega, by omega, rfl⟩
    rw [sat_zoom]
    exact (Source.readInto_logged .entries 0 _ _ _ _).mono (fun _ _ h => hd.logged rfl hr h)
      fun _ _ h => hd.logged rfl hr h
  have hkept : ∀ e : Desk, e.sizes = d.sizes → e.scratch.batchSize ≤ config.batchSize := by
    intro e he
    have hraw : e.scratch.raw.size = d.scratch.raw.size := congrArg Prod.snd he
    rwa [Scratch.batchSize, hraw]
  exact (hsource.and (readBatch_keeps t first d)).mono (fun _ e h => ⟨h.1, hkept e h.2⟩)
    fun _ e h => ⟨h.1, hkept e h.2⟩

lemma foldBatches_browses {β : Type} {f : β → List Relocation → Act Desk β}
    (ht : Object.HasTable s.data t) (hf : ∀ b batch, Preserves (Browses config s) (f b batch)) (b : β) :
    Preserves (Browses config s) (foldBatches t b f) := by
  have hfold : ∀ fuel first b, Preserves (Browses config s) (foldFrom t f fuel first b) := by
    intro fuel
    induction fuel with
    | zero => exact fun _ b => .pure b
    | succ fuel ih =>
      intro first b
      unfold foldFrom
      split_ifs with hfirst
      · exact .pure b
      · exact (readBatch_browses ht (by omega)).bind fun batch => (hf b batch).bind fun _ => ih _ _
  exact hfold t.count 0 b

lemma checkFields_browses (ht : Object.HasTable s.data t) (size : Nat) :
    Preserves (Browses config s) (checkFields t size) := by
  refine foldBatches_browses ht (fun _ batch => ?_) ()
  split
  · exact .throw _
  · exact .pure _

lemma boundaryFrom_browses (ht : Object.HasTable s.data t) (start fuel stop : Nat) :
    Preserves (Browses config s) (boundaryFrom t start fuel stop) := by
  induction fuel generalizing stop with
  | zero => exact .throw _
  | succ fuel ih =>
    unfold boundaryFrom
    refine (foldBatches_browses ht (fun _ _ => .pure _) stop).bind fun low => .ite (.pure _) ?_
    exact .ite .throw_bind ((Preserves.note _).bind fun _ => ih _)

lemma chunkEnd_browses {q : SectionInfo} (ht : ∀ t ∈ q.relocations, Object.HasTable s.data t)
    (start : Nat) : Preserves (Browses config s) (Bench.chunkEnd q start) := by
  unfold Bench.chunkEnd
  refine Preserves.get.bind fun d => ?_
  dsimp only
  rcases hr : q.relocations with _ | t <;> dsimp only
  · exact .pure _
  · exact .ite (boundaryFrom_browses (ht t hr) _ _ _) (.pure _)

lemma relocateChunk_browses (hc : Object.HasSymbols s.data c.symbols) (ht : Object.HasTable s.data t)
    (strict : Bool) (base : Addr) (start len : Nat) :
    Preserves (Browses config s) (relocateChunk c strict t base start len) := by
  refine foldBatches_browses ht (fun sum batch => Preserves.bind (.zoom fun d hd => ?_) fun _ => .pure _) _
  exact (Relocation.applyChunk_preserves (Scope.resolve_browses hc) start base strict batch _ hd.1).mono
    (fun _ _ h => ⟨h, hd.2⟩) fun _ _ h => ⟨h, hd.2⟩

end Desk

/-- Relocating in the pool looks up entries and symbols. -/
lemma Workshop.relocate_browses (hc : Object.HasSymbols s.data c.symbols) (ht : Object.HasTable s.data t)
    (strict : Bool) (q : SectionInfo) (start : Nat) (base : Addr) (fuel first : Nat) (sum : Tally) :
    Preserves (fun w : Workshop => w.1.Browses config s)
      (copySection.relocate c strict q start base t fuel first sum) := by
  induction fuel generalizing first sum with
  | zero => exact .pure _
  | succ fuel ih =>
    unfold copySection.relocate
    split_ifs with hfirst
    · exact .pure _
    refine (Preserves.zoom fun w hw => Desk.readBatch_browses ht (by omega) w.1 hw).bind fun batch =>
      Preserves.bind (.zoom fun w hw => ?_) fun _ => ih _ _
    exact (Relocation.applyChunk_preserves (Scope.resolve_browses hc) 0 base strict batch _ hw.1).mono
      (fun _ _ h => ⟨h, hw.2⟩) fun _ _ h => ⟨h, hw.2⟩

end Batches

/-! ### Inspecting -/

namespace Job

variable {config : LoaderConfig} {s : Source}

/-- The desk of the job has browsed. -/
def Browses (config : LoaderConfig) (s : Source) (j : Job) : Prop := j.desk.Browses config s

lemma checkTables_browses {sections : List SectionInfo}
    (h : ∀ q ∈ sections, ∀ t ∈ q.relocations, Object.HasTable s.data t) :
    Preserves (Browses config s) (checkTables sections) := by
  induction sections with
  | nil => exact .pure _
  | cons q rest ih =>
    obtain ⟨hq, hrest⟩ := List.forall_mem_cons.1 h
    unfold checkTables
    rcases hr : q.relocations with _ | t <;> dsimp only
    · exact ih hrest
    · exact (Preserves.zoom fun j hj => Desk.checkFields_browses (hq t hr) q.size j.desk hj).bind
        fun _ => ih hrest

/-- Reading as a part of the job. -/
lemma browses_source {α : Type} {x : Act Source α} (h : Preserves (Browsed config s) x) :
    Preserves (Browses config s) (zoom sourcePart x) := fun j hj =>
  sat_zoom.2 ((h j.desk.linker.source hj.1).mono (fun _ _ h => ⟨h, hj.2⟩) fun _ _ h => ⟨h, hj.2⟩)

lemma inspect_browses (config : LoaderConfig) (s : Source) (name : String) :
    Preserves (Browses config s) (inspect config name) := by
  intro j hj
  have hsame := hj.1.same
  unfold inspect
  have hparsed : Sat (zoom sourcePart (Object.parse config)) j
      (fun o _ => Object.Describes config s.data o ∧
        ∀ q ∈ o.sections.toList, ∀ t ∈ q.relocations, Object.HasTable s.data t)
      (fun _ _ => True) := by
    rw [sat_zoom]
    exact ((Object.parse_sat hsame config).and (Object.parse_tables hsame config)).mono
      (fun _ _ h => ⟨h.1.2, h.2⟩) fun _ _ _ => trivial
  refine Sat.bind ((browses_source (Object.parse_browses config) j hj).and hparsed) ?_ fun _ _ h => h.1
  rintro o j1 ⟨hj1, hd, htables⟩
  refine Sat.bind (P := fun _ j' => Browses config s j') (G := fun _ j' => Browses config s j')
    (notes_sat _ _ hj1) (fun _ j2 hj2 => ?_) fun _ _ h => h
  exact ((browses_source (Object.symbolTable_browses hd)).bind fun _ =>
    (checkTables_browses htables).bind fun _ => .pure _) j2 hj2

end Job

end FlashLink
