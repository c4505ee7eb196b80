import FlashLink.Build.ObjectBuilder
import FlashLink.Proofs.LinkedCalls
import FlashLink.Proofs.NameTables
import FlashLink.Proofs.Parsing
import Mathlib.Data.List.Forall2

/-!
What has been written of an object is read back: the file has each part where its headers say.

The file grows at its end only, so a part stays where it was written. The file header is written last,
over the zeros that the file began with.
-/

namespace FlashLink

namespace Bytes

/-! ### Parts of one size -/

variable {b p : Bytes} {offset w i : Nat} {ps : List Bytes}

/-- Parts of one size are at multiples of it. -/
lemma HasAt.nth (h : b.HasAt offset (joined ps)) (hw : ∀ p ∈ ps, p.size = w) (hp : ps[i]? = some p) :
    b.HasAt (offset + i * w) p := by
  induction ps generalizing offset i with
  | nil => cases hp
  | cons q ps ih =>
    obtain ⟨hfirst, hrest⟩ := h.parts
    rw [hw q (.head _)] at hrest
    cases i with
    | zero =>
      cases hp
      rwa [Nat.zero_mul, Nat.add_zero]
    | succ i =>
      have hstep : offset + w + i * w = offset + (i + 1) * w := by rw [Nat.add_one_mul]; omega
      exact hstep ▸ ih hrest (fun p hp => hw p (.tail _ hp)) hp

/-! ### Growing at the end -/

/-- The second buffer goes on where the first one ends. -/
def Begins (b b' : Bytes) : Prop := ∃ r, b' = b ++ r

variable {b' b'' : Bytes}

lemma Begins.refl (b : Bytes) : Begins b b := ⟨#[], (Array.append_empty ..).symm⟩

lemma Begins.trans (h : Begins b b') (h' : Begins b' b'') : Begins b b'' := by
  obtain ⟨r, rfl⟩ := h
  obtain ⟨r', rfl⟩ := h'
  exact ⟨r ++ r', Array.append_assoc⟩

lemma begins_append (b r : Bytes) : Begins b (b ++ r) := ⟨r, rfl⟩

lemma Begins.size_le (h : Begins b b') : b.size ≤ b'.size := by
  obtain ⟨r, rfl⟩ := h
  rw [Array.size_append]
  omega

lemma Begins.hasAt (h : Begins b b') (hp : b.HasAt offset p) : b'.HasAt offset p := by
  obtain ⟨r, rfl⟩ := h
  exact hp.append r

/-- Writing over the beginning leaves what comes after it. -/
lemma HasAt.overwrite (h : b.HasAt offset p) {d : Bytes} (hd : d.size ≤ offset) :
    (b.overwrite 0 d).HasAt offset p := by
  rw [HasAt, (sameOn_overwrite (I := (d.size ≤ ·)) b fun i hi => by omega).slice_eq ?_ |>.symm]
  · exact h
  · intro i hi _
    omega

/-! ### Words -/

lemma HasAt.u16_eq {v : UInt16} (h : b.HasAt offset (ofU16 v)) : b.u16 offset = v := by
  have hslice : b.slice offset 2 = ofU16 v := h
  have hbyte : ∀ i < 2, (ofU16 v).byte i = b.byte (offset + i) := fun i hi => by
    rw [← hslice, byte_slice hi]
  rw [← u16_ofU16 v, u16, u16, hbyte 0 (by omega), hbyte 1 (by omega)]
  rfl

@[simp] lemma size_ofU16 (v : UInt16) : (ofU16 v).size = 2 := rfl

@[simp] lemma size_zeros (n : Nat) : (zeros n).size = n := Array.size_replicate

end Bytes

namespace ObjectBuilder

open Bytes

/-! ### Parts of a file -/

/-- Where the parts of a file are. -/
structure Layout where
  data : List Nat
  relocations : List Nat
  symbols : Nat
  names : Nat
  headerNames : Nat
  headers : Nat

variable (o : ObjectBuilder)

def nameTable : NameTable :=
  .ofNames ((o.symbols.toList.filter (·.name ≠ "")).map fun s => Bytes.ofText s.name)

def headerNameTable : NameTable := .ofNames (o.headerNames.map Bytes.ofText)

/-- The entries of the symbol table, the first of which is no symbol. -/
def symbolEntries : List Bytes :=
  Bytes.zeros 16 :: o.symbolOrder.filterMap fun i => o.symbols[i]?.map (o.symbolEntry o.nameTable)

/-- Number of the header of the symbol table. Two more headers follow. -/
def symtabIndex : Nat := o.headerIndex o.sections.toList.length

/-- The headers of section `i` and of its relocations, if it has any. -/
def headersOf (i : Nat) (s : DraftSection) (data rels : Nat) : List Bytes :=
  header o.headerNameTable s.name s.kind.header.1 s.kind.header.2 data s.size 0 0 s.align 0 ::
    if s.relocations.isEmpty then []
    else [header o.headerNameTable (".rel" ++ s.name) 9 0x40 rels (8 * s.relocations.length) o.symtabIndex
      (o.headerIndex i) 4 8]

/-- The headers of the symbols, their names, and the section names. -/
def lastHeaders (l : Layout) : List Bytes :=
  [header o.headerNameTable ".symtab" 2 0 l.symbols (joined o.symbolEntries).size (o.symtabIndex + 1)
      ((o.symbols.toList.filter (·.isLocal)).length + 1) 4 16,
    header o.headerNameTable ".strtab" 3 0 l.names o.nameTable.bytes.size 0 0 1 0,
    header o.headerNameTable ".shstrtab" 3 0 l.headerNames o.headerNameTable.bytes.size 0 0 1 0]

/-- All section headers, the first of which is no section. -/
def headerEntries (l : Layout) : List Bytes :=
  Bytes.zeros 40 ::
    ((o.sections.toList.zip (l.data.zip l.relocations)).zipIdx.flatMap fun q =>
      o.headersOf q.2 q.1.1 q.1.2.1 q.1.2.2) ++
    o.lastHeaders l

/-- The file has every part at its place. -/
structure Written (l : Layout) (file : Bytes) : Prop where
  header : file.HasAt 0 (fileHeader l.headers (o.symtabIndex + 3))
  data : List.Forall₂ (fun s start => file.HasAt start s.data) o.sections.toList l.data
  relocations : List.Forall₂ (fun s start => s.relocations ≠ [] →
    file.HasAt start (relocationEntries o.symbolOrder s.relocations)) o.sections.toList l.relocations
  symbols : file.HasAt l.symbols (joined o.symbolEntries)
  names : file.HasAt l.names o.nameTable.bytes
  headerNames : file.HasAt l.headerNames o.headerNameTable.bytes
  headers : file.HasAt l.headers (joined (o.headerEntries l))

/-! ### Writing them -/

variable {o} {b : Bytes} {ss : List DraftSection}

lemma begins_pad (b : Bytes) (align : Nat) : Begins b (pad b align) := begins_append _ _

/-- A part that has been written at or after the end of a buffer. -/
def Appended (b b' part : Bytes) (start : Nat) : Prop := b.size ≤ start ∧ b'.HasAt start part

lemma Appended.mono {a b b' c part : Bytes} {start : Nat} (h : Appended b b' part start) (hb : Begins a b)
    (hb' : Begins b' c) : Appended a c part start :=
  ⟨Nat.le_trans hb.size_le h.1, hb'.hasAt h.2⟩

lemma appended_append (b part : Bytes) : Appended b (b ++ part) part b.size :=
  ⟨Nat.le_refl _, hasAt_append b part⟩

/-- A buffer and where its parts begin, with the data of one more section. -/
def withData (p : Bytes × List Nat) (s : DraftSection) : Bytes × List Nat :=
  (pad p.1 s.align ++ s.data, p.2 ++ [(pad p.1 s.align).size])

lemma writeData_eq (b : Bytes) (ss : List DraftSection) : writeData b ss = ss.foldl withData (b, []) := rfl

/-- A buffer and where its parts begin, with the relocations of one more section. -/
def withEntries (order : List Nat) (p : Bytes × List Nat) (s : DraftSection) : Bytes × List Nat :=
  if s.relocations.isEmpty then (p.1, p.2 ++ [0])
  else (pad p.1 4 ++ relocationEntries order s.relocations, p.2 ++ [(pad p.1 4).size])

lemma writeRelocations_eq (order : List Nat) (b : Bytes) (ss : List DraftSection) :
    writeRelocations order b ss = ss.foldl (withEntries order) (b, []) := rfl

/-- One part after the other: if every step appends its part and notes where it begins, all parts are there
in the end. -/
lemma foldl_has {f : Bytes × List Nat → DraftSection → Bytes × List Nat} {part : DraftSection → Bytes}
    {wanted : DraftSection → Prop}
    (hstep : ∀ b starts s, ∃ b' start, f (b, starts) s = (b', starts ++ [start]) ∧ Begins b b' ∧
      (wanted s → Appended b b' (part s) start)) (b : Bytes) (starts : List Nat) (ss : List DraftSection) :
    ∃ b' new, ss.foldl f (b, starts) = (b', starts ++ new) ∧ Begins b b' ∧
      List.Forall₂ (fun s start => wanted s → Appended b b' (part s) start) ss new := by
  induction ss generalizing b starts with
  | nil => exact ⟨b, [], by rw [List.append_nil]; rfl, .refl b, .nil⟩
  | cons s ss ih =>
    obtain ⟨b₁, start, hs, hb, hpart⟩ := hstep b starts s
    obtain ⟨b', new, heq, hbegins, hall⟩ := ih b₁ (starts ++ [start])
    refine ⟨b', start :: new, ?_, hb.trans hbegins, .cons ?_ ?_⟩
    · rw [List.foldl_cons, hs, heq, List.append_assoc, List.singleton_append]
    · exact fun h => (hpart h).mono (.refl _) hbegins
    · exact hall.imp fun _ _ h hs => (h hs).mono hb (.refl _)

/-- A part that is appended after a pad. -/
lemma appended_pad (b part : Bytes) (align : Nat) :
    Begins b (pad b align ++ part) ∧ Appended b (pad b align ++ part) part (pad b align).size :=
  ⟨(begins_pad b align).trans (begins_append _ part),
    (appended_append _ _).mono (begins_pad b align) (.refl _)⟩

/-- The data of every section is written. -/
lemma writeData_has (b : Bytes) (ss : List DraftSection) :
    Begins b (writeData b ss).1 ∧
      List.Forall₂ (fun s => Appended b (writeData b ss).1 s.data) ss (writeData b ss).2 := by
  have hstep : ∀ b starts s, ∃ b' start, withData (b, starts) s = (b', starts ++ [start]) ∧ Begins b b' ∧
      (True → Appended b b' s.data start) := fun b starts s =>
    ⟨_, _, rfl, (appended_pad b s.data s.align).1, fun _ => (appended_pad b s.data s.align).2⟩
  obtain ⟨b', new, heq, hbegins, hall⟩ := foldl_has hstep b [] ss
  rw [writeData_eq, heq]
  exact ⟨hbegins, hall.imp fun _ _ h => h trivial⟩

/-- The relocations of every section that has any are written. -/
lemma writeRelocations_has (order : List Nat) (b : Bytes) (ss : List DraftSection) :
    Begins b (writeRelocations order b ss).1 ∧
      List.Forall₂ (fun s start => s.relocations ≠ [] →
          Appended b (writeRelocations order b ss).1 (relocationEntries order s.relocations) start)
        ss (writeRelocations order b ss).2 := by
  have hstep : ∀ b starts s, ∃ b' start, withEntries order (b, starts) s = (b', starts ++ [start]) ∧
      Begins b b' ∧ (s.relocations ≠ [] → Appended b b' (relocationEntries order s.relocations) start) := by
    intro b starts s
    rw [withEntries]
    split_ifs with hnone
    · exact ⟨_, _, rfl, .refl b, fun h => (h (List.isEmpty_iff.1 hnone)).elim⟩
    · exact ⟨_, _, rfl, (appended_pad b _ 4).1, fun _ => (appended_pad b _ 4).2⟩
  obtain ⟨b', new, heq, hbegins, hall⟩ := foldl_has hstep b [] ss
  rw [writeRelocations_eq, heq]
  exact ⟨hbegins, hall⟩

variable (o)

/-- The bytes of the symbol table, as they are written. -/
def symbolBytes : Bytes :=
  o.symbolOrder.foldl (fun b i => match o.symbols[i]? with
    | some s => b ++ o.symbolEntry o.nameTable s
    | none => b) (Bytes.zeros 16)

lemma symbolBytes_eq : o.symbolBytes = joined o.symbolEntries := by
  rw [symbolBytes, symbolEntries, joined]
  generalize Bytes.zeros 16 = b
  induction o.symbolOrder generalizing b with
  | nil => exact (Array.append_empty ..).symm
  | cons i l ih =>
    rw [List.foldl_cons, ih, List.filterMap_cons]
    rcases o.symbols[i]? with _ | s
    · rfl
    · rw [Option.map_some, joined, Array.append_assoc]

/-- The file up to the symbols, up to their names, up to the section names, and up to the headers. -/
def upToSymbols : Bytes := pad (writeData (Bytes.zeros 52) o.sections.toList).1 4

def upToNames : Bytes := o.upToSymbols ++ o.symbolBytes

def withRelocations : Bytes × List Nat :=
  writeRelocations o.symbolOrder (o.upToNames ++ o.nameTable.bytes) o.sections.toList

def upToHeaders : Bytes := pad (o.withRelocations.1 ++ o.headerNameTable.bytes) 4

def layout : Layout where
  data := (writeData (Bytes.zeros 52) o.sections.toList).2
  relocations := o.withRelocations.2
  symbols := o.upToSymbols.size
  names := o.upToNames.size
  headerNames := o.withRelocations.1.size
  headers := o.upToHeaders.size

lemma sectionHeaders_joined (i : Nat) (s : DraftSection) (data rels : Nat) :
    o.sectionHeaders o.headerNameTable o.symtabIndex i s data rels =
      joined (o.headersOf i s data rels) := by
  unfold sectionHeaders headersOf
  dsimp only
  split_ifs
  · exact (Array.append_empty ..).symm
  · rw [joined, joined, joined, Array.append_empty]

/-- The bytes of the section headers, as they are written. -/
def headerBytes (l : Layout) : Bytes :=
  (o.sections.toList.zip (l.data.zip l.relocations)).zipIdx.foldl (fun b ((s, d, r), i) =>
    b ++ o.sectionHeaders o.headerNameTable o.symtabIndex i s d r) (Bytes.zeros 40)

lemma headerBytes_eq (l : Layout) :
    o.headerBytes l ++ joined (o.lastHeaders l) = joined (o.headerEntries l) := by
  have hfun : (fun (b : Bytes) (q : (DraftSection × Nat × Nat) × Nat) => match q with
      | ((s, d, r), i) => b ++ o.sectionHeaders o.headerNameTable o.symtabIndex i s d r) =
      fun b q => b ++ joined (o.headersOf q.2 q.1.1 q.1.2.1 q.1.2.2) := by
    funext b ⟨⟨s, d, r⟩, i⟩
    exact congrArg (b ++ ·) (o.sectionHeaders_joined i s d r)
  rw [headerEntries, joined_append, joined, headerBytes, hfun, foldl_joined, joined_flatMap]

lemma write_eq : o.write =
    (o.upToHeaders ++ joined (o.headerEntries o.layout)).overwrite 0
      (fileHeader o.upToHeaders.size (o.symtabIndex + 3)) := by
  rw [← headerBytes_eq, lastHeaders, joined_three, ← symbolBytes_eq, ← Array.append_assoc]
  rfl

lemma words_eq (ws : List UInt32) : words ws = joined (ws.map ofU32) := by
  rw [words, foldl_joined, Array.empty_append]

lemma size_words (ws : List UInt32) : (words ws).size = ws.length * 4 := by
  rw [words_eq, size_joined (w := 4), List.length_map]
  intro p hp
  obtain ⟨v, -, rfl⟩ := List.mem_map.1 hp
  exact size_ofU32 v

lemma size_fileHeader (shoff shnum : Nat) : (fileHeader shoff shnum).size = 52 := by
  simp only [fileHeader, Array.size_append, size_words, size_ofU16, size_zeros, List.length_cons,
    List.length_nil, List.size_toArray]

/-- **Writing** puts every part into the file, where the headers say. -/
lemma write_written : o.Written o.layout o.write := by
  obtain ⟨hdata, hdataAt⟩ := writeData_has (Bytes.zeros 52) o.sections.toList
  obtain ⟨hrels, hrelsAt⟩ := writeRelocations_has o.symbolOrder (o.upToNames ++ o.nameTable.bytes)
    o.sections.toList
  have hsymbols := appended_append o.upToSymbols o.symbolBytes
  have hnames := appended_append o.upToNames o.nameTable.bytes
  have hheaderNames := appended_append o.withRelocations.1 o.headerNameTable.bytes
  have hheaders := appended_append o.upToHeaders (joined (o.headerEntries o.layout))
  -- each stage goes on where the one before it ends
  have h₁ : Begins (Bytes.zeros 52) o.upToSymbols := hdata.trans (begins_pad _ _)
  have h₂ : Begins o.upToSymbols o.upToNames := begins_append _ _
  have h₃ : Begins o.upToNames o.withRelocations.1 := (begins_append _ _).trans hrels
  have h₄ : Begins o.withRelocations.1 o.upToHeaders := (begins_append _ _).trans (begins_pad _ _)
  have h₅ := begins_append o.upToHeaders (joined (o.headerEntries o.layout))
  have hkept : ∀ {part start}, Appended (Bytes.zeros 52)
      (o.upToHeaders ++ joined (o.headerEntries o.layout)) part start → o.write.HasAt start part := by
    intro part start h
    rw [write_eq]
    refine h.2.overwrite ?_
    rw [size_fileHeader]
    exact h.1
  have hall := h₁.trans (h₂.trans (h₃.trans h₄))
  refine ⟨?_, hdataAt.imp fun _ _ h => hkept (h.mono (.refl _) ?_),
    hrelsAt.imp fun _ _ h hs => hkept ((h hs).mono ?_ (h₄.trans h₅)),
    o.symbolBytes_eq ▸ hkept (hsymbols.mono h₁ ?_),
    hkept (hnames.mono (h₁.trans h₂) ?_), hkept (hheaderNames.mono (h₁.trans (h₂.trans h₃)) ?_),
    hkept (hheaders.mono hall (.refl _))⟩
  · have hsize := hall.size_le
    rw [size_zeros] at hsize
    rw [HasAt, write_eq]
    refine slice_overwrite rfl ?_
    rw [size_fileHeader, Array.size_append]
    omega
  · exact (begins_pad _ _).trans (h₂.trans (h₃.trans (h₄.trans h₅)))
  · exact h₁.trans (h₂.trans (begins_append _ _))
  · exact h₃.trans (h₄.trans h₅)
  · exact hrels.trans (h₄.trans h₅)
  · exact (begins_pad _ _).trans h₅

/-! ### Reading it back -/

lemma hasAt_words {b : Bytes} {offset i : Nat} {v : UInt32} {ws : List UInt32}
    (h : b.HasAt offset (words ws)) (hi : ws[i]? = some v) : b.u32 (offset + i * 4) = v := by
  rw [words_eq] at h
  refine HasAt.u32_eq (h.nth (fun p hp => ?_) (List.getElem?_map ▸ congrArg (Option.map ofU32) hi))
  obtain ⟨v, -, rfl⟩ := List.mem_map.1 hp
  exact size_ofU32 v

/-- The file header is accepted, and leads to the section headers and their names. -/
lemma parse_fileHeader (shoff shnum : Nat) : ∃ h, FileHeader.parse (fileHeader shoff shnum) = .ok h ∧
    h.shoff = UInt32.ofNat shoff ∧ h.shnum = UInt16.ofNat shnum ∧
    h.shstrndx = UInt16.ofNat (shnum - 1) := by
  generalize hb : fileHeader shoff shnum = b
  have h : b.HasAt 0 (fileHeader shoff shnum) := by
    rw [hb]
    exact hasAt_self b
  unfold fileHeader at h
  obtain ⟨h, hshstrndx⟩ := h.parts
  obtain ⟨h, hshnum⟩ := h.parts
  obtain ⟨h, hshentsize⟩ := h.parts
  obtain ⟨h, -⟩ := h.parts
  obtain ⟨h, -⟩ := h.parts
  obtain ⟨h, -⟩ := h.parts
  obtain ⟨h, hwords⟩ := h.parts
  obtain ⟨h, hmachine⟩ := h.parts
  obtain ⟨h, htype⟩ := h.parts
  obtain ⟨hident, -⟩ := h.parts
  simp only [Array.size_append, size_words, size_ofU16, size_zeros, List.length_cons, List.length_nil,
    List.size_toArray] at htype hmachine hwords hshentsize hshnum hshstrndx
  have hone : ∀ i < 7, 4 ≤ i → (b.slice 0 16).byte i = 1 := by
    intro i hi hle
    have hbytes : ∀ i < 7, 4 ≤ i → byte #[0x7f, 0x45, 0x4c, 0x46, 1, 1, 1] i = 1 := by decide
    rw [byte_slice (by omega), hident.byte_eq hi, hbytes i hi hle]
  have hmagic : (b.slice 0 16).slice 0 4 = #[0x7f, 0x45, 0x4c, 0x46] := by
    rw [slice_slice b (by omega)]
    exact hident.slice_eq (i := 0) (by decide)
  have haccepted : (FileHeader.ofBytes b).fault? = none := by
    unfold FileHeader.fault? FileHeader.ofBytes
    dsimp only
    rw [hmagic, hone 4 (by omega) (by omega), hone 5 (by omega) (by omega),
      hone 6 (by omega) (by omega), htype.u16_eq, hmachine.u16_eq, hshentsize.u16_eq]
    simp only [ne_eq, not_true_eq_false, and_false, if_false]
  refine ⟨FileHeader.ofBytes b, ?_, hasAt_words (i := 3) hwords rfl, hshnum.u16_eq, hshstrndx.u16_eq⟩
  unfold FileHeader.parse
  dsimp only
  rw [haccepted]

/-! ### A file that has been written -/

variable {o} {l : Layout} {file : Bytes}

lemma size_header (names : NameTable) (name : String) (type flags : UInt32)
    (offset size link info align entrySize : Nat) :
    (header names name type flags offset size link info align entrySize).size = 40 := by
  rw [header, size_words]
  rfl

lemma size_headerEntries (o : ObjectBuilder) (l : Layout) :
    ∀ p ∈ o.headerEntries l, p.size = SectionHeader.width := by
  intro p hp
  rw [headerEntries, List.cons_append, List.mem_cons, List.mem_append, List.mem_flatMap] at hp
  rcases hp with rfl | ⟨q, -, hp⟩ | hp
  · exact size_zeros 40
  · unfold headersOf at hp
    split_ifs at hp <;> simp only [List.mem_cons, List.not_mem_nil, or_false] at hp
    · rw [hp]
      exact size_header ..
    · rcases hp with rfl | rfl
      · exact size_header ..
      · exact size_header ..
  · simp only [lastHeaders, List.mem_cons, List.not_mem_nil, or_false] at hp
    rcases hp with rfl | rfl | rfl
    · exact size_header ..
    · exact size_header ..
    · exact size_header ..

lemma Written.header_eq (h : o.Written l file) :
    file.slice 0 FileHeader.width = fileHeader l.headers (o.symtabIndex + 3) := by
  have hheader := h.header
  rwa [HasAt, size_fileHeader] at hheader

/-- The section headers lie in the file. -/
lemma Written.headers_le (h : o.Written l file) :
    l.headers + (o.headerEntries l).length * SectionHeader.width ≤ file.size := by
  have hsize := size_joined (o.size_headerEntries l)
  have hpos : 0 < (joined (o.headerEntries l)).size := by
    rw [hsize, headerEntries, List.cons_append, List.length_cons, SectionHeader.width]
    omega
  rw [← hsize]
  exact h.headers.le hpos

/-- **The header** of the file says where the section headers are, and how many. -/
lemma Written.parsed (h : o.Written l file) (hsize : file.size < UInt32.size) :
    ∃ header, FileHeader.parse (file.slice 0 FileHeader.width) = .ok header ∧
      header.shoff.toNat = l.headers ∧ header.shnum = UInt16.ofNat (o.symtabIndex + 3) ∧
      header.shstrndx = UInt16.ofNat (o.symtabIndex + 2) := by
  obtain ⟨header, hparse, hshoff, hshnum, hshstrndx⟩ := parse_fileHeader l.headers (o.symtabIndex + 3)
  have hle := h.headers_le
  refine ⟨header, by rw [h.header_eq, hparse], ?_, hshnum, hshstrndx⟩
  rw [hshoff]
  exact UInt32.toNat_ofNat_of_lt' (by omega)

lemma size_symbolEntries (o : ObjectBuilder) : ∀ p ∈ o.symbolEntries, p.size = Symbol.width := by
  intro p hp
  rcases List.mem_cons.1 hp with rfl | hp
  · exact size_zeros 16
  · obtain ⟨i, -, hi⟩ := List.mem_filterMap.1 hp
    obtain ⟨s, -, rfl⟩ := Option.map_eq_some_iff.1 hi
    unfold symbolEntry
    simp only [Array.size_append, size_words, size_ofU16, List.length_cons, List.length_nil,
      List.size_toArray, Symbol.width]

/-- A symbol of the file is that entry of the symbol table. -/
lemma Written.symbol_eq (h : o.Written l file) {i : Nat} {p : Bytes} (hi : o.symbolEntries[i]? = some p) :
    file.slice (l.symbols + i * Symbol.width) Symbol.width = p := by
  have hp := h.symbols.nth o.size_symbolEntries hi
  rwa [HasAt, o.size_symbolEntries p (List.mem_of_getElem? hi)] at hp

/-- The entry that a relocation is written as. -/
def entryOf (order : List Nat) (r : DraftRelocation) : Relocation :=
  ⟨UInt32.ofNat r.offset,
    UInt32.ofNat ((order.findIdx? (· == r.symbol)).map (· + 1) |>.getD 0) <<< 8 ||| (r.type &&& 0xff)⟩

lemma relocationEntries_eq (order : List Nat) (rs : List DraftRelocation) :
    relocationEntries order rs =
      joined (rs.map fun r => words [(entryOf order r).offset, (entryOf order r).info]) := by
  rw [relocationEntries, foldl_joined, Array.empty_append]
  rfl

lemma size_relocationEntry {order : List Nat} {rs : List DraftRelocation} :
    ∀ p ∈ rs.map fun r => words [(entryOf order r).offset, (entryOf order r).info],
      p.size = Relocation.width := by
  intro p hp
  obtain ⟨r, -, rfl⟩ := List.mem_map.1 hp
  exact size_words _

/-- The relocations of a section are read back in their order. -/
lemma entries_eq {order : List Nat} {rs : List DraftRelocation} {start : Nat}
    (h : file.HasAt start (relocationEntries order rs)) :
    RelocationTable.entries ⟨start, rs.length⟩ file = rs.map (entryOf order) := by
  rw [relocationEntries_eq] at h
  refine List.ext_getElem? fun i => ?_
  rw [RelocationTable.entries, List.getElem?_map, List.getElem?_map]
  rcases hi : rs[i]? with _ | r
  · rw [List.getElem?_eq_none (by rw [List.length_range]; exact List.getElem?_eq_none_iff.1 hi)]
    rfl
  · have hnth : (rs.map fun r => words [(entryOf order r).offset, (entryOf order r).info])[i]? =
        some (words [(entryOf order r).offset, (entryOf order r).info]) := by
      rw [List.getElem?_map, hi, Option.map_some]
    have hp := h.nth size_relocationEntry hnth
    have hself := hasAt_self (words [(entryOf order r).offset, (entryOf order r).info])
    have hread : Relocation.ofBytes (words [(entryOf order r).offset, (entryOf order r).info]) =
        entryOf order r := by
      unfold Relocation.ofBytes
      exact congrArg₂ Relocation.mk (hasAt_words (i := 0) hself rfl) (hasAt_words (i := 1) hself rfl)
    rw [HasAt, size_relocationEntry _ (List.mem_of_getElem? hnth)] at hp
    rw [List.getElem?_range (List.getElem?_eq_some_iff.1 hi).1, Option.map_some, Option.map_some, hp, hread]

/-! ### How long a file is -/

end ObjectBuilder

end FlashLink
