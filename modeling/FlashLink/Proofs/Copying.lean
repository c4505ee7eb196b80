import FlashLink.Proofs.Addresses
import FlashLink.Proofs.Histories

/-!
What copies and trampolines hold. A copy has the bytes of its section, and a record those of its
trampoline. Both are in internal flash that is free no more, so later work in free space leaves them as
they are.
-/

namespace FlashLink

open Act

/-- Work on a context that leaves execute-in-place flash alone. -/
structure Context.Extended (K : Nat → Prop) (c c' : Context) : Prop extends Context.Advanced K c c' where
  untouched : Region.Written (fun _ => False) c.xip c'.xip

namespace Context.Extended

variable {K L : Nat → Prop} {c c' c'' : Context}

lemma refl (K : Nat → Prop) (c : Context) : Extended K c c := ⟨.refl _ _, .refl _ _⟩

lemma trans (h : Extended K c c') (h' : Extended K c' c'') : Extended K c c'' :=
  ⟨h.1.trans h'.1, h.2.trans h'.2⟩

lemma mono (h : Extended K c c') (hK : ∀ i, K i → L i) : Extended L c c' := ⟨h.1.mono hK, h.2⟩

/-- Every byte of execute-in-place flash is as it was. -/
lemma xip_bytes (h : Extended K c c') (offset len : Nat) :
    c'.xip.bytes offset len = c.xip.bytes offset len :=
  h.untouched.bytes_eq fun _ _ _ hk => hk

lemma xip_offsetOf? (h : Extended K c c') (a : Addr) : c'.xip.offsetOf? a = c.xip.offsetOf? a := by
  rw [Region.offsetOf?, Region.offsetOf?, h.untouched.partition_eq]

end Context.Extended

namespace Context

/-- The bytes of internal flash are taken. -/
def Taken (c : Context) (offset size : Nat) : Prop :=
  ∀ i, offset ≤ i → i < offset + size → ¬ c.trampolines.Free c.iflash.nextFree i

variable {K : Nat → Prop} {c c' : Context} {offset size : Nat}

lemma Taken.advanced (h : c.Taken offset size) (ha : Advanced K c c') : c'.Taken offset size :=
  fun i h1 h2 hi => h i h1 h2 (ha.resident.free i hi)

lemma Taken.bytes_eq (h : c.Taken offset size) (ha : Advanced K c c') :
    c'.iflash.bytes offset size = c.iflash.bytes offset size :=
  ha.resident.edited.bytes_eq h

lemma Taken.le (h : c.Taken offset size) (hpos : 0 < size) : offset + size ≤ c.iflash.nextFree := by
  by_contra hlt
  exact h (offset + size - 1) (by omega) (by omega) (.inl (by omega))

end Context

namespace Patcher

variable {K : Nat → Prop} {c c' : Context}

/-! ### Copies -/

/-- The section has been copied, byte for byte, to this offset of internal flash. -/
structure CopyOf (c : Context) (q : PlacedSection) (copy : ResidentCopy) (offset : Nat) : Prop where
  copy_eq : copy = ⟨q.name, q.addr, c.iflash.address offset, q.size⟩
  bytes_eq : ∃ src, c.xip.offsetOf? q.addr = some src ∧
    c.iflash.bytes offset q.size = c.xip.bytes src q.size
  aligned : offset % wordSize = 0
  taken : c.Taken offset q.size

lemma CopyOf.extended {q : PlacedSection} {copy : ResidentCopy} {offset : Nat}
    (h : CopyOf c q copy offset) (hc : Context.Extended K c c') : CopyOf c' q copy offset := by
  obtain ⟨hcopy, ⟨src, hsrc, hbytes⟩, haligned, htaken⟩ := h
  refine ⟨?_, ⟨src, by rw [hc.xip_offsetOf?, hsrc], ?_⟩, haligned, htaken.advanced hc.1⟩
  · rw [hc.sameBoard.iflash_address, hcopy]
  · rw [htaken.bytes_eq hc.1, hbytes, hc.xip_bytes]

/-- The copies are those of the sections, in order, in spans one above the other between the offsets
`k` and `k'` of internal flash. -/
def Copies (c : Context) : Nat → Nat → List PlacedSection → List ResidentCopy → Prop
  | k, k', [], [] => k ≤ k'
  | k, k', q :: sections, copy :: copies => ∃ offset, k ≤ offset ∧ CopyOf c q copy offset ∧
    Copies c (offset + q.size) k' sections copies
  | _, _, _, _ => False

namespace Copies

variable {k k' k'' offset : Nat} {sections : List PlacedSection} {copies : List ResidentCopy}
  {q : PlacedSection} {copy : ResidentCopy}

/-- **Induction** along the sections, with a copy for each. -/
@[elab_as_elim]
lemma induction_on {motive : ∀ k sections copies, Copies c k k' sections copies → Prop}
    (nil : ∀ {k} (hle : k ≤ k'), motive k [] [] hle)
    (cons : ∀ {k offset q copy sections copies} (hle : k ≤ offset) (hcopy : CopyOf c q copy offset)
      (hrest : Copies c (offset + q.size) k' sections copies),
      motive (offset + q.size) sections copies hrest →
        motive k (q :: sections) (copy :: copies) ⟨offset, hle, hcopy, hrest⟩)
    {k : Nat} {sections : List PlacedSection} {copies : List ResidentCopy}
    (h : Copies c k k' sections copies) : motive k sections copies h := by
  induction sections generalizing k copies with
  | nil =>
    cases copies with
    | nil => exact nil h
    | cons copy copies => exact h.elim
  | cons q sections ih =>
    cases copies with
    | nil => exact h.elim
    | cons copy copies =>
      obtain ⟨offset, hle, hcopy, hrest⟩ := h
      exact cons hle hcopy hrest (ih hrest)

/-- Each copy is one in another context. -/
lemma imp (h : Copies c k k' sections copies)
    (hof : ∀ {q copy offset}, CopyOf c q copy offset → CopyOf c' q copy offset) :
    Copies c' k k' sections copies := by
  induction h using induction_on with
  | nil hle => exact hle
  | cons hle hcopy _ ih => exact ⟨_, hle, hof hcopy, ih⟩

lemma extended (h : Copies c k k' sections copies) (hc : Context.Extended K c c') :
    Copies c' k k' sections copies := h.imp (·.extended hc)

lemma mono (h : Copies c k k' sections copies) (hle : k' ≤ k'') : Copies c k k'' sections copies := by
  induction h using induction_on with
  | nil hle' => exact Nat.le_trans hle' hle
  | cons hle' hcopy _ ih => exact ⟨_, hle', hcopy, ih⟩

/-- One more copy, above all others. -/
lemma snoc (h : Copies c k k' sections copies) (hoffset : k' ≤ offset) (hcopy : CopyOf c q copy offset)
    (hend : offset + q.size ≤ k'') : Copies c k k'' (sections ++ [q]) (copies ++ [copy]) := by
  induction h using induction_on with
  | nil hle => exact ⟨offset, Nat.le_trans hle hoffset, hcopy, hend⟩
  | cons hle hcopy' _ ih => exact ⟨_, hle, hcopy', ih⟩

lemma le (h : Copies c k k' sections copies) : k ≤ k' := by
  induction h using induction_on with
  | nil hle => exact hle
  | cons hle _ _ ih => omega

lemma of_mem (h : Copies c k k' sections copies) (hcopy : copy ∈ copies) :
    ∃ q ∈ sections, ∃ offset, k ≤ offset ∧ offset + q.size ≤ k' ∧ CopyOf c q copy offset := by
  induction h using induction_on with
  | nil => cases hcopy
  | @cons k offset q _ _ _ hle hfirst hrest ih =>
    rcases List.mem_cons.1 hcopy with rfl | hcopy
    · exact ⟨q, .head _, offset, hle, hrest.le, hfirst⟩
    · obtain ⟨q', hq', offset', hle', hend, hcopy'⟩ := ih hcopy
      exact ⟨q', .tail _ hq', offset', by omega, hend, hcopy'⟩

lemma of_section (h : Copies c k k' sections copies) (hq : q ∈ sections) :
    ∃ copy ∈ copies, ∃ offset, CopyOf c q copy offset := by
  induction h using induction_on with
  | nil => cases hq
  | @cons _ offset _ copy _ _ _ hfirst _ ih =>
    rcases List.mem_cons.1 hq with rfl | hq
    · exact ⟨copy, .head _, offset, hfirst⟩
    · obtain ⟨copy', hcopy', hof⟩ := ih hq
      exact ⟨copy', .tail _ hcopy', hof⟩

/-- No address is in two of the copies. -/
lemma unique (h : Copies c k k' sections copies) (hc : c.iflash.partition.Regular)
    (hk : k' ≤ c.iflash.partition.size) {a b : ResidentCopy} (ha : a ∈ copies) (hb : b ∈ copies)
    {x : Addr} (hax : covers a.iflash a.size x) (hbx : covers b.iflash b.size x) : a = b := by
  have hrange : ∀ {q copy offset}, CopyOf c q copy offset → offset + q.size ≤ k' →
      covers copy.iflash copy.size x → c.iflash.partition.base.toNat + offset ≤ x.toNat ∧
        x.toNat < c.iflash.partition.base.toNat + offset + q.size := by
    intro q copy offset hcopy hle hx
    rw [hcopy.copy_eq] at hx
    exact (Region.covers_address_iff hc (by omega)).1 hx
  induction h using induction_on with
  | nil => cases ha
  | @cons _ offset q copy _ copies hle hfirst hrest ih =>
    -- all others are above the first
    have habove : ∀ d ∈ copies, covers copy.iflash copy.size x → ¬ covers d.iflash d.size x := by
      intro d hd hx hdx
      obtain ⟨q', -, offset', hle', hend, hd'⟩ := hrest.of_mem hd
      have h1 := hrange hfirst hrest.le hx
      have h2 := hrange hd' hend hdx
      omega
    rcases List.mem_cons.1 ha with rfl | ha' <;> rcases List.mem_cons.1 hb with rfl | hb'
    · rfl
    · exact (habove b hb' hax hbx).elim
    · exact (habove a ha' hbx hax).elim
    · exact ih ha' hb'

end Copies

/-- A block that is read. -/
lemma readBlock_sat {r : Region} (hr : r.Sound) (offset n : Nat) :
    Op.Sat (Region.read offset n) r
      (fun data r' => data = r.bytes offset n ∧ data.size = n ∧ Region.Written (fun _ => False) r r')
      fun _ _ => True := by
  refine ((Region.read_sat _ _ r).and (Region.read_written (F := fun _ => False) _ _ r)).mono ?_
    fun _ _ _ => trivial
  rintro data r' ⟨⟨hdata, hread, -⟩, hwritten⟩
  have hfits := hr.fits
  rw [Nor.size] at hfits
  refine ⟨hdata, ?_, hwritten⟩
  rw [hdata]
  exact Bytes.size_slice_of_le (by omega)

/-- A block that is written, with whatever fills it up. -/
lemma writeBlock_sat (k : Nat) (data padding : Bytes) (r : Region) :
    Op.Sat (Region.write k (data ++ padding)) r
      (fun _ r' => Region.Touched k r r' ∧ r'.bytes k data.size = data) fun _ _ => True := by
  refine ((Region.write_written (F := (k ≤ ·)) (data ++ padding) (fun _ h _ => h) r).and
    (Region.write_stores _ _ r)).mono ?_ fun _ _ _ => trivial
  rintro _ r' ⟨htouched, -, hstored⟩
  refine ⟨htouched, ?_⟩
  have hslice := congrArg (Bytes.slice · 0 data.size) hstored
  rw [Region.bytes, Bytes.slice_slice _ (by rw [Array.size_append]; omega), Nat.add_zero,
    Bytes.slice_append_left (by omega), Bytes.slice_whole] at hslice
  exact hslice

/-- Copying block by block copies everything. -/
lemma copyFrom_copies {src dest len fuel done : Nat} (hfuel : len ≤ done + fuel) (hc : c.xip.Sound) :
    Op.Sat (copyFrom src dest len fuel done) c
      (fun _ c' => Copied (dest + done) c c' ∧
        c'.iflash.bytes (dest + done) (len - done) = c.xip.bytes (src + done) (len - done))
      fun _ _ => True := by
  have hnone : ∀ (done : Nat) (c : Context), len ≤ done → Copied (dest + done) c c ∧
      c.iflash.bytes (dest + done) (len - done) = c.xip.bytes (src + done) (len - done) := by
    intro done c hle
    rw [Nat.sub_eq_zero_of_le hle]
    exact ⟨⟨.refl _ _, .refl _ _, rfl⟩, by simp [Region.bytes]⟩
  induction fuel generalizing done c with
  | zero => exact hnone done c (by omega)
  | succ fuel ih =>
    refine copyFrom_rule (hnone done c) fun hle => ?_
    generalize hn : min (len - done) copyBlock = n
    have hpos : 0 < n := by rw [← hn, copyBlock]; omega
    refine (readBlock_sat hc _ _).mono ?_ fun _ _ h => h
    rintro data r ⟨hdata, hsize, hread⟩
    refine (writeBlock_sat _ _ _ c.iflash).mono ?_ fun _ _ h => h
    rintro _ r' ⟨hwritten, hblock⟩
    rw [hsize] at hblock
    have hcopied : Copied (dest + done) c { c with xip := r, iflash := r' } := ⟨hread, hwritten, rfl⟩
    -- the rest goes above
    have hnext : Op.Sat (copyFrom src dest len fuel (done + n)) { c with xip := r, iflash := r' } _ _ :=
      ih (by omega) (hread.sound hc)
    refine hnext.mono ?_ fun _ _ h => h
    rintro _ c3 ⟨hcopied3, hrest⟩
    refine ⟨hcopied.trans ⟨hcopied3.xip, ⟨hcopied3.iflash.1.mono fun _ h => by omega,
      hcopied3.iflash.2⟩, hcopied3.others⟩, ?_⟩
    have hkept : c3.iflash.bytes (dest + done) n = data := by
      rw [hcopied3.iflash.bytes_eq fun k _ h2 h3 => by omega, hblock]
    have hroom : c3.iflash.partition.offset + (dest + done) + n ≤ c3.iflash.device.size := by
      have := congrArg Array.size hkept
      rw [Region.bytes, Bytes.size_slice, hsize, ← Nor.size] at this
      omega
    have hroom' : c.xip.partition.offset + (src + done) + n ≤ c.xip.device.size := by
      have := congrArg Array.size hdata
      rw [hsize, Region.bytes, Bytes.size_slice, ← Nor.size] at this
      omega
    have hall : n + (len - (done + n)) = len - done := by omega
    rw [← hall, ← Region.bytes_append hroom, ← Region.bytes_append hroom', hkept, hdata,
      Nat.add_assoc dest, hrest, Nat.add_assoc src, hcopied.xip.bytes_eq fun _ _ _ h => h]

lemma Resided.extended (h : Resided c c') : Context.Extended (fun _ => False) c c' := ⟨h.advanced, h.xip⟩

/-- A section that is copied is copied byte for byte, to flash that was free. -/
lemma copySection_copies (hc : c.Ready) (s : PlacedSection) :
    Sat (copySection s) c
      (fun dest c' => Context.Extended (fun _ => False) c c' ∧ c'.pool = c.pool ∧
        CopyAt c c' dest.addr s.size dest.offset ∧
        CopyOf c' s ⟨s.name, s.addr, dest.addr, s.size⟩ dest.offset)
      fun _ _ => True := by
  have hsector : 0 < c.iflash.sector := hc.iflash_sound.sector_pos
  have hstored : Sat (copySection s) c
      (fun dest c' => dest.offset % wordSize = 0 ∧ ∃ src, c.xip.offsetOf? s.addr = some src ∧
        c'.iflash.bytes dest.offset s.size = c.xip.bytes src s.size) fun _ _ => True := by
    refine copySection_rule (fun _ => trivial) fun src hsrc => ?_
    refine (Region.reserveErased_grown s.size c.iflash).mono ?_ fun _ _ _ => trivial
    rintro dest r ⟨-, rfl, -⟩
    have hword : c.iflash.nextFree % wordSize = 0 :=
      Nat.mod_eq_zero_of_dvd (Nat.dvd_trans hc.iflash_sound.word_dvd_sector
        (Nat.dvd_of_mod_eq_zero hc.iflash_sound.free_aligned))
    have hcopy : Op.Sat (copyFrom src c.iflash.nextFree s.size s.size 0) { c with iflash := r } _ _ :=
      copyFrom_copies (by omega) hc.xip_sound
    exact hcopy.mono (fun _ _ h => ⟨hword, src, hsrc, h.2⟩) fun _ _ _ => trivial
  refine ((copySection_sat hsector s).and hstored).mono ?_ fun _ _ _ => trivial
  rintro dest c' ⟨⟨hresided, hat⟩, hword, src, hsrc, hbytes⟩
  have hextended := hresided.extended
  have hpool : c'.pool = c.pool := by rw [hresided.others]
  refine ⟨hextended, hpool, hat, by rw [hat.2.2.1], ⟨src, ?_, ?_⟩, hword, ?_⟩
  · rw [hextended.xip_offsetOf?, hsrc]
  · rw [hbytes, hextended.xip_bytes]
  · exact fun i h1 h2 => hat.taken hc.packed h1 h2

/-! ### Trampolines -/

/-- A trampoline to `target` that loads `base` is at this offset of internal flash, and `addr` is
where to call it. -/
structure RecordOf (c : Context) (target base addr : Addr) (offset : Nat) : Prop where
  addr_eq : addr = c.iflash.address offset ||| 1
  bytes_eq : c.iflash.bytes offset Record.width = Record.bytes target base
  aligned : offset % wordSize = 0
  taken : c.Taken offset Record.width

variable {target base addr : Addr} {offset : Nat}

lemma RecordOf.extended (h : RecordOf c target base addr offset) (hc : Context.Extended K c c') :
    RecordOf c' target base addr offset := by
  refine ⟨?_, ?_, h.aligned, h.taken.advanced hc.1⟩
  · rw [hc.sameBoard.iflash_address, h.addr_eq]
  · rw [h.taken.bytes_eq hc.1, h.bytes_eq]

/-- A record is in the partition. -/
lemma RecordOf.le (h : RecordOf c target base addr offset) :
    offset + Record.width ≤ c.iflash.nextFree :=
  h.taken.le (by decide)

/-- One record leads to one place. -/
lemma RecordOf.target_eq {target' base' : Addr} (h : RecordOf c target base addr offset)
    (h' : RecordOf c target' base' addr offset) : target = target' := by
  have hword : ∀ t b : Addr, (Record.bytes t b).slice 12 4 = Bytes.ofU32 t := fun _ _ => rfl
  have heq := congrArg (fun b => (b.slice 12 4).u32 0) (h.bytes_eq.symm.trans h'.bytes_eq)
  simpa only [hword, Bytes.u32_ofU32] using heq

/-- An address is that of one record only. -/
lemma RecordOf.offset_eq {target' base' : Addr} {offset' : Nat} (hc : c.Ready)
    (hregular : c.iflash.partition.Regular) (h : RecordOf c target base addr offset)
    (h' : RecordOf c target' base' addr offset') : offset = offset' := by
  have hfree := hc.iflash_sound.free_le
  have hwidth : 0 < Record.width := by decide
  have hplace : ∀ {t b o}, RecordOf c t b addr o →
      (addr &&& ~~~1).toNat = c.iflash.partition.base.toNat + o := by
    intro t b o ho
    have hle := ho.le
    have haligned := Region.address_aligned hregular ho.aligned
    rw [wordSize] at haligned
    have hbare : addr &&& ~~~1 = c.iflash.address o := by
      rw [ho.addr_eq]
      exact bare_or (by omega) 1
    rw [hbare, Region.toNat_address hregular.fits (by omega)]
  have h1 := hplace h
  have h2 := hplace h'
  omega

/-- A trampoline that is made is in flash. -/
lemma emit_records (hc : c.Ready) (target base : Addr) :
    Sat (zoom Context.trampolinePart (Trampolines.emit target base)) c
      (fun addr c' => Context.Extended (fun _ => False) c c' ∧
        c' = { c with trampolines := c'.trampolines, iflash := c'.iflash } ∧
        ∃ offset, RecordOf c' target base addr offset)
      fun _ _ => True := by
  rw [sat_zoom]
  refine (Trampolines.emit_sat hc.packed hc.room target base).mono ?_ fun _ _ _ => trivial
  rintro addr ⟨t, r⟩ ⟨hadvanced, offset, hrecord, hword, hbytes⟩
  refine ⟨⟨⟨.refl _ _, hadvanced, .refl _ _⟩, .refl _ _⟩, rfl, offset, ?_, hbytes, hword, ?_⟩
  · obtain ⟨-, -, -, -, haddr⟩ := hrecord
    exact haddr
  · exact fun i _ h2 => hrecord.taken (hadvanced.packed hc.packed) h2

end Patcher

end FlashLink
