import FlashLink.Flash.Nor
import FlashLink.Proofs.ByteSpans
import FlashLink.Proofs.Logic

/-!
What a flash device holds, read off the history of the requests to it. Of the writes to a byte since its
sector was last erased the latest one counts, although a write only takes bits away: a write is accepted
only where this gives just the bytes that are to be written. Which requests are accepted depends on the
history alone, but for the failure that may be armed.
-/

namespace FlashLink

/-- The failure was armed beforehand. -/
def Error.injected : Error → Bool
  | .flash (.injectedErase _) => true
  | .flash (.injectedWrite _) => true
  | _ => false

namespace Bytes

variable {b : Bytes}

lemma byte_updateSpan {i : Nat} (start n : Nat) (f : Nat → UInt8 → UInt8) (h : i < b.size) :
    (b.updateSpan start n f).byte i =
      if start ≤ i ∧ i < start + n then f (i - start) (b.byte i) else b.byte i := by
  rw [byte_eq, byte_eq, getElem?_updateSpan, Array.getElem?_eq_getElem h]
  split_ifs <;> rfl

lemma slice_eq_ofFn {offset len : Nat} (h : offset + len ≤ b.size) :
    b.slice offset len = Array.ofFn fun k : Fin len => b.byte (offset + k) := by
  ext k hk hk'
  · rw [size_slice_of_le h, Array.size_ofFn]
  · rw [Array.size_ofFn] at hk'
    rw [Array.getElem_ofFn, ← byte_slice hk', byte_eq, Array.getElem?_eq_getElem hk]
    rfl

end Bytes

namespace Nor

/-- A span of whole sectors has the bytes of these sectors. -/
lemma mem_sectors_iff {sector offset len : Nat} (hoffset : offset % sector = 0) (hlen : len % sector = 0)
    (i : Nat) :
    offset / sector ≤ i / sector ∧ i / sector < (offset + len) / sector ↔
      offset ≤ i ∧ i < offset + len := by
  rcases Nat.eq_zero_or_pos sector with rfl | hpos
  · simp at hoffset hlen ⊢
    omega
  · have hstop : sector ∣ offset + len :=
      Nat.dvd_add (Nat.dvd_of_mod_eq_zero hoffset) (Nat.dvd_of_mod_eq_zero hlen)
    rw [Nat.le_div_iff_mul_le hpos, Nat.div_lt_iff_lt_mul hpos,
      Nat.div_mul_cancel (Nat.dvd_of_mod_eq_zero hoffset), Nat.div_mul_cancel hstop]

lemma firstRise?_eq_none {contents data : Bytes} {offset : Nat} : firstRise? contents offset data = none ↔
    ∀ k < data.size, contents.byte (offset + k) &&& data.byte k = data.byte k := by
  simp [firstRise?]

/-! ### Requests -/

/-- Any offset, any length and any bytes may be asked for. -/
inductive Request where
  | erase (offset len : Nat)
  | write (offset : Nat) (data : Bytes)
  | read (offset len : Nat)
  | arm (f : ArmedFault)
deriving DecidableEq

namespace Request

def perform : Request → Op Nor Bytes
  | .erase offset len => do
    Nor.erase offset len
    return #[]
  | .write offset data => do
    Nor.write offset data
    return #[]
  | .read offset len => Nor.read offset len
  | .arm f => do
    modify (·.arm f)
    return #[]

/-- The sector that has byte `i` is one of those to be erased. -/
def erases (sector i : Nat) : Request → Bool
  | .erase offset len => offset / sector ≤ i / sector && i / sector < (offset + len) / sector
  | _ => false

/-- The value that byte `i` is to be given. -/
def value? (i : Nat) : Request → Option UInt8
  | .write offset data =>
    if offset ≤ i ∧ i < offset + data.size then some (data.byte (i - offset)) else none
  | _ => none

def fault? : Request → Option ArmedFault
  | .arm f => some f
  | _ => none

/-- What may be asked of a device whose bytes are `now`. -/
def Allowed (d : Nor) (now : Nat → UInt8) : Request → Prop
  | .erase offset len =>
    offset % d.sector = 0 ∧ len % d.sector = 0 ∧ offset + len ≤ d.size ∧ ¬ d.strikes .erase
  | .write offset data =>
    offset % wordSize = 0 ∧ data.size % wordSize = 0 ∧ offset + data.size ≤ d.size ∧
      ¬ d.strikes .write ∧ ∀ k < data.size, now (offset + k) &&& data.byte k = data.byte k
  | .read offset len => offset + len ≤ d.size
  | .arm _ => True

variable {d d' : Nor} {q : Request} {now now' : Nat → UInt8} {sector i offset len : Nat}

/-- Only the bytes of the device count. -/
lemma allowed_congr (h : ∀ i < d.size, now i = now' i) : q.Allowed d now ↔ q.Allowed d now' := by
  cases q with
  | write offset data =>
    unfold Allowed
    refine and_congr_right fun _ => and_congr_right fun _ => and_congr_right fun hfits =>
      and_congr_right fun _ => forall₂_congr fun k hk => ?_
    rw [h (offset + k) (by omega)]
  | _ => rfl

/-! ### One request -/

/-- What a request that succeeds does to the device. -/
structure Performed (d : Nor) (q : Request) (d' : Nor) : Prop where
  allowed : q.Allowed d d.contents.byte
  size_eq : d'.size = d.size
  sector_eq : d'.sector = d.sector
  armed_eq : d'.armed = q.fault?.or d.armed
  byte_eq : ∀ i < d.size, d'.contents.byte i =
    if q.erases d.sector i then erasedByte else (q.value? i).getD (d.contents.byte i)

/-- What a request that fails leaves: all but the armed failure, if this was the reason. -/
structure Refused (d : Nor) (q : Request) (e : Error) (d' : Nor) : Prop where
  not_allowed : ¬ q.Allowed d d.contents.byte
  rest_eq : d' = { d with armed := d'.armed }
  fault_eq : q.fault? = none
  armed_eq : if e.injected then d.armed.isSome ∧ d'.armed = none else d'.armed = d.armed

lemma armed_of_strikes {op : FlashOperation} (h : d.strikes op) : d.armed.isSome := by
  unfold strikes at h
  rw [beq_iff_eq.1 h]
  rfl

lemma erase_sat (offset len : Nat) (d : Nor) :
    Op.Sat (Nor.erase offset len) d (fun _ => Performed d (.erase offset len))
      (Refused d (.erase offset len)) := by
  unfold Op.Sat Nor.erase
  split_ifs with haligned hfits hstrikes
  · exact ⟨fun h => by unfold Allowed at h; omega, rfl, rfl, rfl⟩
  · exact ⟨fun h => by unfold Allowed at h; omega, rfl, rfl, rfl⟩
  · exact ⟨fun h => h.2.2.2 hstrikes, rfl, rfl, armed_of_strikes hstrikes, rfl⟩
  · have hoffset : offset % d.sector = 0 := by omega
    have hlen : len % d.sector = 0 := by omega
    refine ⟨⟨hoffset, hlen, by omega, hstrikes⟩, Bytes.size_fill .., rfl, rfl, fun i hi => ?_⟩
    rw [Bytes.fill, Bytes.byte_updateSpan _ _ _ hi]
    simp only [erases, value?, Bool.and_eq_true, decide_eq_true_eq, mem_sectors_iff hoffset hlen]
    rfl

lemma write_sat (offset : Nat) (data : Bytes) (d : Nor) :
    Op.Sat (Nor.write offset data) d (fun _ => Performed d (.write offset data))
      (Refused d (.write offset data)) := by
  unfold Op.Sat Nor.write
  split_ifs with haligned hfits hstrikes
  · exact ⟨fun h => by unfold Allowed at h; omega, rfl, rfl, rfl⟩
  · exact ⟨fun h => by unfold Allowed at h; omega, rfl, rfl, rfl⟩
  · exact ⟨fun h => h.2.2.2.1 hstrikes, rfl, rfl, armed_of_strikes hstrikes, rfl⟩
  · rcases hrise : firstRise? d.contents offset data with _ | k
    · -- no bit has to rise, so taking bits away leaves the data
      have hkeep := firstRise?_eq_none.1 hrise
      refine ⟨⟨by omega, by omega, by omega, hstrikes, hkeep⟩, Bytes.size_updateSpan .., rfl, rfl,
        fun i hi => ?_⟩
      rw [Bytes.byte_updateSpan _ _ _ hi]
      simp only [erases, value?, Bool.false_eq_true, if_false]
      split_ifs with hin
      · have hk := hkeep (i - offset) (by omega)
        rwa [Nat.add_sub_cancel' hin.1] at hk
      · rfl
    · refine ⟨fun h => ?_, rfl, rfl, rfl⟩
      rw [firstRise?_eq_none.2 h.2.2.2.2] at hrise
      cases hrise

lemma read_sat (offset len : Nat) (d : Nor) :
    Op.Sat (Nor.read offset len) d (fun _ => Performed d (.read offset len))
      (Refused d (.read offset len)) := by
  unfold Op.Sat Nor.read
  split_ifs with hfits
  · exact ⟨fun h => by unfold Allowed at h; omega, rfl, rfl, rfl⟩
  · exact ⟨by unfold Allowed; omega, rfl, rfl, rfl, fun _ _ => rfl⟩

lemma perform_sat (q : Request) (d : Nor) : Op.Sat q.perform d (fun _ => Performed d q) (Refused d q) := by
  cases q with
  | erase offset len => exact (erase_sat offset len d).bind (fun _ _ h => h) fun _ _ h => h
  | write offset data => exact (write_sat offset data d).bind (fun _ _ h => h) fun _ _ h => h
  | read offset len => exact read_sat offset len d
  | arm f => exact ⟨trivial, rfl, rfl, rfl, fun _ _ => rfl⟩

/-- Requests succeed exactly if they are allowed. -/
lemma perform_ok_iff (q : Request) (d : Nor) :
    (∃ out d', q.perform d = .ok out d') ↔ q.Allowed d d.contents.byte := by
  have hsat := perform_sat q d
  unfold Op.Sat at hsat
  generalize q.perform d = o at hsat ⊢
  rcases o with ⟨out, d'⟩ | ⟨e, d'⟩
  · exact iff_of_true ⟨out, d', rfl⟩ hsat.allowed
  · exact iff_of_false nofun hsat.not_allowed

/-- What fails leaves all but the armed failure. -/
lemma perform_error {e : Error} (h : q.perform d = .error e d') : d' = { d with armed := d'.armed } := by
  have hsat := perform_sat q d
  unfold Op.Sat at hsat
  rw [h] at hsat
  exact hsat.rest_eq

/-- Where nothing is erased, bits are only taken away. -/
lemma Performed.shrinks (h : Performed d q d') (hi : i < d.size) (hkept : ¬ q.erases d.sector i) :
    d'.contents.byte i &&& d.contents.byte i = d'.contents.byte i := by
  rw [h.byte_eq i hi, if_neg hkept]
  rcases hvalue : q.value? i with _ | v
  · exact UInt8.and_self
  · cases q with
    | write offset data =>
      simp only [value?] at hvalue
      split_ifs at hvalue with hin
      obtain ⟨-, -, -, -, hkeep⟩ := h.allowed
      have hk := hkeep (i - offset) (by omega)
      rw [Nat.add_sub_cancel' hin.1, Option.some.inj hvalue] at hk
      rw [Option.getD_some, UInt8.and_comm, hk]
    | _ => cases hvalue

end Request

end Nor

/-! ### Histories -/

/-- A request, and how it ended. -/
structure Nor.Entry where
  request : Nor.Request
  result : Except Error Bytes

namespace Nor.Entry

variable {sector i : Nat} {e : Entry} {es : List Entry}

/-- The sector of byte `i` was erased. -/
def erases (sector i : Nat) (e : Entry) : Bool := e.result.isOk && e.request.erases sector i

/-- The value that was written to byte `i`. -/
def value? (i : Nat) (e : Entry) : Option UInt8 := if e.result.isOk then e.request.value? i else none

/-- The armed failure struck. -/
def injected (e : Entry) : Bool :=
  match e.result with
  | .ok _ => false
  | .error e => e.injected

/-- What byte `i` is to be after a history, the latest request first: the latest value that was written
since its sector was erased, and else the value of an erased byte. -/
def expected (sector i : Nat) (history : List Entry) : UInt8 :=
  ((history.takeWhile fun e => !e.erases sector i).findSome? (·.value? i)).getD erasedByte

@[simp] lemma expected_nil : expected sector i [] = erasedByte := rfl

lemma expected_cons : expected sector i (e :: es) =
    if e.erases sector i then erasedByte else (e.value? i).getD (expected sector i es) := by
  unfold expected
  rw [List.takeWhile_cons]
  rcases herases : e.erases sector i
  · rw [Bool.not_false, if_pos rfl, List.findSome?_cons]
    rcases e.value? i with _ | v <;> rfl
  · rfl

end Nor.Entry

/-- A device, and the history of it, the latest request first. -/
structure Logbook where
  device : Nor
  history : List Nor.Entry

namespace Logbook

open Nor Nor.Request

variable {b : Logbook} {sector size i : Nat}

/-- Nothing has been asked for. -/
def start (d : Nor) : Logbook := ⟨d, []⟩

def perform (b : Logbook) (q : Request) : Logbook :=
  match q.perform b.device with
  | .ok out d => ⟨d, ⟨q, .ok out⟩ :: b.history⟩
  | .error e d => ⟨d, ⟨q, .error e⟩ :: b.history⟩

/-- Requests one after the other, also after failures. -/
def run (b : Logbook) (requests : List Request) : Logbook := requests.foldl perform b

/-- A request is noted, with all that it does. -/
lemma perform_cases (b : Logbook) (q : Request) :
    (∃ out, Performed b.device q (b.perform q).device ∧
        (b.perform q).history = ⟨q, .ok out⟩ :: b.history) ∨
      ∃ e, Refused b.device q e (b.perform q).device ∧
        (b.perform q).history = ⟨q, .error e⟩ :: b.history := by
  have hsat := perform_sat q b.device
  unfold Op.Sat at hsat
  unfold perform
  generalize q.perform b.device = o at hsat ⊢
  rcases o with ⟨out, d⟩ | ⟨e, d⟩
  · exact .inl ⟨out, hsat, rfl⟩
  · exact .inr ⟨e, hsat, rfl⟩

/-! ### What every request keeps -/

/-- The device has its sectors and holds what its history says. -/
structure Faithful (size sector : Nat) (b : Logbook) : Prop where
  size_eq : b.device.size = size
  sector_eq : b.device.sector = sector
  byte_eq : ∀ i < size, b.device.contents.byte i = Entry.expected sector i b.history

lemma faithful_start (size sector : Nat) (reported : UInt8) :
    Faithful size sector (start (Nor.create size sector reported)) where
  size_eq := Array.size_replicate
  sector_eq := rfl
  byte_eq i hi := by
    rw [Bytes.byte_eq, start, create, Array.getElem?_replicate, if_pos hi, Entry.expected_nil]
    rfl

lemma Faithful.perform (h : Faithful size sector b) (q : Request) : Faithful size sector (b.perform q) := by
  obtain ⟨hsize, hsector, hbyte⟩ := h
  obtain ⟨out, hdone, hnoted⟩ | ⟨e, hrefused, hnoted⟩ := perform_cases b q
  · refine ⟨hdone.size_eq.trans hsize, hdone.sector_eq.trans hsector, fun i hi => ?_⟩
    rw [hdone.byte_eq i (hsize ▸ hi), hnoted, Entry.expected_cons, hsector, hbyte i hi]
    rfl
  · have hrest := hrefused.rest_eq
    refine ⟨hrest ▸ hsize, hrest ▸ hsector, fun i hi => ?_⟩
    rw [hnoted, Entry.expected_cons, hrest]
    exact hbyte i hi

lemma Faithful.run (h : Faithful size sector b) (requests : List Request) :
    Faithful size sector (b.run requests) := by
  induction requests generalizing b with
  | nil => exact h
  | cons q requests ih => exact ih (h.perform q)

/-! ### Stretches of a history -/

/-- What becomes of a device over requests that are noted as `since`. Each failure strikes once at most,
and only while it is armed. -/
structure Continues (d : Nor) (since : List Entry) (requests : List Request) (d' : Nor) : Prop where
  size_eq : d'.size = d.size
  sector_eq : d'.sector = d.sector
  shrinks : ∀ i < d.size, (∀ e ∈ since, ¬ e.erases d.sector i) →
    d'.contents.byte i &&& d.contents.byte i = d'.contents.byte i
  faults : since.countP Entry.injected + d'.armed.toList.length ≤
    d.armed.toList.length + (requests.filterMap fault?).length

namespace Continues

variable {d d' d'' : Nor} {since since' : List Entry} {requests requests' : List Request}

lemma refl (d : Nor) : Continues d [] [] d where
  size_eq := rfl
  sector_eq := rfl
  shrinks _ _ _ := UInt8.and_self
  faults := by simp

lemma trans (h : Continues d since requests d') (h' : Continues d' since' requests' d'') :
    Continues d (since' ++ since) (requests ++ requests') d'' where
  size_eq := h'.size_eq.trans h.size_eq
  sector_eq := h'.sector_eq.trans h.sector_eq
  shrinks i hi hkept := by
    have hfirst := h.shrinks i hi fun e he => hkept e (List.mem_append_right _ he)
    have hsecond := h'.shrinks i (h.size_eq ▸ hi) fun e he =>
      h.sector_eq ▸ hkept e (List.mem_append_left _ he)
    calc d''.contents.byte i &&& d.contents.byte i
        = d''.contents.byte i &&& d'.contents.byte i &&& d.contents.byte i := by rw [hsecond]
      _ = d''.contents.byte i &&& d'.contents.byte i := by rw [UInt8.and_assoc, hfirst]
      _ = d''.contents.byte i := hsecond
  faults := by
    have hfirst := h.faults
    have hsecond := h'.faults
    rw [List.countP_append, List.filterMap_append, List.length_append]
    omega

end Continues

/-- An armed failure takes the place of another, and is gone once it has struck. -/
lemma continues_perform (b : Logbook) (q : Request) :
    ∃ e, (b.perform q).history = e :: b.history ∧ Continues b.device [e] [q] (b.perform q).device := by
  obtain ⟨out, hdone, hnoted⟩ | ⟨e, hrefused, hnoted⟩ := perform_cases b q
  · refine ⟨_, hnoted, hdone.size_eq, hdone.sector_eq, fun i hi hkept => ?_, ?_⟩
    · exact hdone.shrinks hi (hkept _ (List.mem_singleton_self _))
    · rw [hdone.armed_eq]
      rcases hfault : q.fault? <;> rcases b.device.armed <;> simp [Entry.injected, hfault]
  · have hrest := hrefused.rest_eq
    refine ⟨_, hnoted, by rw [hrest]; rfl, by rw [hrest], fun i hi _ => ?_, ?_⟩
    · rw [hrest]
      exact UInt8.and_self
    · have harmed := hrefused.armed_eq
      rcases hinjected : e.injected
      · rw [hinjected, if_neg Bool.false_ne_true] at harmed
        simp [Entry.injected, hinjected, harmed]
      · rw [hinjected, if_pos rfl] at harmed
        obtain ⟨f, hf⟩ := Option.isSome_iff_exists.1 harmed.1
        simp [Entry.injected, hinjected, harmed.2, hf]

lemma continues_run (b : Logbook) (requests : List Request) :
    ∃ since, (b.run requests).history = since ++ b.history ∧
      Continues b.device since requests (b.run requests).device := by
  induction requests generalizing b with
  | nil => exact ⟨[], rfl, .refl _⟩
  | cons q requests ih =>
    obtain ⟨e, hnoted, hfirst⟩ := continues_perform b q
    obtain ⟨since, hsince, hrest⟩ := ih (b.perform q)
    refine ⟨since ++ [e], ?_, hfirst.trans hrest⟩
    rw [List.append_assoc, List.singleton_append, ← hnoted]
    exact hsince

/-! ### Any history -/

/-- **A flash device is what its history says**, whatever has been asked of it since it was created and
whatever has failed. Each byte, in place and as it is read, is the one that was written last since its sector
was erased, and else that of an erased byte. Requests succeed exactly if they are allowed. What fails changes
no byte and no counter. Over any later requests the bytes whose sectors are not erased only lose bits, and
as long as no failure is armed anew no request fails because of one, or one does if there was one armed. -/
theorem history_exact (size sector : Nat) (reported : UInt8) (earlier later : List Request) :
    let b := (start (Nor.create size sector reported)).run earlier
    let now := fun i => Entry.expected sector i b.history
    let c := (start b.device).run later
    (b.device.size = size ∧ ∀ i < size, b.device.contents.byte i = now i) ∧
    (∀ offset len, offset + len ≤ size →
      ∃ d, Nor.read offset len b.device = .ok (Array.ofFn fun k : Fin len => now (offset + k)) d) ∧
    (∀ q : Request, (∃ out d, q.perform b.device = .ok out d) ↔ q.Allowed b.device now) ∧
    (∀ (q : Request) e d, q.perform b.device = .error e d →
      d.contents = b.device.contents ∧ d.stats = b.device.stats) ∧
    (∀ i < size, (∀ e ∈ c.history, ¬ e.erases sector i) →
      c.device.contents.byte i &&& b.device.contents.byte i = c.device.contents.byte i) ∧
    ((∀ q ∈ later, q.fault? = none) →
      c.history.countP Entry.injected ≤ b.device.armed.toList.length) := by
  intro b now c
  obtain ⟨hsize, hsector, hbyte⟩ := (faithful_start size sector reported).run earlier
  change b.device.size = size at hsize
  change b.device.sector = sector at hsector
  change ∀ i < size, b.device.contents.byte i = now i at hbyte
  obtain ⟨since, hsince, hcontinues⟩ := continues_run (start b.device) later
  change c.history = since ++ [] at hsince
  rw [List.append_nil] at hsince
  refine ⟨⟨hsize, hbyte⟩, ?_, ?_, ?_, ?_, ?_⟩
  · intro offset len hfits
    have hinside : offset + len ≤ b.device.size := hsize ▸ hfits
    have hslice : b.device.contents.slice offset len = Array.ofFn fun k : Fin len => now (offset + k) := by
      rw [Bytes.slice_eq_ofFn hinside]
      congr 1
      ext k
      rw [hbyte (offset + k) (by omega)]
    unfold Nor.read
    rw [if_neg (Nat.not_lt.2 hinside), hslice]
    exact ⟨_, rfl⟩
  · intro q
    rw [perform_ok_iff, allowed_congr (hsize ▸ hbyte)]
  · intro q e d h
    have hrest := perform_error h
    exact ⟨by rw [hrest], by rw [hrest]⟩
  · intro i hi hkept
    exact hcontinues.shrinks i (hsize ▸ hi) (hsince ▸ hsector ▸ hkept)
  · intro harms
    have hnone : later.filterMap fault? = [] := List.filterMap_eq_nil_iff.2 harms
    have hcount := hcontinues.faults
    rw [hnone, ← hsince] at hcount
    exact Nat.le_trans (Nat.le_add_right _ _) hcount

/-- The third write asks for a bit back and the erase is made to fail: the second write stays. -/
example : ((start (Nor.create 32 16 erasedByte)).run [.write 0 #[0x0f, 0xf0, 0xff, 0x00],
    .write 0 #[0x0e, 0xf0, 0x7f, 0x00], .write 0 #[0x0f, 0xf0, 0x7f, 0x00], .arm ⟨.erase, 0⟩,
    .erase 0 16]).device.contents.slice 0 4 = #[0x0e, 0xf0, 0x7f, 0x00] := by decide +kernel

end Logbook

end FlashLink
