import FlashLink.Proofs.AppLoading
import FlashLink.Proofs.Executing

/-!
Running the sample with a full descriptor. Its entry point returns the address of the descriptor, and
`start` its argument and a hundred.
-/

namespace FlashLink

/-! ### Addresses of functions -/

lemma add_one_eq_or {a : Addr} (h : a &&& 1 = 0) : a + 1 = a ||| 1 := by
  rw [UInt32.eq_iff_toBitVec_eq, UInt32.toBitVec_add, UInt32.toBitVec_or]
  refine BitVec.add_eq_or_of_and_eq_zero _ _ ?_
  rw [← UInt32.toBitVec_and, h]
  rfl

namespace Machine

variable {c : Cpu} {base : Addr} {args : List UInt32}

/-- A function at an even address is called at the next one. -/
lemma call_function {μ : Type} [Memory μ] {a : Addr} (ha : a &&& 1 = 0) (hargs : args.length ≤ 4)
    (x : Machine μ) :
    call (a + 1) base args x = run x.cpu.stepLimit a { x with cpu := entered base args x.cpu } := by
  have hodd : (a + 1) &&& 1 ≠ 0 := by
    rw [add_one_eq_or ha, or_and_distrib, ha]
    decide
  have heven : (a + 1) &&& ~~~1 = a := by
    rw [add_one_eq_or ha, or_and_distrib, and_not_eq ha]
    exact UInt32.or_zero
  rw [call_eq hargs hodd, heven]

end Machine

namespace Samples.App

variable {μ : Type} [Memory μ] {R : μ → μ → Prop} {m m₁ : μ} {c d : Cpu} {name : String}
  {category : UInt32} {code label record : Addr}

lemma size_linkedCode : (linkedCode record).size = 12 := by
  rw [linkedCode, Array.size_append, Bytes.size_ofU32]
  rfl

lemma size_linkedRecord (label start : Addr) (category : UInt32) :
    (linkedRecord label start category).size = 20 := by
  simp only [linkedRecord, Array.size_append, Bytes.size_ofU32, Bytes.size_zeros]

/-- The app is in memory, linked. -/
structure Held (m : μ) (c : Cpu) (name : String) (category : UInt32) (code label record : Addr) :
    Prop where
  code_at : Machine.CodeAt m c code (linkedCode record)
  code_aligned : code &&& 3 = 0
  code_fits : code.toNat + 12 ≤ UInt32.size
  label_at : Memory.Answers m label (App.label name)
  record_at : Memory.Answers m record (linkedRecord label (code + 5) category)

namespace Held

variable (hR : Memory.Steady R) (h : Held m c name category code label record)

include hR h

lemma moved (hd : c.Kin d) (hm : R m m₁) : Held m₁ d name category code label record where
  code_at :=
    have hcode := h.code_at.moved hd
    ⟨hcode.answers.steady hR hm, hcode.off_stack, hcode.off_stubs⟩
  code_aligned := h.code_aligned
  code_fits := h.code_fits
  label_at := h.label_at.steady hR hm
  record_at := h.record_at.steady hR hm

omit hR in
lemma even : code &&& 1 = 0 := by
  rw [show (1 : UInt32) = 3 &&& 1 from rfl, ← UInt32.and_assoc, h.code_aligned, UInt32.zero_and]

omit hR in
/-- No instruction is where calls return to. -/
lemma code_ne {i : Nat} (hi : i + 2 < 12) : code + UInt32.ofNat i ≠ Cpu.returnAddress &&& ~~~1 := by
  intro heq
  have hfits := h.code_fits
  have hlimit : UInt32.size = 4294967296 := rfl
  have hreturn : (Cpu.returnAddress &&& ~~~1).toNat = 4294967294 := by decide
  have hsum := congrArg UInt32.toNat heq
  rw [UInt32.toNat_add, UInt32.toNat_ofNat', hreturn] at hsum
  omega

omit hR in
/-- The callback is somewhere. -/
lemma start_ne : code + 5 ≠ 0 := by
  have hfits := h.code_fits
  have hlimit : UInt32.size = 4294967296 := rfl
  have hfive : (5 : Addr).toNat = 5 := rfl
  have hnull : (0 : Addr).toNat = 0 := rfl
  intro hzero
  have hsum := congrArg UInt32.toNat hzero
  rw [UInt32.toNat_add] at hsum
  omega

omit h hR in
/-- The halfwords of the two functions. -/
lemma halfword {i : Nat} (hi : i + 2 ≤ 8) :
    ((linkedCode record).slice i 2).u32 0 = (instructions.slice i 2).u32 0 := by
  rw [linkedCode, Bytes.slice_append_left hi]

/-- **The callback** returns its argument and a hundred. -/
lemma call_start (hsteps : 3 ≤ c.stepLimit) (base : Addr) {args : List UInt32} (hargs : args.length ≤ 4) :
    ∃ y, Machine.call (code + 5) base args ⟨c, m⟩ = .ok (args.getD 0 0 + 100) y ∧ c.Kin y.cpu ∧
      R m y.mem := by
  have hnext : (code + 4) &&& 1 = 0 := by
    have haligned := (and_three_iff code).1 h.code_aligned
    have hfour : (4 : UInt32).toNat = 4 := rfl
    rw [and_one_iff, UInt32.toNat_add]
    omega
  have hfunc : code + 5 = code + 4 + 1 := by rw [UInt32.add_assoc]; rfl
  obtain ⟨n, hn⟩ : ∃ n, c.stepLimit = n + 3 := ⟨c.stepLimit - 3, by omega⟩
  have hkin := c.kin_entered base args
  have hlr : (Machine.entered base args c).regs[Reg.lr] = Cpu.returnAddress :=
    Machine.initialRegs_lr ..
  have hresult : (Machine.entered base args c).regs[Reg.result] = args.getD 0 0 :=
    Machine.initialRegs_result ..
  rw [hfunc, Machine.call_function hnext hargs, hn]
  dsimp only
  generalize Machine.entered base args c = d at hkin hlr hresult ⊢
  have hcode := h.code_at.moved hkin
  have hdecode : Instruction.decodeNarrow 0x3064 = some (.addImm Reg.result Reg.result 100) := by decide
  obtain ⟨_, x, hstep, rfl, hx⟩ := (Machine.step_addImm hR hcode (x := ⟨d, m⟩)
    ⟨rfl, hR.equivalence.refl m⟩ (i := 4) (by rw [size_linkedCode]; decide) 0x3064
    ((halfword (by decide)).trans (by decide)) (by decide) hdecode).exists_ok
  rw [hresult] at hx
  have hkin₁ := d.kin_counted.trans (d.counted.kin_setReg Reg.result (args.getD 0 0 + 100))
  obtain ⟨y, hrun, hy⟩ := Machine.run_return hR (hcode.moved hkin₁) hx (i := 6)
    (by rw [size_linkedCode]; decide) ((halfword (by decide)).trans (by decide))
    ((d.counted.setReg_other (by decide) _).trans hlr) (h.code_ne (by decide)) n
  refine ⟨y, ?_, ?_, ?_⟩
  · have hfirst := Machine.run_succ (n := n + 2) (h.code_ne (i := 4) (by decide)) hstep
    rw [Cpu.setReg_self] at hrun
    exact hfirst.trans hrun
  · rw [hy.1]
    exact (hkin.trans hkin₁).trans (Cpu.kin_counted _)
  · exact hy.2

omit h hR in
/-- The words of the descriptor. -/
lemma words (label start : Addr) (category : UInt32) :
    (linkedRecord label start category).HasAt 0 (Bytes.ofU32 label) ∧
    (linkedRecord label start category).HasAt 4 (Bytes.ofU32 0) ∧
    (linkedRecord label start category).HasAt 8 (Bytes.ofU32 start) ∧
    (linkedRecord label start category).HasAt 12 (Bytes.ofU32 0) ∧
    (linkedRecord label start category).HasAt 16 (Bytes.ofU32 category) := by
  have hzero : Bytes.zeros 4 = Bytes.ofU32 0 := by decide
  have hwhole := Bytes.hasAt_self (linkedRecord label start category)
  conv at hwhole => arg 3; rw [linkedRecord, hzero]
  obtain ⟨h₀, hrest⟩ := hwhole.parts
  obtain ⟨h₁, hrest⟩ := hrest.parts
  obtain ⟨h₂, hrest⟩ := hrest.parts
  obtain ⟨h₃, h₄⟩ := hrest.parts
  exact ⟨h₀, h₁, h₂, h₃, h₄⟩

/-- **The descriptor** is read as what the app was made of. -/
lemma descriptor (hzero : 0 ∉ Bytes.ofText name) (hlen : (Bytes.ofText name).size < maxNameLen)
    (hlabel : label ≠ 0) (hm : R m m₁) :
    Op.Sat (Descriptor.read record) m₁
      (fun d m₂ => d = ⟨record, name, 0, code + 5, 0, category⟩ ∧ R m m₂) fun _ _ => False := by
  obtain ⟨h₀, h₁, h₂, h₃, h₄⟩ := words label (code + 5) category
  have hword {i : Nat} {v : UInt32} {m₁ : μ} (hm : R m m₁) :=
    h.record_at.readWord hR hm (i := i) (v := v)
  have hsize := size_linkedRecord label (code + 5) category
  generalize linkedRecord label (code + 5) category = b at h₀ h₁ h₂ h₃ h₄ hword hsize
  unfold Descriptor.read
  conv in Memory.readWord record => rw [← UInt32.add_zero record]
  refine (hword hm h₀ (by rw [hsize]; decide)).bind ?_ fun _ _ h => h
  rintro _ m₂ ⟨rfl, hm₂⟩
  refine (hword hm₂ h₁ (by rw [hsize]; decide)).bind ?_ fun _ _ h => h
  rintro _ m₃ ⟨rfl, hm₃⟩
  refine (hword hm₃ h₂ (by rw [hsize]; decide)).bind ?_ fun _ _ h => h
  rintro _ m₄ ⟨rfl, hm₄⟩
  refine (hword hm₄ h₃ (by rw [hsize]; decide)).bind ?_ fun _ _ h => h
  rintro _ m₅ ⟨rfl, hm₅⟩
  refine (hword hm₅ h₄ (by rw [hsize])).bind ?_ fun _ _ h => h
  rintro _ m₆ ⟨rfl, hm₆⟩
  unfold Descriptor.readName
  rw [if_neg hlabel]
  refine (h.label_at.readText hR hm₆ hzero hlen).bind ?_ fun _ _ h => h
  rintro _ m₇ ⟨rfl, hm₇⟩
  exact ⟨rfl, hm₇⟩

end Held

/-! ### In the address space -/

section

variable {c c' : Context} {cpu : Cpu} {name : String} {category : UInt32} {code label record : Addr}

/-- **What is stored is held** in the address space. -/
lemma Stored.held (h : Stored name category c c' code label record) (hsound : c'.xip.Sound)
    (hapart : Machine.Apart ⟨cpu, c'⟩) : Held c' cpu name category code label record := by
  obtain ⟨k, hk, hle, rfl, hcode⟩ := h.code_at
  obtain ⟨l, -, hl, rfl, hlabel⟩ := h.label_at
  obtain ⟨n, -, hn, rfl, hrecord⟩ := h.record_at
  have hfits := hapart.fits
  have haligned := hapart.aligned
  have hdisjoint := hapart.disjoint
  simp only [Machine.ranges, List.forall_mem_cons, List.pairwise_cons] at hfits haligned hdisjoint
  obtain ⟨hxipFits, -, hpoolFits, -⟩ := hfits
  obtain ⟨⟨hxip, hxipPool, hxipStack, hxipStubs, -⟩, ⟨hiflashPool, -⟩, -⟩ := hdisjoint
  simp only [← Region.contains_eq] at hxipPool hxipStack hxipStubs hiflashPool
  have hin : ∀ i < 12, c'.xip.contains (c'.xip.address k + UInt32.ofNat i) := by
    intro i hi
    rw [Region.address, add_ofNat_ofNat, Region.contains_eq]
    exact covers_self hxipFits (by omega)
  refine ⟨⟨?_, ?_, ?_⟩, ?_, ?_, ?_, ?_⟩
  · exact Context.answers_flash hsound hxipFits (by rwa [size_linkedCode]) (by rwa [size_linkedCode])
  · rw [size_linkedCode]
    exact fun i hi => Cpu.stackSpan?_of_uncovered (hxipStack _ (hin i hi))
  · rw [size_linkedCode]
    exact fun i hi => Cpu.host?_of_uncovered (hxipStubs _ (hin i hi))
  · rw [and_three_iff]
    refine Region.address_aligned ⟨(and_three_iff _).1 haligned.1, hxipFits⟩ ?_
    exact Nat.mod_eq_zero_of_dvd (hsound.word_dvd_sector.trans (Nat.dvd_of_mod_eq_zero hk))
  · rw [Region.toNat_address hxipFits (by omega)]
    omega
  · exact Context.answers_flash hsound hxipFits hl hlabel
  · exact Context.answers_pool hpoolFits hxipPool hiflashPool (by rwa [size_linkedRecord])
      (by rwa [size_linkedRecord])

end

end Samples.App

end FlashLink
