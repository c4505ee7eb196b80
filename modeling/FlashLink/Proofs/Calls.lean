import FlashLink.Context
import FlashLink.Machine.Cpu
import FlashLink.Proofs.Regions

/-!
Two machines in lockstep. What a machine does depends on its registers, its stack, its host functions
and what its memory answers, and on nothing else: two machines that agree on these, and whose memories
answer alike whatever is done to both, do the same at every step. They may have executed different
numbers of instructions before, and may be given different numbers of steps.

A memory is also in lockstep with itself, so whatever no access to the memory can change, no call can
change either.
-/

namespace FlashLink

/-! ### Memories -/

namespace Memory

variable {μ : Type} [Memory μ]

/-- Memories in this relation answer alike, and stay in the relation. -/
structure Coupled (R : μ → μ → Prop) : Prop where
  read : ∀ {m m'} addr len, R m m' →
    Op.Sim (Memory.read addr len) (Memory.read addr len) m m' (fun _ => R) fun _ => R
  write : ∀ {m m'} addr data, R m m' →
    Op.Sim (Memory.write addr data) (Memory.write addr data) m m' (fun _ => R) fun _ => R

/-- Memories in this relation differ in nothing that can be read. Reading makes no more difference. -/
structure Steady (R : μ → μ → Prop) : Prop extends Coupled R where
  equivalence : Equivalence R
  kept : ∀ m addr len, Op.Sat (Memory.read addr len) m (fun _ => R m) fun _ => R m

/-- The memory can be read at `a`, where it has these bytes. -/
def Holds (m : μ) (a : Addr) (b : Bytes) : Prop :=
  ∀ i len, i + len ≤ b.size →
    ∃ m', Memory.read (a + UInt32.ofNat i) len m = .ok (b.slice i len) m'

end Memory

/-! ### Machines -/

namespace Cpu

/-- The same, but for the limit on its steps and the instructions executed so far. -/
def delayed (c : Cpu) (limit n : Nat) : Cpu :=
  { c with stepLimit := limit, stats.instructions := c.stats.instructions + n }

variable {c : Cpu} {limit n : Nat}

@[simp] lemma delayed_regs : (c.delayed limit n).regs = c.regs := rfl

@[simp] lemma reg_delayed (r : Reg) (pc : Addr) : (c.delayed limit n).reg r pc = c.reg r pc := rfl

@[simp] lemma host?_delayed (pc : Addr) : (c.delayed limit n).host? pc = c.host? pc := rfl

@[simp] lemma stackSpan?_delayed (addr : Addr) (len : Nat) :
    (c.delayed limit n).stackSpan? addr len = c.stackSpan? addr len := rfl

end Cpu

namespace Machine

variable {μ : Type} {R : μ → μ → Prop} {limit k : Nat} {x y : Machine μ} {pc next addr : Addr}

/-- The second machine has executed `k` more instructions, and may have another limit. -/
def Lags (R : μ → μ → Prop) (limit k : Nat) (x y : Machine μ) : Prop :=
  y.cpu = x.cpu.delayed limit k ∧ R x.mem y.mem

/-- Both machines do the same, and the second one keeps lagging behind. -/
abbrev Lockstep {α : Type} (R : μ → μ → Prop) (limit k : Nat) (act : Op (Machine μ) α)
    (x y : Machine μ) : Prop :=
  Op.Sim act act x y (fun _ => Lags R limit k) fun _ => Lags R limit k

lemma modify_lockstep {α : Type} {f : Machine μ → Machine μ} {g : PUnit → Op (Machine μ) α}
    (h : Lags R limit k (f x) (f y))
    (hg : ∀ x y, Lags R limit k x y → Lockstep R limit k (g ⟨⟩) x y) :
    Lockstep R limit k (modify f >>= g) x y :=
  Op.Sim.modify_bind (hg _ _ h)

lemma setReg_lockstep (h : Lags R limit k x y) (r : Reg) (v : UInt32) :
    Lockstep R limit k (setReg r v) x y :=
  ⟨rfl, by dsimp only; rw [h.1]; rfl, h.2⟩

lemma interwork_lockstep (h : Lags R limit k x y) (target : Addr) :
    Lockstep R limit k (interwork target) x y := by
  unfold interwork
  split
  · exact ⟨rfl, h⟩
  · exact ⟨rfl, h⟩

variable [Memory μ]

section Coupled

variable (hR : Memory.Coupled R)

include hR

lemma load_lockstep (h : Lags R limit k x y) (len : Nat) :
    Lockstep R limit k (load addr len) x y := by
  obtain ⟨c, m⟩ := x
  obtain ⟨_, m'⟩ := y
  obtain ⟨rfl, hm⟩ := h
  have hread := hR.read addr len hm
  unfold Lockstep Op.Sim
  unfold Op.Sim at hread
  unfold load Op.zoom memPart
  dsimp only at hm hread ⊢
  rw [Cpu.stackSpan?_delayed]
  rcases c.stackSpan? addr len with _ | start <;> dsimp only
  · generalize Memory.read addr len m = o at hread ⊢
    generalize Memory.read addr len m' = o' at hread ⊢
    rcases o with ⟨b, m1⟩ | ⟨e, m1⟩ <;> rcases o' with ⟨b', m1'⟩ | ⟨e', m1'⟩
    · exact ⟨congrArg (Bytes.u32 · 0) hread.1, rfl, hread.2⟩
    · exact hread.elim
    · exact hread.elim
    · exact ⟨hread.1, rfl, hread.2⟩
  · exact ⟨rfl, rfl, hm⟩

lemma store_lockstep (h : Lags R limit k x y) (value : UInt32) :
    Lockstep R limit k (store addr value) x y := by
  obtain ⟨c, m⟩ := x
  obtain ⟨_, m'⟩ := y
  obtain ⟨rfl, hm⟩ := h
  have hwrite := hR.write addr (Bytes.ofU32 value) hm
  unfold Lockstep Op.Sim
  unfold Op.Sim at hwrite
  unfold store Op.zoom memPart
  dsimp only at hm hwrite ⊢
  rw [Cpu.stackSpan?_delayed]
  rcases c.stackSpan? addr 4 with _ | start <;> dsimp only
  · generalize Memory.write addr (Bytes.ofU32 value) m = o at hwrite ⊢
    generalize Memory.write addr (Bytes.ofU32 value) m' = o' at hwrite ⊢
    rcases o with ⟨b, m1⟩ | ⟨e, m1⟩ <;> rcases o' with ⟨b', m1'⟩ | ⟨e', m1'⟩
    · exact ⟨hwrite.1, rfl, hwrite.2⟩
    · exact hwrite.elim
    · exact hwrite.elim
    · exact ⟨hwrite.1, rfl, hwrite.2⟩
  · exact ⟨rfl, by simp only [Cpu.delayed], hm⟩

lemma storeAll_lockstep (h : Lags R limit k x y) (rs : List Reg) :
    Lockstep R limit k (storeAll rs addr) x y := by
  induction rs generalizing x y addr with
  | nil => exact ⟨rfl, h⟩
  | cons r rs ih =>
    refine Op.Sim.get_bind ?_
    rw [h.1, Cpu.delayed_regs]
    exact (store_lockstep hR h _).bind (fun _ _ _ h => ih h) fun _ _ _ h => h

lemma loadAll_lockstep (h : Lags R limit k x y) (rs : List Reg) :
    Lockstep R limit k (loadAll rs addr) x y := by
  induction rs generalizing x y addr with
  | nil => exact ⟨rfl, h⟩
  | cons r rs ih =>
    refine (load_lockstep hR h 4).bind (fun v _ _ h => ?_) fun _ _ _ h => h
    exact (setReg_lockstep h r v).bind (fun _ _ _ h => ih h) fun _ _ _ h => h

lemma loadTo_lockstep (h : Lags R limit k x y) (rt : Reg) :
    Lockstep R limit k (execute.loadTo next rt addr) x y := by
  refine (load_lockstep hR h 4).bind (fun v _ _ h => ?_) fun _ _ _ h => h
  split
  · exact interwork_lockstep h v
  · exact (setReg_lockstep h rt v).bind (fun _ _ _ h => ⟨rfl, h⟩) fun _ _ _ h => h

omit [Memory μ] hR in
lemma write_lockstep (h : Lags R limit k x y) (rd : Reg) (v : UInt32) :
    Lockstep R limit k (execute.write next rd v) x y := by
  unfold execute.write
  split
  · exact ⟨rfl, h⟩
  · exact (setReg_lockstep h rd v).bind (fun _ _ _ h => ⟨rfl, h⟩) fun _ _ _ h => h

/-- **Every instruction** does the same on both machines. -/
lemma execute_lockstep (h : Lags R limit k x y) (i : Instruction) :
    Lockstep R limit k (execute pc next i) x y := by
  have hset : ∀ {x y : Machine μ}, Lags R limit k x y → ∀ r v (a : Addr),
      Lockstep R limit k (setReg r v >>= fun _ => (pure a : Op (Machine μ) Addr)) x y :=
    fun h r v _ => (setReg_lockstep h r v).bind (fun _ _ _ h => ⟨rfl, h⟩) fun _ _ _ h => h
  unfold execute
  refine Op.Sim.get_bind ?_
  rw [h.1]
  cases i <;> simp only [Cpu.delayed_regs, Cpu.reg_delayed]
  case shiftLeft | add | sub | addImm | subImm | moveImm | moveStack => exact hset h _ _ _
  case addAny | move => exact write_lockstep h _ _
  case jump => exact interwork_lockstep h _
  case call =>
    exact (setReg_lockstep h _ _).bind (fun _ _ _ h => interwork_lockstep h _) fun _ _ _ h => h
  case loadLiteral | load => exact loadTo_lockstep hR h _
  case store => exact (store_lockstep hR h _).bind (fun _ _ _ h => ⟨rfl, h⟩) fun _ _ _ h => h
  case push mask link =>
    refine (setReg_lockstep h _ _).bind (fun _ _ _ h => ?_) fun _ _ _ h => h
    exact (storeAll_lockstep hR h _).bind (fun _ _ _ h => ⟨rfl, h⟩) fun _ _ _ h => h
  case pop mask ret =>
    refine (loadAll_lockstep hR h _).bind (fun addr _ _ h => ?_) fun _ _ _ h => h
    cases ret
    · exact hset h _ _ _
    · refine (load_lockstep hR h 4).bind (fun target _ _ h => ?_) fun _ _ _ h => h
      exact (setReg_lockstep h _ _).bind (fun _ _ _ h => interwork_lockstep h _) fun _ _ _ h => h
  case nop | branch => exact ⟨rfl, h⟩
  case branchLink => exact hset h _ _ _

/-- A host function sees the memory only. -/
lemma program_sim {m m' : μ} (h : R m m') (p : HostProgram) :
    Op.Sim p.run p.run m m' (fun _ => R) fun _ => R := by
  induction p generalizing m m' with
  | done v => exact ⟨rfl, h⟩
  | fail e => exact ⟨rfl, h⟩
  | read addr len next ih =>
    have hread := hR.read addr len h
    unfold Op.Sim at hread ih ⊢
    unfold HostProgram.run
    dsimp only
    generalize Memory.read addr len m = o at hread ⊢
    generalize Memory.read addr len m' = o' at hread ⊢
    rcases o with ⟨b, m1⟩ | ⟨e, m1⟩ <;> rcases o' with ⟨b', m1'⟩ | ⟨e', m1'⟩
    · obtain ⟨rfl, h⟩ := hread
      exact ih _ h
    · exact hread.elim
    · exact hread.elim
    · obtain ⟨rfl, h⟩ := hread
      exact ih _ h
  | write addr data next ih =>
    have hwrite := hR.write addr data h
    unfold Op.Sim at hwrite ih ⊢
    unfold HostProgram.run
    dsimp only
    generalize Memory.write addr data m = o at hwrite ⊢
    generalize Memory.write addr data m' = o' at hwrite ⊢
    rcases o with ⟨b, m1⟩ | ⟨e, m1⟩ <;> rcases o' with ⟨b', m1'⟩ | ⟨e', m1'⟩
    · exact ih _ hwrite.2
    · exact hwrite.elim
    · exact hwrite.elim
    · obtain ⟨rfl, h⟩ := hwrite
      exact ih _ h

lemma callHost_lockstep (h : Lags R limit k x y) (f : HostFunction) :
    Lockstep R limit k (callHost f) x y := by
  unfold callHost
  refine modify_lockstep ⟨by dsimp only; rw [h.1]; rfl, h.2⟩ fun x y h => Op.Sim.get_bind ?_
  dsimp only
  rw [h.1, Cpu.delayed_regs]
  refine Op.Sim.bind (S := fun _ => Lags R limit k) (G := fun _ => Lags R limit k)
    (Op.sim_zoom.2 ?_) (fun v x y h => ?_) fun _ _ _ h => h
  · exact (program_sim hR h.2 _).mono (fun _ _ _ hm => ⟨h.1, hm⟩) fun _ _ _ hm => ⟨h.1, hm⟩
  · refine (setReg_lockstep h _ _).bind (fun _ x y h => Op.Sim.get_bind ?_) fun _ _ _ h => h
    rw [h.1, Cpu.delayed_regs]
    exact interwork_lockstep h _

lemma executeAt_lockstep (h : Lags R limit k x y) : Lockstep R limit k (executeAt pc) x y := by
  unfold executeAt
  refine modify_lockstep ⟨?_, h.2⟩ fun x y h => ?_
  · dsimp only
    rw [h.1]
    simp [Cpu.delayed, Nat.add_right_comm]
  refine (load_lockstep hR h 2).bind (fun hi _ _ h => ?_) fun _ _ _ h => h
  dsimp only
  split
  · refine (load_lockstep hR h 2).bind (fun lo _ _ h => ?_) fun _ _ _ h => h
    split
    · exact execute_lockstep hR h _
    · exact ⟨rfl, h⟩
  · split
    · exact execute_lockstep hR h _
    · exact ⟨rfl, h⟩

/-- **One step** is the same on both machines. -/
lemma step_lockstep (h : Lags R limit k x y) (pc : Addr) : Lockstep R limit k (step pc) x y := by
  refine Op.Sim.get_bind ?_
  rw [h.1, Cpu.host?_delayed]
  split
  · exact callHost_lockstep hR h _
  · exact executeAt_lockstep hR h

end Coupled

/-! ### Calls -/

/-- After `n` steps the call has not returned, and no step has failed. -/
def Unfinished : Nat → Addr → Machine μ → Prop
  | 0, _, _ => True
  | n + 1, pc, x => pc ≠ Cpu.returnAddress &&& ~~~1 ∧
    match step pc x with
    | .ok pc x => Unfinished n pc x
    | .error _ _ => False

/-- Runs in lockstep end alike, unless they run out of steps. -/
lemma run_lockstep (hR : Memory.Coupled R) (h : Lags R limit k x y) (pc : Addr) (n : Nat) :
    match run n pc x, run n pc y with
    | .ok v x', .ok w y' => v = w ∧ Lags R limit k x' y'
    | .error e x', .error e' y' => (e = e' ∨ Unfinished n pc x) ∧ Lags R limit k x' y'
    | _, _ => False := by
  induction n generalizing pc x y with
  | zero => exact ⟨.inr trivial, h⟩
  | succ n ih =>
    unfold run Unfinished
    split_ifs with hpc
    · exact ⟨by rw [h.1, Cpu.delayed_regs], h⟩
    · have hstep := step_lockstep hR h pc
      unfold Lockstep Op.Sim at hstep
      generalize step pc x = o at hstep ⊢
      generalize step pc y = o' at hstep ⊢
      rcases o with ⟨pc1, x1⟩ | ⟨e, x1⟩ <;> rcases o' with ⟨pc2, y1⟩ | ⟨e', y1⟩
      · obtain ⟨rfl, h⟩ := hstep
        simpa only [ne_eq, hpc, not_false_eq_true, true_and] using ih h pc1
      · exact hstep.elim
      · exact hstep.elim
      · exact ⟨.inl hstep.1, hstep.2⟩

lemma run_succ {n : Nat} {pc' : Addr} {x' : Machine μ} (hpc : pc ≠ Cpu.returnAddress &&& ~~~1)
    (hstep : step pc x = .ok pc' x') : run (n + 1) pc x = run n pc' x' := by
  conv_lhs => unfold run
  rw [if_neg hpc, hstep]

/-- The CPU at the start of a call. -/
def entered (base : Addr) (args : List UInt32) (c : Cpu) : Cpu :=
  { c with stats.calls := c.stats.calls + 1, regs := initialRegs c base args }

lemma call_eq {func base : Addr} {args : List UInt32} (hargs : args.length ≤ 4)
    (hthumb : func &&& 1 ≠ 0) (x : Machine μ) :
    call func base args x =
      run x.cpu.stepLimit (func &&& ~~~1) { x with cpu := entered base args x.cpu } := by
  have hthrow : ¬ 4 < args.length := by omega
  unfold call interwork
  rw [if_neg hthrow, if_neg hthumb]
  rfl

end Machine

/-! ### The address space -/

namespace Region

/-- The region without a record of what has been read. -/
def unread (r : Region) : Region :=
  { r with device.stats.reads := 0, device.stats.bytesRead := 0 }

/-- What has been read before makes no difference to what is read. -/
lemma read_unread {r r' : Region} (h : r.unread = r'.unread) (offset len : Nat) :
    Op.Sim (read offset len) (read offset len) r r' (fun _ s s' => s.unread = s'.unread)
      fun _ s s' => s.unread = s'.unread := by
  have hname : r.name = r'.name := congrArg (·.name) h
  have hpartition : r.partition = r'.partition := congrArg (·.partition) h
  have hcontents : r.device.contents = r'.device.contents := congrArg (·.device.contents) h
  unfold read
  refine Op.Sim.bind (S := fun _ s s' => s = r ∧ s' = r') (G := fun _ s s' => s.unread = s'.unread)
    ?_ ?_ fun _ _ _ h => h
  · unfold Op.Sim checkSpan
    rw [hname, hpartition]
    split_ifs
    · exact ⟨rfl, rfl, rfl⟩
    · exact ⟨rfl, h⟩
  rintro _ _ _ ⟨rfl, rfl⟩
  refine Op.Sim.get_bind ?_
  rw [hpartition]
  refine Op.sim_zoom.2 ?_
  unfold Op.Sim Nor.read Nor.size devicePart
  dsimp only
  rw [congrArg Array.size hcontents]
  split_ifs
  · exact ⟨rfl, h⟩
  · exact ⟨congrArg (Bytes.slice · _ _) hcontents, h⟩

lemma unread_read (r : Region) (offset len : Nat) :
    Op.Sat (read offset len) r (fun _ r' => r.unread = r'.unread) fun _ r' => r.unread = r'.unread := by
  unfold read
  refine Op.Sat.bind (checkSpan_sat _ _ r) ?_ fun _ r' h => by rw [h.1]
  rintro _ _ ⟨rfl, hle⟩
  refine Op.Sat.get_bind (Op.sat_zoom.2 ?_)
  unfold Op.Sat Nor.read devicePart
  dsimp only
  split_ifs
  · rfl
  · rfl

lemma offsetOf?_unread {r r' : Region} (h : r.unread = r'.unread) (addr : Addr) :
    r.offsetOf? addr = r'.offsetOf? addr := by
  have hpartition : r.partition = r'.partition := congrArg (·.partition) h
  rw [offsetOf?, offsetOf?, hpartition]

end Region

namespace Context

/-- The address space without a record of what has been read. -/
def unread (c : Context) : Context := { c with xip := c.xip.unread, iflash := c.iflash.unread }

lemma unread_eq_iff {c c' : Context} : c.unread = c'.unread ↔ c.xip.unread = c'.xip.unread ∧
    c.iflash.unread = c'.iflash.unread ∧ c.pool = c'.pool ∧ c.trampolines = c'.trampolines := by
  simp only [unread, mk.injEq]

/-- **The address space** is a memory in which reading makes no difference to anything but the record
of what has been read. -/
lemma steady : Memory.Steady fun c c' : Context => c.unread = c'.unread where
  equivalence := ⟨fun _ => rfl, Eq.symm, Eq.trans⟩
  read {c c'} addr len h := by
    obtain ⟨hxip, hiflash, hpool, htrampolines⟩ := unread_eq_iff.1 h
    change Op.Sim (Context.read addr len) (Context.read addr len) c c' _ _
    unfold Op.Sim Context.read
    rw [Region.offsetOf?_unread hxip, Region.offsetOf?_unread hiflash, hpool]
    rcases c'.xip.offsetOf? addr with _ | offset
    · rcases c'.iflash.offsetOf? addr with _ | offset
      · rcases c'.pool.span? addr len with _ | start
        · exact ⟨rfl, h⟩
        · exact ⟨rfl, h⟩
      · exact Op.sim_zoom.2 ((Region.read_unread hiflash offset len).mono
          (fun _ _ _ h => unread_eq_iff.2 ⟨hxip, h, hpool, htrampolines⟩)
          fun _ _ _ h => unread_eq_iff.2 ⟨hxip, h, hpool, htrampolines⟩)
    · exact Op.sim_zoom.2 ((Region.read_unread hxip offset len).mono
        (fun _ _ _ h => unread_eq_iff.2 ⟨h, hiflash, hpool, htrampolines⟩)
        fun _ _ _ h => unread_eq_iff.2 ⟨h, hiflash, hpool, htrampolines⟩)
  write {c c'} addr data h := by
    obtain ⟨hxip, hiflash, hpool, htrampolines⟩ := unread_eq_iff.1 h
    change Op.Sim (Context.write addr data) (Context.write addr data) c c' _ _
    unfold Op.Sim Context.write Region.contains
    rw [Region.offsetOf?_unread hxip, Region.offsetOf?_unread hiflash, hpool]
    split_ifs
    · exact ⟨rfl, h⟩
    · rcases c'.pool.span? addr data.size with _ | start
      · exact ⟨rfl, h⟩
      · exact ⟨rfl, unread_eq_iff.2 ⟨hxip, hiflash, rfl, htrampolines⟩⟩
  kept c addr len := by
    change Op.Sat (Context.read addr len) c _ _
    unfold Op.Sat Context.read
    rcases c.xip.offsetOf? addr with _ | offset
    · rcases c.iflash.offsetOf? addr with _ | offset
      · rcases c.pool.span? addr len with _ | start
        · rfl
        · rfl
      · exact Op.sat_zoom.2 ((Region.unread_read c.iflash offset len).mono
          (fun _ _ h => unread_eq_iff.2 ⟨rfl, h, rfl, rfl⟩)
          fun _ _ h => unread_eq_iff.2 ⟨rfl, h, rfl, rfl⟩)
    · exact Op.sat_zoom.2 ((Region.unread_read c.xip offset len).mono
        (fun _ _ h => unread_eq_iff.2 ⟨h, rfl, rfl, rfl⟩)
        fun _ _ h => unread_eq_iff.2 ⟨h, rfl, rfl, rfl⟩)

end Context

end FlashLink
