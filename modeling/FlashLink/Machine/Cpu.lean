import FlashLink.Machine.Cache
import FlashLink.Machine.Host
import FlashLink.Machine.Instruction

/-!
A Thumb interpreter for running loaded modules. It has a private stack window and a window of stubs,
one word each, behind which host functions stand; all other addresses are those of a memory.

A call runs until the link register it was given is branched to, for at most a set number of steps.
-/

namespace FlashLink

structure CpuStats where
  calls : Nat
  instructions : Nat
  hostCalls : Nat
  dataFlushes : Nat
  invalidations : Nat
deriving DecidableEq

structure Cpu where
  /-- The register file; the program counter is kept apart and its register stays zero. -/
  regs : Vector UInt32 16
  stack : Bytes
  stackBase : Addr
  hostBase : Addr
  hosts : Array HostFunction
  stepLimit : Nat
  stats : CpuStats

namespace Cpu

/-- Branching here, Thumb bit included, ends a call. -/
def returnAddress : Addr := 0xffffffff

def create : Cpu :=
  { regs := Vector.replicate 16 0, stack := .zeros 0x1000, stackBase := 0x20030000,
    hostBase := 0x0ff00000, hosts := #[], stepLimit := 1000000, stats := ⟨0, 0, 0, 0, 0⟩ }

/-- Moves the stack window, whose size is a multiple of eight. -/
def withStack (c : Cpu) (base : Addr) (size : Nat) : Cpu :=
  { c with stackBase := base, stack := .zeros (size / 8 * 8) }

/-- Moves the stub window, which is word aligned. -/
def withHostBase (c : Cpu) (base : Addr) : Cpu := { c with hostBase := base &&& ~~~3 }

def withStepLimit (c : Cpu) (limit : Nat) : Cpu := { c with stepLimit := limit }

/-- Adds a host function, and answers the address it is called at. -/
def register (c : Cpu) (f : HostFunction) : Except Error (Addr × Cpu) :=
  let offset := 4 * c.hosts.size
  if c.hostBase.toNat + offset < UInt32.size then
    .ok ((c.hostBase + UInt32.ofNat offset) ||| 1, { c with hosts := c.hosts.push f })
  else .error (.breach .stubWindow)

instance : CacheControl Cpu where
  flushData _ _ c := { c with stats.dataFlushes := c.stats.dataFlushes + 1 }
  invalidateInstructions c := { c with stats.invalidations := c.stats.invalidations + 1 }

/-- The host function whose stub is at an address. -/
def host? (c : Cpu) (pc : Addr) : Option HostFunction :=
  let offset := (pc - c.hostBase).toNat
  if c.hostBase ≤ pc && offset % 4 == 0 then c.hosts[offset / 4]? else none

/-- Stack offset of `len` bytes at an address, if they all lie in the stack window. -/
def stackSpan? (c : Cpu) (addr : Addr) (len : Nat) : Option Nat :=
  let start := (addr - c.stackBase).toNat
  if c.stackBase ≤ addr && start + len ≤ c.stack.size then some start else none

/-- A register as the instruction at `pc` sees it. -/
def reg (c : Cpu) (r : Reg) (pc : Addr) : UInt32 :=
  if r = Reg.pc then pc + 4 else c.regs[r]

def setReg (c : Cpu) (r : Reg) (v : UInt32) : Cpu := { c with regs := c.regs.set r v }

@[simp] theorem setReg_self (c : Cpu) (r : Reg) (v : UInt32) : (c.setReg r v).regs[r] = v :=
  Vector.getElem_set_self ..

theorem setReg_other (c : Cpu) {r q : Reg} (h : r ≠ q) (v : UInt32) :
    (c.setReg r v).regs[q] = c.regs[q] :=
  Vector.getElem_set_ne r.isLt q.isLt (Fin.val_ne_of_ne h)

end Cpu

/-- A CPU and the memory it runs against. -/
structure Machine (μ : Type) where
  cpu : Cpu
  mem : μ

namespace Machine

variable {μ : Type}

def memPart : Part (Machine μ) μ := fun m =>
  match m with
  | ⟨cpu, mem⟩ => (mem, fun mem => ⟨cpu, mem⟩)

def setReg (r : Reg) (v : UInt32) : Op (Machine μ) Unit :=
  modify fun m => { m with cpu := m.cpu.setReg r v }

/-- Where a branch that may change the instruction set goes. Only Thumb code can be run. -/
def interwork (target : Addr) : Op (Machine μ) Addr :=
  if target &&& 1 = 0 then throw (.execution (.leavesThumb target)) else return target &&& ~~~1

variable [Memory μ]

/-- Loads `len` bytes, at most a word. -/
def load (addr : Addr) (len : Nat) : Op (Machine μ) UInt32 := fun m =>
  match m.cpu.stackSpan? addr len with
  | some start => .ok ((m.cpu.stack.slice start len).u32 0) m
  | none =>
    match Op.zoom memPart (Memory.read addr len) m with
    | .ok b m => .ok (b.u32 0) m
    | .error e m => .error e m

def store (addr : Addr) (value : UInt32) : Op (Machine μ) Unit := fun m =>
  match m.cpu.stackSpan? addr 4 with
  | some start =>
    .ok () { m with cpu.stack := m.cpu.stack.overwrite start (Bytes.ofU32 value) }
  | none => Op.zoom memPart (Memory.write addr (Bytes.ofU32 value)) m

/-- The low registers of a mask, lowest first. -/
def lowRegs (mask : UInt16) : List Reg :=
  (List.range 8).filterMap fun i =>
    if mask.toNat.testBit i then some (Reg.ofNat i) else none

/-- Stores registers at ascending addresses. -/
def storeAll : List Reg → Addr → Op (Machine μ) Unit
  | [], _ => return ()
  | r :: rs, addr => do
    store addr (← get).cpu.regs[r]
    storeAll rs (addr + 4)

/-- Loads registers from ascending addresses, and answers the address after the last one. -/
def loadAll : List Reg → Addr → Op (Machine μ) Addr
  | [], addr => return addr
  | r :: rs, addr => do
    setReg r (← load addr 4)
    loadAll rs (addr + 4)

/-- Executes the instruction at `pc`, where `next` is the address after it, and answers where to go
on. -/
def execute (pc next : Addr) (i : Instruction) : Op (Machine μ) Addr := do
  let c := (← get).cpu
  match i with
  | .shiftLeft rd rm n => setReg rd (c.regs[rm] <<< n); return next
  | .add rd rn rm => setReg rd (c.regs[rn] + c.regs[rm]); return next
  | .sub rd rn rm => setReg rd (c.regs[rn] - c.regs[rm]); return next
  | .addImm rd rn imm => setReg rd (c.regs[rn] + imm); return next
  | .subImm rd rn imm => setReg rd (c.regs[rn] - imm); return next
  | .moveImm rd imm => setReg rd imm; return next
  | .addAny rd rm => write rd (c.reg rd pc + c.reg rm pc)
  | .move rd rm => write rd (c.reg rm pc)
  | .jump rm => interwork (c.reg rm pc)
  | .call rm =>
    setReg Reg.lr (next ||| 1)
    interwork (c.reg rm pc)
  | .loadLiteral rt offset => loadTo rt (((pc + 4) &&& ~~~3) + offset)
  | .load rt rn offset => loadTo rt (c.regs[rn] + offset)
  | .store rt rn offset =>
    store (c.regs[rn] + offset) (c.reg rt pc)
    return next
  | .moveStack offset => setReg Reg.sp (c.regs[Reg.sp] + offset); return next
  | .push mask link =>
    let rs := lowRegs mask ++ if link then [Reg.lr] else []
    let addr := c.regs[Reg.sp] - UInt32.ofNat (4 * rs.length)
    setReg Reg.sp addr
    storeAll rs addr
    return next
  | .pop mask ret =>
    let addr ← loadAll (lowRegs mask) c.regs[Reg.sp]
    if ret then
      let target ← load addr 4
      setReg Reg.sp (addr + 4)
      interwork target
    else
      setReg Reg.sp addr
      return next
  | .nop => return next
  | .branch offset => return pc + 4 + offset
  | .branchLink offset =>
    setReg Reg.lr (next ||| 1)
    return pc + 4 + offset
where
  /-- Writes any register; writing the program counter jumps. -/
  write (rd : Reg) (v : UInt32) : Op (Machine μ) Addr := do
    if rd = Reg.pc then return v &&& ~~~1
    setReg rd v
    return next
  /-- Loads a word into any register; loading the program counter may change the instruction set. -/
  loadTo (rt : Reg) (addr : Addr) : Op (Machine μ) Addr := do
    let v ← load addr 4
    if rt = Reg.pc then interwork v
    else
      setReg rt v
      return next

/-- Runs a host function, which returns to the link register. -/
def callHost (f : HostFunction) : Op (Machine μ) Addr := do
  modify fun m => { m with cpu.stats.hostCalls := m.cpu.stats.hostCalls + 1 }
  let c := (← get).cpu
  let v ← Op.zoom memPart (f ⟨c.regs[0], c.regs[1], c.regs[2], c.regs[3], c.regs[Reg.base]⟩).run
  setReg Reg.result v
  interwork (← get).cpu.regs[Reg.lr]

/-- Fetches and executes the instruction at `pc`. -/
def executeAt (pc : Addr) : Op (Machine μ) Addr := do
  modify fun m => { m with cpu.stats.instructions := m.cpu.stats.instructions + 1 }
  let hi := (← load pc 2).toUInt16
  if Instruction.isWide hi then
    let lo := (← load (pc + 2) 2).toUInt16
    match Instruction.decodeWide hi lo with
    | some i => execute pc (pc + 4) i
    | none => throw (.execution (.instruction (hi.toUInt32 <<< 16 ||| lo.toUInt32) pc))
  else
    match Instruction.decodeNarrow hi with
    | some i => execute pc (pc + 2) i
    | none => throw (.execution (.instruction hi.toUInt32 pc))

/-- One step from `pc`: a host function if its stub is there, else an instruction. -/
def step (pc : Addr) : Op (Machine μ) Addr := do
  match (← get).cpu.host? pc with
  | some f => callHost f
  | none => executeAt pc

/-- Steps from `pc` until the call returns, at most `n` times. -/
def run : Nat → Addr → Op (Machine μ) UInt32
  | 0, pc => fun m => .error (.execution (.noReturn m.cpu.stepLimit pc)) m
  | n + 1, pc => fun m =>
    if pc = Cpu.returnAddress &&& ~~~1 then .ok m.cpu.regs[0] m
    else
      match step pc m with
      | .ok pc m => run n pc m
      | .error e m => .error e m

/-- The registers at the start of a call. -/
def initialRegs (c : Cpu) (base : Addr) (args : List UInt32) : Vector UInt32 16 :=
  (Vector.ofFn fun i : Fin 16 => args.getD i.val 0)
    |>.set Reg.base base
    |>.set Reg.sp (c.stackBase + UInt32.ofNat c.stack.size)
    |>.set Reg.lr Cpu.returnAddress

theorem initialRegs_lr (c : Cpu) (base : Addr) (args : List UInt32) :
    (initialRegs c base args)[Reg.lr] = Cpu.returnAddress :=
  Vector.getElem_set_self ..

theorem initialRegs_result (c : Cpu) (base : Addr) (args : List UInt32) :
    (initialRegs c base args)[Reg.result] = args.getD 0 0 := by
  have hlr : (Reg.lr : Nat) = 14 := rfl
  have hsp : (Reg.sp : Nat) = 13 := rfl
  have hbase : (Reg.base : Nat) = 9 := rfl
  have hresult : (Reg.result : Nat) = 0 := rfl
  unfold initialRegs
  simp [hlr, hsp, hbase, hresult]

/-- Calls the Thumb function at `func` with `base` in `r9` and up to four arguments, and answers
`r0`. -/
def call (func base : Addr) (args : List UInt32) : Op (Machine μ) UInt32 := do
  if 4 < args.length then throw (.execution .tooManyArguments)
  modify fun m =>
    { m with
      cpu.stats.calls := m.cpu.stats.calls + 1
      cpu.regs := initialRegs m.cpu base args }
  let pc ← interwork func
  run (← get).cpu.stepLimit pc

end Machine

end FlashLink
