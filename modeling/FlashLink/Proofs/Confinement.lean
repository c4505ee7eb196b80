import FlashLink.Proofs.Executing

/-!
Where running code can write. What a step stores is read off the machine before it: the words of the
instruction at the program counter, or what the host function behind a stub writes. Flash, the allocators
and the trampolines are out of reach of all of it, and of the pool only those bytes change that a store
covers which lies in the pool as a whole.

Host functions may remember earlier calls and act differently every time. A run among such functions has
an array of them for each iteration. The interpreter's own run is the case in which all arrays are the same.
-/

namespace FlashLink

/-! ### Stores -/

/-- Bytes that are to be stored at an address. -/
structure MemoryWrite where
  addr : Addr
  data : Bytes
deriving DecidableEq

namespace Pool

/-- The store lies in the pool as a whole, and byte `i` of the pool is one of its bytes. -/
def HitBy (p : Pool) (w : MemoryWrite) (i : Nat) : Prop :=
  ∃ start, w.addr.toNat = p.base.toNat + start ∧ start + w.data.size ≤ p.mem.size ∧
    start ≤ i ∧ i < start + w.data.size

/-- Byte `i` of the pool is covered by a store. -/
def Hit (p : Pool) (stores : List MemoryWrite) (i : Nat) : Prop := ∃ w ∈ stores, p.HitBy w i

variable {p p' : Pool} {w : MemoryWrite} {ws : List MemoryWrite} {i : Nat} {J : Nat → Prop}

lemma HitBy.cons (h : p.HitBy w i) : p.Hit (w :: ws) i := ⟨w, List.mem_cons_self, h⟩

lemma Hit.cons (h : p.Hit ws i) : p.Hit (w :: ws) i := by
  obtain ⟨v, hv, hi⟩ := h
  exact ⟨v, List.mem_cons_of_mem _ hv, hi⟩

/-- Where the pool is does not depend on its contents. -/
lemma Changed.hitBy_iff (h : Changed J p p') : p'.HitBy w i ↔ p.HitBy w i := by
  unfold HitBy
  rw [h.base_eq, h.size_eq]

lemma Changed.hit_iff (h : Changed J p p') : p'.Hit ws i ↔ p.Hit ws i := by
  unfold Hit
  simp only [h.hitBy_iff]

lemma hitBy_of_span {addr : Addr} {data : Bytes} {start : Nat} (h : p.span? addr data.size = some start)
    (h1 : start ≤ i) (h2 : i < start + data.size) : p.HitBy ⟨addr, data⟩ i := by
  unfold span? offsetOf? at h
  by_cases hcovers : covers p.base p.capacity addr
  · rw [if_pos hcovers] at h
    dsimp only at h
    split_ifs at h with hfits
    obtain rfl := Option.some.inj h
    rw [covers_iff] at hcovers
    have hsub := UInt32.toNat_sub_of_le _ _ (UInt32.le_iff_toNat_le.2 hcovers.1)
    exact ⟨_, by dsimp only; omega, hfits, h1, h2⟩
  · rw [if_neg hcovers] at h
    cases h

end Pool

/-! ### The address space -/

namespace Context

/-- Pool bytes in `F` may have changed, and counters of reads, and nothing else. -/
structure Stored (F : Nat → Prop) (c c' : Context) : Prop where
  rest_eq : c'.unread = { c.unread with pool := c'.pool }
  pool : Pool.Changed F c.pool c'.pool

namespace Stored

variable {F G : Nat → Prop} {c c' c'' : Context}

lemma refl (F : Nat → Prop) (c : Context) : Stored F c c := ⟨rfl, .refl _⟩

lemma trans (h : Stored F c c') (h' : Stored F c' c'') : Stored F c c'' :=
  ⟨by rw [h'.rest_eq, h.rest_eq], h.pool.trans h'.pool⟩

lemma mono (h : Stored F c c') (hF : ∀ i, F i → G i) : Stored G c c' := ⟨h.rest_eq, h.pool.mono hF⟩

/-- What is stored later is stored. -/
lemma sat {α : Type} {x : Op Context α} (h : Stored F c c')
    (hx : Op.Sat x c' (fun _ => Stored F c') fun _ => Stored F c') :
    Op.Sat x c' (fun _ => Stored F c) fun _ => Stored F c :=
  hx.mono (fun _ _ hx => h.trans hx) fun _ _ hx => h.trans hx

end Stored

lemma stored_of_unread {c c' : Context} (F : Nat → Prop) (h : c.unread = c'.unread) : Stored F c c' := by
  obtain ⟨-, -, hpool, -⟩ := unread_eq_iff.1 h
  exact ⟨by rw [← hpool]; exact h.symm, hpool ▸ .refl _⟩

lemma read_stored (F : Nat → Prop) (addr : Addr) (len : Nat) (c : Context) :
    Op.Sat (Memory.read addr len) c (fun _ => Stored F c) fun _ => Stored F c :=
  (steady.kept c addr len).mono (fun _ _ h => stored_of_unread F h) fun _ _ h => stored_of_unread F h

/-- Flash is not written, and the pool where it covers all the bytes. -/
lemma write_stored {F : Nat → Prop} {addr : Addr} {data : Bytes} {c : Context}
    (hF : ∀ i, c.pool.HitBy ⟨addr, data⟩ i → F i) :
    Op.Sat (Memory.write addr data) c (fun _ => Stored F c) fun _ => Stored F c := by
  change Op.Sat (Context.write addr data) c _ _
  unfold Op.Sat Context.write
  split_ifs
  · exact .refl F c
  · rcases hspan : c.pool.span? addr data.size with _ | start
    · exact .refl F c
    · exact ⟨rfl, Pool.changed_overwrite fun i h1 h2 => hF i (Pool.hitBy_of_span hspan h1 h2)⟩

end Context

/-! ### What is stored -/

/-- What a host function writes, as far as it gets. -/
def HostProgram.stores {μ : Type} [Memory μ] : HostProgram → μ → List MemoryWrite
  | done _, _ => []
  | fail _, _ => []
  | read addr len next, m =>
    match Memory.read addr len m with
    | .ok b m => (next (.ok b)).stores m
    | .error e m => (next (.error e)).stores m
  | write addr data next, m =>
    ⟨addr, data⟩ ::
      match Memory.write addr data m with
      | .ok u m => (next (.ok u)).stores m
      | .error e m => (next (.error e)).stores m

namespace Machine

section Stores

variable {μ : Type} [Memory μ]

/-- The words of registers that are stored at ascending addresses, up to one that cannot be stored. -/
def pushed : List Reg → Addr → Machine μ → List MemoryWrite
  | [], _, _ => []
  | r :: rs, addr, x =>
    ⟨addr, Bytes.ofU32 (x.cpu.regs.get r)⟩ ::
      match store addr (x.cpu.regs.get r) x with
      | .ok _ y => pushed rs (addr + 4) y
      | .error _ _ => []

/-- What the instruction at `pc` stores. -/
def storesOf (pc : Addr) (x : Machine μ) : Instruction → List MemoryWrite
  | .store rt rn offset => [⟨x.cpu.regs.get rn + offset, Bytes.ofU32 (x.cpu.reg rt pc)⟩]
  | .push mask link =>
    let rs := lowRegs mask ++ if link then [Reg.lr] else []
    let addr := x.cpu.regs.get Reg.sp - UInt32.ofNat (4 * rs.length)
    pushed rs addr { x with cpu := x.cpu.setReg Reg.sp addr }
  | _ => []

/-- The instruction at `pc`, and the address after it. -/
def fetch (pc : Addr) : Op (Machine μ) (Instruction × Addr) := do
  modify fun m => { m with cpu.stats.instructions := m.cpu.stats.instructions + 1 }
  let hi := (← load pc 2).toUInt16
  if Instruction.isWide hi then
    let lo := (← load (pc + 2) 2).toUInt16
    match Instruction.decodeWide hi lo with
    | some i => return (i, pc + 4)
    | none => throw (.execution (.instruction (hi.toUInt32 <<< 16 ||| lo.toUInt32) pc))
  else
    match Instruction.decodeNarrow hi with
    | some i => return (i, pc + 2)
    | none => throw (.execution (.instruction hi.toUInt32 pc))

lemma executeAt_eq (pc : Addr) :
    (executeAt pc : Op (Machine μ) Addr) = fetch pc >>= fun (i, next) => execute pc next i := by
  unfold executeAt fetch
  rw [bind_assoc]
  refine bind_congr fun _ => ?_
  rw [bind_assoc]
  refine bind_congr fun hi => ?_
  dsimp only
  split_ifs
  · rw [bind_assoc]
    refine bind_congr fun lo => ?_
    rcases Instruction.decodeWide hi.toUInt16 lo.toUInt16 with _ | i
    · rfl
    · rfl
  · rcases Instruction.decodeNarrow hi.toUInt16 with _ | i
    · rfl
    · rfl

/-- What a host function is called with. -/
def hostCall (c : Cpu) : HostCall :=
  let arg (i : Nat) : UInt32 := c.regs.get (Reg.ofNat i)
  ⟨arg 0, arg 1, arg 2, arg 3, c.regs.get Reg.base⟩

/-- What the step from `pc` stores. -/
def stores (pc : Addr) (x : Machine μ) : List MemoryWrite :=
  match x.cpu.host? pc with
  | some f => (f (hostCall x.cpu)).stores x.mem
  | none =>
    match fetch pc x with
    | .ok (i, _) y => y.storesOf pc i
    | .error _ _ => []

end Stores

/-! ### One step -/

/-- Pool bytes in `F` may have changed, the CPU's registers, stack and counters, and nothing else. -/
structure Moves (F : Nat → Prop) (x y : Machine Context) : Prop where
  mem : Context.Stored F x.mem y.mem
  cpu : x.cpu.Kin y.cpu

/-- However it ends, the action only moves the machine. -/
abbrev Confined {α : Type} (F : Nat → Prop) (act : Op (Machine Context) α) (x : Machine Context) : Prop :=
  Op.Sat act x (fun _ => Moves F x) fun _ => Moves F x

variable {F G : Nat → Prop} {x y z : Machine Context} {pc next addr : Addr}

namespace Moves

lemma refl (F : Nat → Prop) (x : Machine Context) : Moves F x x := ⟨.refl F _, .refl _⟩

lemma trans (h : Moves F x y) (h' : Moves F y z) : Moves F x z :=
  ⟨h.mem.trans h'.mem, h.cpu.trans h'.cpu⟩

lemma mono (h : Moves F x y) (hF : ∀ i, F i → G i) : Moves G x y := ⟨h.mem.mono hF, h.cpu⟩

/-- Where the pool is stays the same. -/
lemma hit_iff (h : Moves F x y) {ws : List MemoryWrite} {i : Nat} :
    y.mem.pool.Hit ws i ↔ x.mem.pool.Hit ws i :=
  h.mem.pool.hit_iff

end Moves

section Bind

variable {α β : Type} {act : Op (Machine Context) α} {f : α → Op (Machine Context) β}

/-- The second action is confined where the first one has led. -/
lemma Confined.bind_run (h : Confined F act x)
    (hf : ∀ a y, act x = .ok a y → Moves F x y → Confined F (f a) y) : Confined F (act >>= f) x := by
  have hact : Op.Sat act x (fun a y => act x = .ok a y ∧ Moves F x y) fun _ => Moves F x := by
    unfold Confined at h
    unfold Op.Sat at h ⊢
    generalize act x = o at h ⊢
    rcases o with ⟨a, y⟩ | ⟨e, y⟩
    · exact ⟨rfl, h⟩
    · exact h
  refine hact.bind (fun a y hy => ?_) fun _ _ h => h
  exact (hf a y hy.1 hy.2).mono (fun _ _ h => hy.2.trans h) fun _ _ h => hy.2.trans h

lemma Confined.bind (h : Confined F act x) (hf : ∀ a y, Moves F x y → Confined F (f a) y) :
    Confined F (act >>= f) x := h.bind_run fun a y _ hy => hf a y hy

lemma Confined.mono (h : Confined F act x) (hF : ∀ i, F i → G i) : Confined G act x :=
  Op.Sat.mono h (fun _ _ h => h.mono hF) fun _ _ h => h.mono hF

end Bind

lemma setReg_confined (F : Nat → Prop) (r : Reg) (v : UInt32) (x : Machine Context) :
    Confined F (setReg r v) x := ⟨.refl F _, Cpu.kin_setReg ..⟩

lemma interwork_confined (F : Nat → Prop) (target : Addr) (x : Machine Context) :
    Confined F (interwork target) x := by
  unfold interwork
  split_ifs
  · exact .refl F x
  · exact .refl F x

lemma load_confined (F : Nat → Prop) (addr : Addr) (len : Nat) (x : Machine Context) :
    Confined F (load addr len) x := by
  have hread := Context.read_stored F addr len x.mem
  unfold Confined Op.Sat load Op.zoom memPart
  unfold Op.Sat at hread
  rcases x.cpu.stackSpan? addr len with _ | start
  · dsimp only
    generalize Memory.read addr len x.mem = o at hread ⊢
    rcases o with ⟨b, m⟩ | ⟨e, m⟩
    · exact ⟨hread, .refl _⟩
    · exact ⟨hread, .refl _⟩
  · exact .refl F x

lemma loadAll_confined (F : Nat → Prop) (rs : List Reg) (addr : Addr) (x : Machine Context) :
    Confined F (loadAll rs addr) x := by
  induction rs generalizing addr x with
  | nil => exact .refl F x
  | cons r rs ih =>
    exact (load_confined F addr 4 x).bind fun v y _ =>
      (setReg_confined F r v y).bind fun _ z _ => ih (addr + 4) z

lemma store_confined (addr : Addr) (v : UInt32) (x : Machine Context)
    (hF : ∀ i, x.mem.pool.HitBy ⟨addr, Bytes.ofU32 v⟩ i → F i) : Confined F (store addr v) x := by
  have hwrite := Context.write_stored hF
  unfold Confined Op.Sat store Op.zoom memPart
  unfold Op.Sat at hwrite
  rcases x.cpu.stackSpan? addr 4 with _ | start
  · dsimp only
    generalize Memory.write addr (Bytes.ofU32 v) x.mem = o at hwrite ⊢
    rcases o with ⟨u, m⟩ | ⟨e, m⟩
    · exact ⟨hwrite, .refl _⟩
    · exact ⟨hwrite, .refl _⟩
  · exact ⟨.refl F _, Bytes.size_overwrite .., rfl, rfl, rfl, rfl⟩

/-- A word that cannot be stored is the last one. -/
lemma storeAll_confined (rs : List Reg) (addr : Addr) (x : Machine Context) :
    Confined (x.mem.pool.Hit (pushed rs addr x)) (storeAll rs addr) x := by
  induction rs generalizing addr x with
  | nil => exact .refl _ x
  | cons r rs ih =>
    refine Op.Sat.get_bind (Confined.bind_run ?_ fun _ y hstore hy => (ih (addr + 4) y).mono fun i hi => ?_)
    · exact store_confined addr _ x fun i hi => hi.cons
    · change store addr (x.cpu.regs.get r) x = .ok _ y at hstore
      refine Pool.Hit.cons ?_
      rw [hstore]
      exact hy.hit_iff.1 hi

lemma execute_confined (next : Addr) (i : Instruction) (x : Machine Context) :
    Confined (x.mem.pool.Hit (x.storesOf pc i)) (execute pc next i) x := by
  have hset : ∀ F r v (a : Addr) y, Confined F (setReg r v >>= fun _ => pure a) y :=
    fun F r v _ y => (setReg_confined F r v y).bind fun _ z _ => .refl F z
  have hto : ∀ F rt addr y, Confined F (execute.loadTo next rt addr) y := by
    intro F rt addr y
    refine (load_confined F addr 4 y).bind fun v z _ => ?_
    split_ifs
    · exact interwork_confined F v z
    · exact hset F rt v next z
  have hwrite : ∀ F rd v y, Confined F (execute.write next rd v) y := by
    intro F rd v y
    unfold execute.write
    split_ifs
    · exact .refl F y
    · exact hset F rd v next y
  unfold execute
  refine Op.Sat.get_bind ?_
  cases i with
  | store rt rn offset =>
    refine (store_confined _ _ x fun j hj => hj.cons).bind fun _ y _ => ?_
    exact .refl _ y
  | push mask link =>
    refine (setReg_confined _ _ _ x).bind_run fun _ y hset hy => ?_
    cases hset
    exact (storeAll_confined _ _ _).bind fun _ z _ => .refl _ z
  | pop mask ret =>
    refine (loadAll_confined _ _ _ x).bind fun addr y _ => ?_
    cases ret
    · exact hset _ _ _ _ y
    · refine (load_confined _ addr 4 y).bind fun target z _ => ?_
      exact (setReg_confined _ _ _ z).bind fun _ z' _ => interwork_confined _ target z'
  | addAny rd rm => exact hwrite _ _ _ x
  | move rd rm => exact hwrite _ _ _ x
  | jump rm => exact interwork_confined _ _ x
  | call rm => exact (setReg_confined _ _ _ x).bind fun _ y _ => interwork_confined _ _ y
  | loadLiteral rt offset => exact hto _ _ _ x
  | load rt rn offset => exact hto _ _ _ x
  | nop => exact .refl _ x
  | branch offset => exact .refl _ x
  | _ => exact hset _ _ _ _ x

/-- Fetching only counts. -/
lemma fetch_confined (F : Nat → Prop) (pc : Addr) (x : Machine Context) : Confined F (fetch pc) x := by
  have hcount : Confined F
      (modify fun m : Machine Context =>
        { m with cpu.stats.instructions := m.cpu.stats.instructions + 1 }) x :=
    ⟨.refl F _, x.cpu.kin_counted⟩
  unfold fetch
  refine hcount.bind fun _ y _ => (load_confined F pc 2 y).bind fun hi z _ => ?_
  dsimp only
  split_ifs
  · refine (load_confined F (pc + 2) 2 z).bind fun lo z' _ => ?_
    rcases Instruction.decodeWide hi.toUInt16 lo.toUInt16 with _ | i
    · exact .refl F z'
    · exact .refl F z'
  · rcases Instruction.decodeNarrow hi.toUInt16 with _ | i
    · exact .refl F z
    · exact .refl F z

lemma program_stored {p : HostProgram} {m : Context} (hF : ∀ i, m.pool.Hit (p.stores m) i → F i) :
    Op.Sat p.run m (fun _ => Context.Stored F m) fun _ => Context.Stored F m := by
  induction p generalizing m with
  | done v => exact .refl F m
  | fail e => exact .refl F m
  | read addr len next ih =>
    have hread := Context.read_stored F addr len m
    unfold HostProgram.stores at hF
    unfold Op.Sat at hread ih
    unfold Op.Sat HostProgram.run
    dsimp only
    rcases hrun : Memory.read addr len m with ⟨b, m'⟩ | ⟨e, m'⟩ <;> rw [hrun] at hread hF
    · exact hread.sat (ih _ fun i hi => hF i (hread.pool.hit_iff.1 hi))
    · exact hread.sat (ih _ fun i hi => hF i (hread.pool.hit_iff.1 hi))
  | write addr data next ih =>
    unfold HostProgram.stores at hF
    have hwrite := Context.write_stored fun i hi => hF i hi.cons
    have hlater : ∀ i, m.pool.Hit _ i → F i := fun i hi => hF i hi.cons
    unfold Op.Sat at hwrite ih
    unfold Op.Sat HostProgram.run
    dsimp only
    rcases hrun : Memory.write addr data m with ⟨u, m'⟩ | ⟨e, m'⟩ <;> rw [hrun] at hwrite hlater
    · exact hwrite.sat (ih _ fun i hi => hlater i (hwrite.pool.hit_iff.1 hi))
    · exact hwrite.sat (ih _ fun i hi => hlater i (hwrite.pool.hit_iff.1 hi))

/-- **A host function** writes through the memory it is given, and nowhere else. -/
lemma callHost_confined (f : HostFunction) (x : Machine Context) :
    Confined (x.mem.pool.Hit ((f (hostCall x.cpu)).stores x.mem)) (callHost f) x := by
  have hcount : Confined (x.mem.pool.Hit ((f (hostCall x.cpu)).stores x.mem))
      (modify fun m : Machine Context => { m with cpu.stats.hostCalls := m.cpu.stats.hostCalls + 1 }) x :=
    ⟨.refl _ _, rfl, rfl, rfl, rfl, rfl⟩
  unfold callHost
  refine hcount.bind_run fun _ y hcounted _ => Op.Sat.get_bind ?_
  cases hcounted
  refine Confined.bind ?_ fun v z _ => ?_
  · exact Op.sat_zoom.2 ((program_stored fun i hi => hi).mono (fun _ _ h => ⟨h, .refl _⟩)
      fun _ _ h => ⟨h, .refl _⟩)
  · exact (setReg_confined _ _ v z).bind fun _ z' _ => Op.Sat.get_bind (interwork_confined _ _ z')

/-- **One step** writes to the pool only what it stores there. -/
lemma step_confined (pc : Addr) (x : Machine Context) :
    Confined (x.mem.pool.Hit (stores pc x)) (step pc) x := by
  unfold step stores
  refine Op.Sat.get_bind ?_
  rcases x.cpu.host? pc with _ | f
  · dsimp only
    rw [executeAt_eq]
    refine (fetch_confined _ pc x).bind_run fun fetched y hfetch hy => ?_
    obtain ⟨i, next⟩ := fetched
    rw [hfetch]
    exact (execute_confined next i y).mono fun j hj => hy.hit_iff.1 hj
  · exact callHost_confined f x

/-! ### Runs -/

section Runs

variable {μ : Type} [Memory μ]

/-- The machine with other host functions behind its stubs. -/
def among (hosts : Array HostFunction) (x : Machine μ) : Machine μ := { x with cpu.hosts := hosts }

/-- As `run`, where the next iteration is the one with number `k` and finds the host functions `hosts k`. -/
def runAmong (hosts : Nat → Array HostFunction) : Nat → Nat → Addr → Op (Machine μ) UInt32
  | _, 0, pc => fun x => .error (.execution (.noReturn x.cpu.stepLimit pc)) x
  | k, n + 1, pc => fun x =>
    if pc = Cpu.returnAddress &&& ~~~1 then .ok (x.cpu.regs.get Reg.result) x
    else
      match step pc (x.among (hosts k)) with
      | .ok pc x => runAmong hosts (k + 1) n pc x
      | .error e x => .error e x

/-- As `call`, among host functions that may act differently in every iteration. -/
def callAmong (hosts : Nat → Array HostFunction) (func base : Addr) (args : List UInt32) :
    Op (Machine μ) UInt32 := do
  if 4 < args.length then throw (.execution .tooManyArguments)
  modify fun x =>
    { x with
      cpu.stats.calls := x.cpu.stats.calls + 1
      cpu.regs := initialRegs x.cpu base args }
  let pc ← interwork func
  runAmong hosts 0 (← get).cpu.stepLimit pc

/-- After `k` iterations the run is at `pc`, in this machine. -/
inductive Reaches (hosts : Nat → Array HostFunction) (start : Addr) (x : Machine μ) :
    Nat → Addr → Machine μ → Prop
  | start : Reaches hosts start x 0 start x
  | next {k : Nat} {pc pc' : Addr} {y z : Machine μ} : Reaches hosts start x k pc y →
      pc ≠ Cpu.returnAddress &&& ~~~1 → step pc (y.among (hosts k)) = .ok pc' z →
      Reaches hosts start x (k + 1) pc' z

/-- The step of iteration `k` stores this. -/
def Executes (hosts : Nat → Array HostFunction) (start : Addr) (x : Machine μ) (k : Nat)
    (w : MemoryWrite) : Prop :=
  ∃ pc y, Reaches hosts start x k pc y ∧ pc ≠ Cpu.returnAddress &&& ~~~1 ∧
    w ∈ stores pc (y.among (hosts k))

/-- How a run ends that is given `limit` iterations: it returns, it fails, or it has gone through them all. -/
inductive Ends (hosts : Nat → Array HostFunction) (limit : Nat) (start : Addr) (x : Machine μ) :
    EStateM.Result Error (Machine μ) UInt32 → Prop
  | returned {k : Nat} {y : Machine μ} : k < limit →
      Reaches hosts start x k (Cpu.returnAddress &&& ~~~1) y →
      Ends hosts limit start x (.ok (y.cpu.regs.get Reg.result) y)
  | failed {k : Nat} {pc : Addr} {y z : Machine μ} {e : Error} : k < limit →
      Reaches hosts start x k pc y → pc ≠ Cpu.returnAddress &&& ~~~1 →
      step pc (y.among (hosts k)) = .error e z → Ends hosts limit start x (.error e z)
  | exhausted {pc : Addr} {y : Machine μ} : Reaches hosts start x limit pc y →
      Ends hosts limit start x (.error (.execution (.noReturn y.cpu.stepLimit pc)) y)

variable {hosts : Nat → Array HostFunction} {start pc : Addr} {x y : Machine μ} {k n limit : Nat}

/-- **A run ends** after as many iterations as it is given, at the latest. -/
lemma runAmong_ends (h : Reaches hosts start x k pc y) (hlimit : k + n = limit) :
    Ends hosts limit start x (runAmong hosts k n pc y) := by
  induction n generalizing k pc y with
  | zero =>
    obtain rfl : k = limit := hlimit
    exact .exhausted h
  | succ n ih =>
    unfold runAmong
    split_ifs with hpc
    · exact .returned (by omega) (hpc ▸ h)
    · rcases hstep : step pc (y.among (hosts k)) with ⟨pc', z⟩ | ⟨e, z⟩
      · exact ih (h.next hpc hstep) (by omega)
      · exact .failed (by omega) h hpc hstep

lemma callAmong_eq {func base : Addr} {args : List UInt32} (hargs : args.length ≤ 4)
    (hthumb : func &&& 1 ≠ 0) (x : Machine μ) :
    callAmong hosts func base args x =
      runAmong hosts 0 x.cpu.stepLimit (func &&& ~~~1) { x with cpu := entered base args x.cpu } := by
  have hthrow : ¬ 4 < args.length := by omega
  unfold callAmong interwork
  rw [if_neg hthrow, if_neg hthumb]
  rfl

end Runs

variable {hosts : Nat → Array HostFunction} {start : Addr} {k n limit : Nat}

lemma among_eq {fs : Array HostFunction} (h : x.cpu.hosts = fs) : x.among fs = x := by
  subst h
  rfl

/-- Among functions that are always the same it is the interpreter's own run. -/
lemma runAmong_same (x : Machine Context) {fs : Array HostFunction} (hfs : x.cpu.hosts = fs) (k n : Nat)
    (pc : Addr) :
    runAmong (fun _ => fs) k n pc x = run n pc x := by
  induction n generalizing k pc x with
  | zero => rfl
  | succ n ih =>
    unfold runAmong run
    split_ifs
    · rfl
    · have hstep := step_confined pc x
      rw [among_eq hfs]
      unfold Confined Op.Sat at hstep
      generalize step pc x = o at hstep ⊢
      rcases o with ⟨pc', y⟩ | ⟨e, y⟩
      · exact ih y (hstep.cpu.hosts.trans hfs) (k + 1) pc'
      · rfl

/-- What an iteration stores is stored by the run. -/
lemma Reaches.step_stored {F : Nat → Prop} (h : Reaches hosts start x k pc y)
    (hpc : pc ≠ Cpu.returnAddress &&& ~~~1) (hy : Context.Stored F x.mem y.mem)
    (hF : ∀ w, Executes hosts start x k w → ∀ i, x.mem.pool.HitBy w i → F i) :
    Op.Sat (step pc) (y.among (hosts k)) (fun _ z => Context.Stored F x.mem z.mem)
      fun _ z => Context.Stored F x.mem z.mem := by
  have hhit : ∀ i, y.mem.pool.Hit (stores pc (y.among (hosts k))) i → F i := by
    rintro i ⟨w, hw, hi⟩
    exact hF w ⟨pc, y, h, hpc, hw⟩ i (hy.pool.hitBy_iff.1 hi)
  exact Op.Sat.mono ((step_confined pc (y.among (hosts k))).mono hhit) (fun _ _ hz => hy.trans hz.mem)
    fun _ _ hz => hy.trans hz.mem

/-- **Any number of iterations** write to the pool only what they store there. -/
lemma Reaches.stored {F : Nat → Prop} (h : Reaches hosts start x k pc y)
    (hF : ∀ j < k, ∀ w, Executes hosts start x j w → ∀ i, x.mem.pool.HitBy w i → F i) :
    Context.Stored F x.mem y.mem := by
  induction h with
  | start => exact .refl F _
  | next h hpc hstep ih =>
    have hsat := h.step_stored hpc (ih fun j hj => hF j (by omega)) (hF _ (by omega))
    unfold Op.Sat at hsat
    rwa [hstep] at hsat

/-- What a run leaves, however it ends. -/
lemma Ends.stored {F : Nat → Prop} {act : Op (Machine Context) UInt32} {x' : Machine Context}
    (h : Ends hosts limit start x (act x'))
    (hF : ∀ j < limit, ∀ w, Executes hosts start x j w → ∀ i, x.mem.pool.HitBy w i → F i) :
    Op.Sat act x' (fun _ y => Context.Stored F x.mem y.mem) fun _ y => Context.Stored F x.mem y.mem := by
  unfold Op.Sat
  generalize act x' = o at h ⊢
  cases h with
  | returned hk hreach => exact hreach.stored fun j hj => hF j (by omega)
  | exhausted hreach => exact hreach.stored hF
  | failed hk hreach hpc hstep =>
    have hsat := hreach.step_stored hpc (hreach.stored fun j hj => hF j (by omega)) (hF _ hk)
    unfold Op.Sat at hsat
    rwa [hstep] at hsat

/-- Among functions that are always the same it is the interpreter's own call. -/
lemma callAmong_same (func base : Addr) (args : List UInt32) (x : Machine Context) :
    callAmong (fun _ => x.cpu.hosts) func base args x = call func base args x := by
  by_cases hargs : args.length ≤ 4
  · by_cases hthumb : func &&& 1 = 0
    · unfold callAmong call interwork
      rw [if_neg (Nat.not_lt.2 hargs), if_neg (Nat.not_lt.2 hargs), if_pos hthumb]
      rfl
    · rw [callAmong_eq hargs hthumb, call_eq hargs hthumb]
      generalize hinside : ({ x with cpu := entered base args x.cpu } : Machine Context) = y
      have hhosts : y.cpu.hosts = x.cpu.hosts := by
        rw [← hinside]
        exact (Cpu.kin_entered ..).hosts
      exact runAmong_same y hhosts 0 x.cpu.stepLimit (func &&& ~~~1)
  · unfold callAmong call
    rw [if_pos (Nat.not_le.1 hargs), if_pos (Nat.not_le.1 hargs)]
    rfl

/-- A call with too many arguments, or of what is not Thumb code, does not begin. -/
lemma callAmong_refused {func : Addr} {args : List UInt32} (h : ¬ (args.length ≤ 4 ∧ func &&& 1 ≠ 0))
    (base : Addr) (x : Machine Context) :
    Op.Sat (callAmong hosts func base args) x (fun _ _ => False) fun _ y => y.mem = x.mem := by
  unfold callAmong
  by_cases hargs : args.length ≤ 4
  · have harm : func &&& 1 = 0 := by
      by_contra hthumb
      exact h ⟨hargs, hthumb⟩
    rw [if_neg (Nat.not_lt.2 hargs)]
    refine Op.Sat.modify_bind ?_
    unfold interwork
    rw [if_pos harm]
    exact Op.Sat.throw_bind rfl
  · rw [if_pos (Nat.not_le.1 hargs)]
    exact Op.Sat.throw_bind rfl

end Machine

/-! ### Calls -/

/-- Flash holds what it held, every allocator is where it was, and only pool bytes in `F` differ. -/
structure Context.Unharmed (F : Nat → Prop) (c c' : Context) : Prop where
  xip_contents : c'.xip.device.contents = c.xip.device.contents
  iflash_contents : c'.iflash.device.contents = c.iflash.device.contents
  xip_free : c'.xip.nextFree = c.xip.nextFree
  iflash_free : c'.iflash.nextFree = c.iflash.nextFree
  pool_used : c'.pool.used = c.pool.used
  trampolines_eq : c'.trampolines = c.trampolines
  pool_size : c'.pool.mem.size = c.pool.mem.size
  pool_bytes : ∀ i : Nat, c'.pool.mem[i]? ≠ c.pool.mem[i]? → F i

lemma Context.Stored.unharmed {F : Nat → Prop} {c c' : Context} (h : Stored F c c') : Unharmed F c c' where
  xip_contents := congrArg (·.xip.device.contents) h.rest_eq
  iflash_contents := congrArg (·.iflash.device.contents) h.rest_eq
  xip_free := congrArg (·.xip.nextFree) h.rest_eq
  iflash_free := congrArg (·.iflash.nextFree) h.rest_eq
  pool_used := h.pool.used_eq
  trampolines_eq := congrArg (·.trampolines) h.rest_eq
  pool_size := h.pool.size_eq
  pool_bytes i hne := by
    by_contra hF
    exact hne (h.pool.same.get_eq i hF).symm

namespace Machine

variable {x : Machine Context}

/-- **Running code is confined**, whatever is in memory and however it ends, also among host functions that
act differently in every iteration. Flash, the allocators and the trampolines are as they were. A pool byte
that differs is covered by something that a step of the run has stored and that lies in the pool as a whole:
a word of a store or push instruction, or what a host function has written. A call that is let in ends after
as many iterations as the limit says, at the latest; any other fails at once. -/
theorem call_confined (hosts : Nat → Array HostFunction) (func base : Addr) (args : List UInt32)
    (x : Machine Context) :
    let entry := func &&& ~~~1
    let inside : Machine Context := { x with cpu := entered base args x.cpu }
    let covered := fun i =>
      ∃ k < x.cpu.stepLimit, ∃ w, Executes hosts entry inside k w ∧ x.mem.pool.HitBy w i
    callAmong (fun _ => x.cpu.hosts) func base args x = call func base args x ∧
    Op.Sat (callAmong hosts func base args) x (fun _ y => Context.Unharmed covered x.mem y.mem)
      (fun _ y => Context.Unharmed covered x.mem y.mem) ∧
    (args.length ≤ 4 ∧ func &&& 1 ≠ 0 →
      Ends hosts x.cpu.stepLimit entry inside (callAmong hosts func base args x)) ∧
    (¬ (args.length ≤ 4 ∧ func &&& 1 ≠ 0) →
      Op.Sat (callAmong hosts func base args) x (fun _ _ => False) fun _ y => y.mem = x.mem) := by
  intro entry inside covered
  have hends : args.length ≤ 4 ∧ func &&& 1 ≠ 0 →
      Ends hosts x.cpu.stepLimit entry inside (callAmong hosts func base args x) := by
    rintro ⟨hargs, hthumb⟩
    rw [callAmong_eq hargs hthumb]
    exact runAmong_ends .start (Nat.zero_add _)
  refine ⟨callAmong_same func base args x, ?_, hends, fun h => callAmong_refused h base x⟩
  by_cases hentered : args.length ≤ 4 ∧ func &&& 1 ≠ 0
  · have hstored := (hends hentered).stored (F := covered) fun k hk w hw i hi => ⟨k, hk, w, hw, hi⟩
    exact hstored.mono (fun _ _ h => h.unharmed) fun _ _ h => h.unharmed
  · refine (callAmong_refused hentered base x).mono (fun _ _ h => h.elim) fun _ y hmem => ?_
    rw [hmem]
    exact (Context.Stored.refl covered x.mem).unharmed

end Machine

end FlashLink
