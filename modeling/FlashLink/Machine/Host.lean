import FlashLink.Machine.Memory

/-!
Host functions that module code can call. A host function is a program that sees the arguments and
the base register of the call, and touches memory only by reading and writing it.
-/

namespace FlashLink

inductive HostProgram where
  | done (value : UInt32)
  | fail (why : Error)
  | read (addr : Addr) (len : Nat) (next : Except Error Bytes → HostProgram)
  | write (addr : Addr) (data : Bytes) (next : Except Error Unit → HostProgram)

namespace HostProgram

/-- Runs a program on a memory. -/
def run {μ : Type} [Memory μ] : HostProgram → Op μ UInt32
  | done value => fun m => .ok value m
  | fail why => fun m => .error why m
  | read addr len next => fun m =>
    match Memory.read addr len m with
    | .ok b m => (next (.ok b)).run m
    | .error e m => (next (.error e)).run m
  | write addr data next => fun m =>
    match Memory.write addr data m with
    | .ok u m => (next (.ok u)).run m
    | .error e m => (next (.error e)).run m

/-- Reads a word; a failed read fails the function. -/
def readWord (addr : Addr) (next : UInt32 → HostProgram) : HostProgram :=
  read addr 4 fun
    | .ok b => next (b.u32 0)
    | .error e => fail e

/-- Writes a word; a failed write fails the function. -/
def writeWord (addr : Addr) (value : UInt32) (next : HostProgram) : HostProgram :=
  write addr (Bytes.ofU32 value) fun
    | .ok () => next
    | .error e => fail e

/-- Reads zero-terminated text, of which `seen` came before `addr`, with `fuel` bytes to go. -/
def readTextFrom (start : Addr) (limit : Nat) (next : String → HostProgram) :
    Nat → Addr → Bytes → HostProgram
  | 0, _, _ => fail (.execution (.textUnterminated start limit))
  | fuel + 1, addr, seen =>
    read addr 1 fun
      | .error e => fail e
      | .ok b =>
        if b.byte 0 = 0 then
          match seen.text? with
          | some s => next s
          | none => fail (.execution (.textNotUtf8 start))
        else readTextFrom start limit next fuel (addr + 1) (seen.push (b.byte 0))

/-- Reads zero-terminated text of fewer than `limit` bytes. -/
def readText (addr : Addr) (limit : Nat) (next : String → HostProgram) : HostProgram :=
  readTextFrom addr limit next limit addr #[]

end HostProgram

/-- What a host function sees of a call: `r0` to `r3`, and `r9`. -/
structure HostCall where
  r0 : UInt32
  r1 : UInt32
  r2 : UInt32
  r3 : UInt32
  base : Addr

abbrev HostFunction : Type := HostCall → HostProgram

namespace HostFunction

/-! ### Small services -/

def constant (value : UInt32) : HostFunction := fun _ => .done value

/-- The first argument, increased. -/
def plus (value : UInt32) : HostFunction := fun c => .done (c.r0 + value)

/-- The sum of all argument registers. -/
def sum : HostFunction := fun c => .done (c.r0 + c.r1 + c.r2 + c.r3)

/-- The base register of the caller. -/
def callerBase : HostFunction := fun c => .done c.base

/-- The word at the first argument. -/
def load : HostFunction := fun c => .readWord c.r0 .done

/-- Stores the second argument at the first, and answers it. -/
def store : HostFunction := fun c => .writeWord c.r0 c.r1 (.done c.r1)

/-- How many bytes the text at the first argument takes, at most as many as the second says. -/
def textLength : HostFunction := fun c =>
  .readText c.r0 c.r1.toNat fun s => .done (UInt32.ofNat s.utf8ByteSize)

def failing (why : String) : HostFunction := fun _ => .fail (.execution (.host why))

end HostFunction

end FlashLink
