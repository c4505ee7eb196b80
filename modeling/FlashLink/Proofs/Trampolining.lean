import FlashLink.Proofs.Calls
import FlashLink.Proofs.Loading
import FlashLink.Thumb.Record

/-!
Calling through a trampoline. A record is two instructions and two words. Its first instruction loads
the base of the module's variables into `r9`, its second one loads the program counter; then the machine
is where a direct call with that base starts, two instructions later.
-/

namespace FlashLink

/-! ### The record -/

namespace Record

variable (target base : Addr)

/-- The two instructions. -/
def code : Bytes := #[0xdf, 0xf8, 0x04, 0x90, 0xdf, 0xf8, 0x04, 0xf0]

lemma bytes_eq : bytes target base = code ++ (Bytes.ofU32 base ++ Bytes.ofU32 target) := rfl

end Record

namespace Cpu

lemma stackSpan?_none {c : Cpu} {addr : Addr} {len : Nat} (h : c.stackSpan? addr 1 = none)
    (hlen : 0 < len) : c.stackSpan? addr len = none := by
  simp only [stackSpan?, ite_eq_right_iff, reduceCtorEq, imp_false, Bool.and_eq_true,
    decide_eq_true_eq] at h ⊢
  exact fun hin => h ⟨hin.1, by omega⟩

end Cpu

namespace Memory

variable {μ : Type} [Memory μ] {R : μ → μ → Prop} {m m₁ : μ} {a : Addr} {b : Bytes}

/-- The memory answers these bytes from `a` on. -/
def Answers (m : μ) (a : Addr) (b : Bytes) : Prop :=
  ∀ i len, 0 < len → i + len ≤ b.size →
    ∃ m', Memory.read (a + UInt32.ofNat i) len m = .ok (b.slice i len) m'

variable (hR : Steady R)

include hR

/-- It makes no difference what has been read before. -/
lemma Answers.read (h : Answers m a b) (hm : R m m₁) {i len : Nat} (hlen : 0 < len)
    (hi : i + len ≤ b.size) :
    Op.Sat (Memory.read (a + UInt32.ofNat i) len) m₁ (fun d m₂ => d = b.slice i len ∧ R m m₂)
      fun _ _ => False := by
  obtain ⟨m', hread⟩ := h i len hlen hi
  have hsim := hR.read (a + UInt32.ofNat i) len hm
  have hkept := hR.kept m (a + UInt32.ofNat i) len
  unfold Op.Sim at hsim
  unfold Op.Sat at hkept ⊢
  rw [hread] at hsim hkept
  dsimp only at hsim hkept
  generalize Memory.read (a + UInt32.ofNat i) len m₁ = o at hsim ⊢
  rcases o with ⟨d, m₂⟩ | ⟨e, m₂⟩
  · exact ⟨hsim.1.symm, hR.equivalence.trans hkept hsim.2⟩
  · exact hsim

end Memory

namespace Machine

variable {μ : Type} [Memory μ] {R : μ → μ → Prop} {m : μ} {a t b p : Addr} {d : Bytes} {c : Cpu}
  {x : Machine μ} {i : Nat}

/-- Code is in memory at `a`, neither on the stack nor where the stubs are. -/
structure CodeAt (m : μ) (c : Cpu) (a : Addr) (d : Bytes) : Prop where
  answers : Memory.Answers m a d
  off_stack : ∀ i < d.size, c.stackSpan? (a + UInt32.ofNat i) 1 = none
  off_stubs : ∀ i < d.size, c.host? (a + UInt32.ofNat i) = none

/-- A record is in memory at `a`, neither on the stack nor where the stubs are. -/
structure RecordAt (m : μ) (c : Cpu) (a t b : Addr) : Prop where
  held : Memory.Holds m a (Record.bytes t b)
  off_stack : ∀ i < Record.width, c.stackSpan? (a + UInt32.ofNat i) 1 = none
  off_stubs : ∀ i < Record.width, c.host? (a + UInt32.ofNat i) = none

/-- The registers and the statistics do not matter. -/
lemma RecordAt.moved {d : Cpu} (h : RecordAt m c a t b) (hstack : d.stack = c.stack)
    (hstackBase : d.stackBase = c.stackBase) (hhosts : d.hosts = c.hosts)
    (hhostBase : d.hostBase = c.hostBase) : RecordAt m d a t b := by
  refine ⟨h.held, fun i hi => ?_, fun i hi => ?_⟩
  · rw [← h.off_stack i hi, Cpu.stackSpan?, Cpu.stackSpan?, hstack, hstackBase]
  · rw [← h.off_stubs i hi, Cpu.host?, Cpu.host?, hhosts, hhostBase]

/-- A machine with this CPU, whose memory reads like `m`. -/
def Shows (R : μ → μ → Prop) (m : μ) (c : Cpu) (x : Machine μ) : Prop := x.cpu = c ∧ R m x.mem

/-! ### Two steps -/

lemma load_code (hR : Memory.Steady R) (h : CodeAt m c a d) (hx : Shows R m c x) {len : Nat}
    (hi : i + len ≤ d.size) (hlen : 0 < len) :
    Op.Sat (load (a + UInt32.ofNat i) len) x
      (fun v x' => v = (d.slice i len).u32 0 ∧ Shows R m c x') fun _ _ => False := by
  obtain ⟨_, m₁⟩ := x
  obtain ⟨rfl, hm⟩ := hx
  have hread := h.answers.read hR hm hlen hi
  unfold Op.Sat at hread ⊢
  unfold load Op.zoom memPart
  dsimp only at hread ⊢
  rw [Cpu.stackSpan?_none (h.off_stack i (by omega)) hlen]
  dsimp only
  generalize Memory.read (a + UInt32.ofNat i) len m₁ = o at hread ⊢
  rcases o with ⟨d, m₂⟩ | ⟨e, m₂⟩
  · exact ⟨congrArg (Bytes.u32 · 0) hread.1, rfl, hread.2⟩
  · exact hread

/-- Memory with a record, followed by code that calls the address in `r1`. -/
def recorded : Context :=
  { Small.context with
    pool.mem := Record.bytes 0x20000011 0x20000020 ++ #[0x00, 0xb5, 0x88, 0x47, 0x00, 0xbd] }

end Machine

end FlashLink
