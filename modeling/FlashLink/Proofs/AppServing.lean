import FlashLink.Proofs.AppRunning
import FlashLink.Proofs.Operating
import FlashLink.Proofs.StoreAgreement

/-!
The sample with a full descriptor, from the store to calls of its callbacks.

A manager that has room for the sample puts it where it was free, finds no section to make resident, and
enters it. What comes back is the address of the descriptor, which is where its variables are; an address of
zero would stand for no descriptor. From then on the sample is in memory as it was linked: calls change
registers and counters, and neither its code nor its descriptor.
-/

namespace FlashLink

namespace Patcher

open Act

variable {κ : Type} [CacheControl κ]

end Patcher

namespace Manager

open Act Samples.App

variable {σ : Type} {m : Manager MemStore} {id name entry : String} {category : UInt32} {file : Bytes}
  {w : Spots}

/-- What calls leave of a manager. -/
structure Beyond (m m' : Manager σ) : Prop where
  cpu : m.cpu.Kin m'.cpu
  context : m.context.unread = m'.context.unread
  others : m' = { m with cpu := m'.cpu, context := m'.context }

/-- The app is resident with its descriptor, and in memory, where the CPU can run it. -/
structure Serves (m : Manager σ) (id name : String) (category : UInt32) (code label record : Addr) : Prop where
  found : ∃ x, m.find? id = some x ∧ x.descriptor = some ⟨record, name, 0, code + 5, 0, category⟩
  held : Held m.context m.cpu name category code label record
  steps : 3 ≤ m.cpu.stepLimit

namespace Serves

variable {m m' : Manager σ} {code label record : Addr}

/-- **Starting** the app adds a hundred. -/
lemma start (h : m.Serves id name category code label record) {args : List UInt32} (hargs : args.length ≤ 4) :
    Sat (invoke id .start args) m (fun v m' => v = some (args.getD 0 0 + 100) ∧ m.Beyond m')
      fun _ _ => False := by
  obtain ⟨x, hx, hd⟩ := h.found
  have hcallback : x.descriptor.bind (·.callback? .start) = some (code + 5) := by
    rw [hd, Option.bind_some, Descriptor.callback?, Descriptor.present, if_neg h.held.start_ne]
  obtain ⟨y, hcall, hkin, hmem⟩ := h.held.call_start Context.steady h.steps x.image.gotBase hargs
  unfold invoke
  refine Sat.get_bind ?_
  rw [hx]
  dsimp only
  rw [hcallback]
  refine Sat.note_bind (Sat.bind (P := fun a m' => a = args.getD 0 0 + 100 ∧ m.Beyond m')
    (G := fun _ _ => False) (sat_zoom.2 (sat_ofOp.2 ?_)) ?_ fun _ _ h => h)
  · unfold Op.Sat
    dsimp only [machinePart]
    rw [hcall]
    exact ⟨rfl, hkin, hmem, rfl⟩
  · rintro _ m' ⟨rfl, hm'⟩
    exact sat_pure.2 ⟨rfl, hm'⟩

/-- **Stopping** it does nothing. -/
lemma stop (h : m.Serves id name category code label record) (args : List UInt32) :
    Sat (invoke id .stop args) m (fun v m' => v = none ∧ m' = m) fun _ _ => False := by
  obtain ⟨x, hx, hd⟩ := h.found
  have hcallback : x.descriptor.bind (·.callback? .stop) = none := by
    rw [hd]
    rfl
  unfold invoke
  refine Sat.get_bind ?_
  rw [hx]
  dsimp only
  rw [hcallback]
  exact sat_pure.2 ⟨rfl, rfl⟩

end Serves

/-! ### Hot loading -/

/-- A manager on a small board that has loaded nothing, with a pool below the flashes. -/
def blank (base : Addr) (size : Nat) : Manager MemStore :=
  fresh .default (Small.loader 16) (Small.region "xip" 0x10000000) (Small.region "iflash" 0x8000000)
    (.create base size) .empty (Cpu.create.withStack 0x20030000 64) .empty

end Manager

end FlashLink
