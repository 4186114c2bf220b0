import Digic.Flash.Registers
import Digic.Proofs.Bus.Effects
import Digic.Proofs.Flash.Cells
/-!
# Accesses of flash memory

What firmware does to flash memory, and what a bank is afterwards. Neither an answer nor a cycle of a
command moves a bank, and an answer does not touch its cells.
-/
namespace Digic.Flash

open Bus

/-- An access of flash memory. -/
inductive Access where
  | read (c : Context) (addr : UInt32)
  | write (c : Context) (addr value : UInt32)

def Access.number : Access → Nat
  | .read c _ => c.window.param.toNat
  | .write c _ _ => c.window.param.toNat

def Bank.take (b : Bank) : Access → Bank
  | .read _ addr => (b.answer (b.offset addr)).2
  | .write _ addr value => b.command (b.offset addr) value

def Banks.take (f : Banks) : Access → Banks
  | .read c addr => (stateAfter (Flash.read c addr) ⟨f, #[]⟩).device
  | .write c addr value => (stateAfter (Flash.write c addr value) ⟨f, #[]⟩).device

def Banks.run (f : Banks) (accesses : List Access) : Banks := accesses.foldl take f

namespace Bank

/-- Where a bank lies and how large it is does not change. -/
theorem layout_perform (b : Bank) (offset value : UInt32) (o : Operation) :
    (b.perform offset value o).base = b.base ∧ (b.perform offset value o).size = b.size := by
  cases o with
  | nothing => exact ⟨rfl, rfl⟩
  | eraseChip => exact ⟨rfl, rfl⟩
  | eraseBlock => exact ⟨rfl, rfl⟩
  | program =>
    rw [perform, program]
    exact b.layout_updateWord offset value _

theorem layout_command (b : Bank) (offset value : UInt32) :
    (b.command offset value).base = b.base ∧ (b.command offset value).size = b.size :=
  b.layout_perform offset value (b.response offset value).operation

/-- To be read counts as a status read, or ends an erase. -/
theorem answer_cases (b : Bank) (offset : UInt32) :
    (∃ reads, (b.answer offset).2 = { b with statusReads := reads }) ∨
      b.state = .eraseBusy ∧ (b.answer offset).2 = { b with state := .ready } := by
  rw [answer]
  split
  · exact .inl ⟨b.statusReads, rfl⟩
  · next hstate =>
    split
    · exact .inl ⟨b.statusReads + 1, rfl⟩
    · exact .inr ⟨hstate, rfl⟩
  · exact .inl ⟨b.statusReads, rfl⟩

/-- An answer does not touch the cells. -/
theorem cells_answer (b : Bank) (offset : UInt32) : (b.answer offset).2.cells = b.cells := by
  rcases b.answer_cases offset with ⟨reads, h⟩ | ⟨-, h⟩ <;> rw [h]

theorem layout_take (b : Bank) (a : Access) :
    (b.take a).base = b.base ∧ (b.take a).size = b.size := by
  cases a with
  | read c addr =>
    rw [take]
    rcases b.answer_cases (b.offset addr) with ⟨reads, h⟩ | ⟨-, h⟩ <;> rw [h] <;> exact ⟨rfl, rfl⟩
  | write c addr value => exact b.layout_command (b.offset addr) value

end Bank

end Digic.Flash
