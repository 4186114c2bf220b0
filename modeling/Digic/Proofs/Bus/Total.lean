import Digic.Board.Boot
import Digic.Board.Digic6
import Digic.Board.Gpio
import Digic.Console.Uart
import Digic.Display.Registers
import Digic.Dma.Engine
import Digic.Flash.Registers
import Digic.Interrupt.Registers
import Digic.Proofs.Bus.Effects
import Digic.Timer.CompareRegisters
import Digic.Timer.Registers
/-!
# Register files that never fault

Most accesses end well wherever they start. Image DMA and the hosts of the cards refuse some; they
are treated by themselves.
-/
namespace Digic

namespace Bus

namespace Action

variable {σ α β : Type}

/-- An action that ends well wherever it starts. -/
def Total (a : Action σ α) : Prop := ∀ s : Acting σ, ∃ x t, a s = .ok x t

namespace Total

@[simp] theorem pure (x : α) : Total (Pure.pure x : Action σ α) := fun s => ⟨x, s, rfl⟩

@[simp] theorem device : Total (Action.device : Action σ σ) := fun s => ⟨s.device, s, rfl⟩

@[simp] theorem update (f : σ → σ) : Total (Action.update f) := fun _ => ⟨(), _, rfl⟩

@[simp] theorem note (n : Log.Notice) : Total (Action.note n : Action σ Unit) :=
  fun _ => ⟨(), _, rfl⟩

@[simp] theorem request (id delay : UInt32) :
    Total (Action.request id delay : Action σ Unit) := fun _ => ⟨(), _, rfl⟩

@[simp] theorem bind {a : Action σ α} {f : α → Action σ β} (ha : Total a)
    (hf : ∀ x, Total (f x)) : Total (a >>= f) := by
  intro s
  obtain ⟨x, t, hx⟩ := ha s
  rw [bind_of_ok hx]
  exact hf x t

@[simp] theorem map {a : Action σ α} (f : α → β) (ha : Total a) : Total (f <$> a) := by
  have h := bind ha fun x => pure (f x)
  rwa [bind_pure_comp] at h

@[simp] theorem ite_iff {p : Prop} [Decidable p] {a b : Action σ α} :
    Total (if p then a else b) ↔ (p → Total a) ∧ (¬ p → Total b) := by
  split <;> simp [*]

theorem forM {γ : Type} {f : γ → Action σ Unit} (hf : ∀ x, Total (f x)) (xs : List γ) :
    Total (xs.forM f) := by
  induction xs with
  | nil => exact .pure ()
  | cons x xs ih => exact .bind (hf x) fun _ => ih

end Total

end Action

namespace Context

variable {σ : Type}

@[simp] theorem total_traceRead (c : Context) (addr value : UInt32) (remark : String) :
    Action.Total (c.traceRead addr value remark : Action σ Unit) := .note _

@[simp] theorem total_traceWrite (c : Context) (addr value : UInt32) (remark : String) :
    Action.Total (c.traceWrite addr value remark : Action σ Unit) := .note _

@[simp] theorem total_answer (c : Context) (addr value : UInt32) (remark : String) :
    Action.Total (c.answer addr value remark : Action σ UInt32) :=
  .bind (c.total_traceRead addr value remark) fun _ => .pure value

end Context

end Bus

open Bus

theorem Board.total_tellLed {σ : Type} (c : Context) (addr value : UInt32) (digic6 : Bool) :
    (tellLed c addr value digic6 : Action σ Unit).Total := by
  unfold tellLed
  split <;> simp

theorem Board.Basic.total_read (c : Context) (addr : UInt32) : (Basic.read c addr).Total := by
  unfold read
  split <;> simp

theorem Board.Basic.total_write (c : Context) (addr value : UInt32) :
    (Basic.write c addr value).Total := by
  simp [write]

theorem Board.Power.total_read (c : Context) (addr : UInt32) : (Power.read c addr).Total := by
  simp [read]

theorem Board.Power.total_write (c : Context) (addr value : UInt32) :
    (Power.write c addr value).Total := by
  simp [write]

theorem Board.ImageEngine.total_read (c : Context) (addr : UInt32) :
    (ImageEngine.read c addr).Total := by
  simp [read]

theorem Board.ImageEngine.total_write (c : Context) (addr value : UInt32) :
    (ImageEngine.write c addr value).Total := by
  simp [write]

theorem Board.Gpio.total_read (c : Context) (addr : UInt32) : (Gpio.read c addr).Total := by
  simp [read]

theorem Board.Gpio.total_write (c : Context) (addr value : UInt32) :
    (Gpio.write c addr value).Total := by
  simp [write, total_tellLed]

theorem Board.Digic6.total_read (c : Context) (addr : UInt32) : (Digic6.read c addr).Total := by
  simp [read]

theorem Board.Digic6.total_write (c : Context) (addr value : UInt32) :
    (Digic6.write c addr value).Total := by
  simp [write, total_tellLed]

theorem Console.total_transmit (b : UInt8) : (transmit b).Total := by
  simp [transmit]

theorem Console.total_read (c : Context) (addr : UInt32) : (Console.read c addr).Total := by
  unfold read readRegister
  split
  · simp
  · split <;> simp

theorem Console.total_write (c : Context) (addr value : UInt32) :
    (Console.write c addr value).Total := by
  unfold write writeRegister
  split
  · simp
  · split <;> simp [total_transmit]

theorem Display.total_read (c : Context) (addr : UInt32) : (Display.read c addr).Total := by
  simp [read]

theorem Display.total_write (c : Context) (addr value : UInt32) :
    (Display.write c addr value).Total := by
  simp [write]

theorem Flash.Gate.total_read (c : Context) (addr : UInt32) : (Gate.read c addr).Total := by
  simp [read]

theorem Flash.Gate.total_write (c : Context) (addr value : UInt32) :
    (Gate.write c addr value).Total := by
  simp [write]

theorem Flash.total_read (c : Context) (addr : UInt32) : (Flash.read c addr).Total := by
  unfold read
  refine .bind .device fun banks => ?_
  split
  · exact .pure _
  · refine .bind (.update _) fun _ => ?_
    split <;> simp

theorem Flash.total_write (c : Context) (addr value : UInt32) :
    (Flash.write c addr value).Total := by
  unfold write tellResponse
  refine .bind .device fun banks => ?_
  split <;> simp

theorem Timer.total_startTimer (c : Context) (addr value : UInt32) (id : Nat) :
    (startTimer c addr value id).Total := by
  unfold startTimer
  refine .bind (.update _) fun _ => ?_
  split
  · exact .bind .device fun _ => .bind (.request _ _) fun _ => c.total_traceWrite addr value _
  · simp

theorem Timer.total_read (c : Context) (addr : UInt32) : (Timer.read c addr).Total := by
  unfold read readTimer
  split
  · simp
  · split <;> simp

theorem Timer.total_write (c : Context) (addr value : UInt32) :
    (Timer.write c addr value).Total := by
  unfold write writeTimer
  split
  · simp
  · split
    · split <;> simp [total_startTimer, updateTimers]
    · simp

theorem Timer.total_readCompare (c : Context) (addr : UInt32) : (readCompare c addr).Total := by
  simp [readCompare]

theorem Timer.total_writeCompare (c : Context) (addr value : UInt32) :
    (writeCompare c addr value).Total := by
  unfold writeCompare
  split <;> simp [updateChannels]

theorem Dma.total_read (c : Context) (addr : UInt32) : (Dma.read c addr).Total := by
  unfold read
  refine .bind .device fun b => ?_
  split
  · simp
  · split <;> simp

theorem Dma.total_write (c : Context) (addr value : UInt32) : (Dma.write c addr value).Total := by
  unfold write
  refine .bind .device fun b => ?_
  split
  · split
    · simp
    · unfold writeChannel
      split <;> simp [start, setUp]
  · simp

theorem Interrupt.total_perform (operation : Controller → Controller × List Event) :
    (perform operation).Total :=
  .bind .device fun _ => .bind (.update _) fun _ => .forM (fun _ => .note _) _

theorem Interrupt.total_read (c : Context) (addr : UInt32) : (Interrupt.read c addr).Total := by
  have hacknowledge (shift : UInt32) : (acknowledge shift).Total :=
    .bind .device fun _ => .bind (.update _) fun _ =>
      .bind (.forM (fun _ => .note _) _) fun _ => .pure _
  unfold read readRegister
  split
  · simp
  · split
    case h_1 shift _ =>
      refine .bind (hacknowledge shift) fun value => ?_
      simp
    all_goals simp

theorem Interrupt.total_write (c : Context) (addr value : UInt32) :
    (Interrupt.write c addr value).Total := by
  unfold write writeMask writeRegister
  split
  · split
    · exact .bind (.forM (fun _ => total_perform _) _) fun _ => c.total_traceWrite addr value _
    · exact .bind (.forM (fun _ => total_perform _) _) fun _ => c.total_traceWrite addr value _
    · simp
  · split <;> simp [total_perform]

end Digic
