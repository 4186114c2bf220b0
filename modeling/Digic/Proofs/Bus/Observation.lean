import Digic.Board.Boot
import Digic.Board.Digic6
import Digic.Board.Gpio
import Digic.Cf.Registers
import Digic.Console.Uart
import Digic.Display.Registers
import Digic.Dma.Engine
import Digic.Flash.Registers
import Digic.Interrupt.Registers
import Digic.Proofs.Bus.Refusals
import Digic.Proofs.Flash.Banks
import Digic.Sd.Registers
import Digic.Timer.CompareRegisters
import Digic.Timer.Registers
/-!
# Reads that only look

Most registers can be read as often as one likes: the read gives a value, may be told of, and leaves
the register file as it was. The few that do not are named by the hypotheses here.
-/
namespace Digic

namespace Bus

namespace Action

variable {σ α β : Type} {s : Acting σ}

/-- An action that ends well and has done nothing but tell. -/
def Observes (a : Action σ α) (s : Acting σ) : Prop :=
  ∃ (x : α) (notes : List Log.Notice), (∀ n ∈ notes, n.event? = none) ∧
    a s = .ok x ⟨s.device, s.effects ++ (notes.map Effect.note).toArray⟩

namespace Observes

@[simp] theorem pure (x : α) : Observes (Pure.pure x : Action σ α) s :=
  ⟨x, [], by simp, by simp [pure_apply]⟩

@[simp] theorem device : Observes (Action.device : Action σ σ) s :=
  ⟨s.device, [], by simp, by simp [device_apply]⟩

theorem note {n : Log.Notice} (h : n.event? = none) : Observes (Action.note n : Action σ Unit) s :=
  ⟨(), [n], by simpa using h, by simp [note_apply]⟩

@[simp] theorem bind {a : Action σ α} {f : α → Action σ β} (ha : Observes a s)
    (hf : ∀ x t, t.device = s.device → Observes (f x) t) : Observes (a >>= f) s := by
  obtain ⟨x, first, hfirst, hx⟩ := ha
  obtain ⟨y, others, hothers, hy⟩ :=
    hf x ⟨s.device, s.effects ++ (first.map Effect.note).toArray⟩ rfl
  refine ⟨y, first ++ others, ?_, ?_⟩
  · exact List.forall_mem_append.2 ⟨hfirst, hothers⟩
  · rw [bind_of_ok hx, hy]
    simp

@[simp] theorem map {a : Action σ α} (f : α → β) (ha : Observes a s) : Observes (f <$> a) s := by
  have h := bind ha fun x t _ => pure (s := t) (f x)
  rwa [bind_pure_comp] at h

/-- What an action looks at first is its device as it is. -/
theorem device_bind {f : σ → Action σ α} (h : Observes (f s.device) s) :
    Observes (Action.device >>= f) s := h

@[simp] theorem ite_iff {p : Prop} [Decidable p] {a b : Action σ α} :
    Observes (if p then a else b) s ↔ (p → Observes a s) ∧ (¬ p → Observes b s) := by
  split <;> simp [*]

end Observes

end Action

namespace Context

variable {σ : Type} {s : Acting σ}

@[simp] theorem observes_traceRead (c : Context) (addr value : UInt32) (remark : String) :
    Action.Observes (c.traceRead addr value remark : Action σ Unit) s := .note rfl

@[simp] theorem observes_answer (c : Context) (addr value : UInt32) (remark : String) :
    Action.Observes (c.answer addr value remark : Action σ UInt32) s :=
  .bind (c.observes_traceRead addr value remark) fun _ _ _ => .pure value

end Context

end Bus

open Bus

theorem Board.Basic.observes_read (c : Context) (addr : UInt32) (s : Acting Basic) :
    (Basic.read c addr).Observes s := by
  unfold read
  split <;> simp

theorem Board.Power.observes_read (c : Context) (addr : UInt32) (s : Acting Power) :
    (Power.read c addr).Observes s := by
  simp [read]

theorem Board.ImageEngine.observes_read (c : Context) (addr : UInt32) (s : Acting ImageEngine) :
    (ImageEngine.read c addr).Observes s := by
  simp [read]

/-- The alternating lines change when they are read. -/
theorem Board.Gpio.observes_read (c : Context) {addr : UInt32} (s : Acting Gpio)
    (h : isToggle (addr &&& 0xFFFF) → isLedAddress c.model addr) :
    (Gpio.read c addr).Observes s := by
  unfold read
  refine .device_bind ?_
  by_cases hled : isLedAddress c.model addr
  · simp [hled]
  · have htoggle : ¬ isToggle (addr &&& 0xFFFF) := fun ht => hled (h ht)
    simp [hled, htoggle]

theorem Board.Digic6.observes_read (c : Context) (addr : UInt32) (s : Acting Digic6) :
    (Digic6.read c addr).Observes s := by
  simp [read]

theorem Console.observes_read (c : Context) (addr : UInt32) (s : Acting Uart) :
    (Console.read c addr).Observes s := by
  unfold read readRegister
  split
  · simp
  · split <;> simp

theorem Display.observes_read (c : Context) (addr : UInt32) (s : Acting Registers) :
    (Display.read c addr).Observes s := by
  simp [read]

theorem Flash.Gate.observes_read (c : Context) (addr : UInt32) (s : Acting Gate) :
    (Gate.read c addr).Observes s := by
  simp [read]

/-- A bank answers without a change, unless it reports on a block erase. -/
theorem Flash.Bank.answer_snd {b : Bank} (h : b.state ≠ .eraseBusy) (offset : UInt32) :
    (b.answer offset).2 = b := by
  unfold answer
  split
  · rfl
  · exact absurd ‹_› h
  · rfl

theorem Flash.Banks.read_snd {f : Banks} {n : Nat} {b : Bank} (hget : f.get? n = some b)
    (h : f.commands = true → b.state ≠ .eraseBusy) (addr : UInt32) : (f.read n b addr).2 = f := by
  unfold read
  dsimp only
  split
  case isTrue hcommands =>
    obtain ⟨hn, rfl⟩ := Vector.getElem?_eq_some_iff.1 hget
    rw [Bank.answer_snd (h hcommands)]
    exact set_self f ⟨n, hn⟩
  case isFalse => rfl

/-- A bank that is erasing a block counts the reads of its status. -/
theorem Flash.observes_read (c : Context) (addr : UInt32) (s : Acting Banks)
    (h : ∀ b, s.device.get? c.window.param.toNat = some b → s.device.commands = true →
      b.state ≠ .eraseBusy) : (Flash.read c addr).Observes s := by
  unfold read
  refine .device_bind ?_
  dsimp only
  cases hget : s.device.get? c.window.param.toNat with
  | none => exact .pure 0
  | some b =>
    have hsame := Banks.read_snd hget (h b hget) addr
    have hupdate : (Action.update fun _ => s.device : Action Banks Unit).Observes s :=
      ⟨(), [], by simp, by simp [Action.update_apply]⟩
    dsimp only
    rw [hsame]
    refine .bind hupdate fun _ t _ => ?_
    split
    · exact .pure _
    · exact .bind (.note rfl) fun _ _ _ => .pure 0

theorem Timer.observes_read (c : Context) (addr : UInt32) (s : Acting Timebase) :
    (Timer.read c addr).Observes s := by
  unfold read readTimer
  split
  · simp
  · split <;> simp

theorem Timer.observes_readCompare (c : Context) (addr : UInt32) (s : Acting Timebase) :
    (readCompare c addr).Observes s := by
  simp [readCompare]

theorem Dma.observes_read (c : Context) (addr : UInt32) (s : Acting Bench) :
    (Dma.read c addr).Observes s := by
  unfold read
  refine .device_bind ?_
  split
  · simp
  · split <;> simp

/-- The switch of image DMA refuses to be read. -/
theorem Edmac.observes_read (c : Context) (addr : UInt32) (s : Acting Engine)
    (hkind : c.window.kind ≠ .edmacSwitch)
    (hlt : channelOf c.window.param addr < channelCount) : (Edmac.read c addr).Observes s := by
  have hselect : (selectChannel c addr).Observes s :=
    ⟨_, [], by simp, by simpa using selectChannel_of_lt hlt⟩
  unfold read
  rw [if_neg hkind]
  exact .bind hselect fun _ _ _ => c.observes_answer addr _ _

theorem Sd.observes_read {κ : Type} (c : Context) (addr : UInt32) (s : Acting (Bench κ)) :
    (Sd.read c addr : Action (Bench κ) UInt32).Observes s := by
  simp [read]

/-- A drive sees each access to its task file. -/
theorem Cf.observes_read {δ : Type} [AtaDrive δ] (c : Context) (addr : UInt32)
    (s : Acting (Host δ)) (hdata : c.window.kind ≠ .cfDma → Register.ofAddress addr ≠ .data)
    (htask : c.window.kind ≠ .cfDma → ∀ n, Register.ofAddress addr ≠ .taskFile n) :
    (Cf.read c addr : Action (Host δ) UInt32).Observes s := by
  unfold read
  dsimp only
  split
  · refine .bind ?_ fun _ _ _ => ?_
    · simp [getDmaRegister]
    · simp
  · next hkind =>
    refine .bind ?_ fun _ _ _ => ?_
    · cases hregister : Register.ofAddress addr
      case data => exact absurd hregister (hdata hkind)
      case taskFile n => exact absurd hregister (htask hkind n)
      all_goals simp [getRegister]
    · simp

/-- To read which line is in service drops it from service. -/
theorem Interrupt.observes_read (c : Context) (addr : UInt32) (s : Acting Controller)
    (h : c.window.kind ≠ .interruptMasks → ∀ shift, Register.ofAddress addr ≠ .reason shift) :
    (Interrupt.read c addr).Observes s := by
  unfold read
  split
  · simp
  · next hkind =>
    unfold readRegister
    cases hregister : Register.ofAddress addr
    case reason shift => exact absurd hregister (h hkind shift)
    all_goals simp

end Digic
