import Digic.Proofs.Machine.Service
/-!
# What a register file does to its machine

A register file changes its own part of the machine, and some change memory. What it does to the
rest it does by effects, which are brought about one after the other when it is done. Only the
interrupt controller is treated by itself.
-/
namespace Digic

open Bus

namespace Machine

variable {κ δ : Type}

/-- What no register file but the interrupt controller changes by itself: what interrupts are served
by, what accesses are decoded by, and the journal. -/
structure Spares (s t : Machine κ δ) : Prop where
  model : t.model = s.model
  handlers : t.handlers = s.handlers
  interrupts : t.interrupts = s.interrupts
  line : t.cpu.line = s.cpu.line
  raises : t.cpu.raises = s.cpu.raises
  journal : t.journal = s.journal

/-- A computation of a register file. It changes its own part of the machine and leaves plain
effects. -/
def Acts {α : Type} (m : Model) (d : Handler.Device) (a : EStateM Fault (Machine κ δ) α)
    (s : Machine κ δ) : Prop :=
  ∃ (effects : List Effect) (t : Machine κ δ), (∀ e ∈ effects, e.Plain m d) ∧ s.Spares t ∧
    (d ≠ .console → t.console = s.console) ∧ stateAfter a s = effects.foldl absorb t

variable {m : Model} {d : Handler.Device}

theorem acts_act {σ α : Type} {get : Machine κ δ → σ} {set : Machine κ δ → σ → Machine κ δ}
    {a : Action σ α} (ha : a.Plain m d) {s : Machine κ δ} (hset : ∀ x, s.Spares (set s x))
    (hconsole : d ≠ .console → ∀ x, (set s x).console = s.console) :
    Acts m d (act get set a) s := by
  have hplain : ∀ e ∈ (stateAfter a ⟨get s, #[]⟩).effects, e.Plain m d := ha _ (by simp)
  exact ⟨_, _, fun e he => hplain e (Array.mem_toList_iff.1 he), hset _,
    fun hd => hconsole hd _, stateAfter_act get set a s⟩

theorem acts_readDevice [Cf.AtaDrive δ] (m : Model) (hd : d ≠ .interrupts) (w : Handler.Window)
    (addr : UInt32) (s : Machine κ δ) : Acts m d (readDevice d w addr) s := by
  rw [Acts, readDevice, stateAfter_get_bind]
  cases d
  case interrupts => exact absurd rfl hd
  all_goals
    refine acts_act ?_ (by exact fun _ => ⟨rfl, rfl, rfl, rfl, rfl, rfl⟩)
      (by first | exact fun _ _ => rfl | exact absurd rfl)
  case flashGate => exact Flash.Gate.plain_read _ addr
  case rom => exact Flash.plain_read _ addr
  case timers => exact Timer.plain_read _ addr
  case compare => exact Timer.plain_readCompare _ addr
  case dma => exact Dma.plain_read _ addr
  case edmac => exact Edmac.plain_read _ addr
  case sd => exact Sd.plain_read _ addr
  case cf => exact Cf.plain_read _ addr
  case display => exact Display.plain_read _ addr
  case console => exact Console.plain_read _ addr
  case basic => exact Board.Basic.plain_read _ addr
  case power => exact Board.Power.plain_read _ addr
  case gpio => exact Board.Gpio.plain_read _ addr
  case digic6 => exact Board.Digic6.plain_read _ addr
  case imageEngine => exact Board.ImageEngine.plain_read _ addr

theorem acts_writeDevice [Sd.SdCard κ] [Cf.AtaDrive δ] (hd : d ≠ .interrupts)
    (w : Handler.Window) (addr value : UInt32) (s : Machine κ δ) :
    Acts s.model d (writeDevice d w addr value) s := by
  rw [Acts, writeDevice, stateAfter_get_bind]
  cases d
  case interrupts => exact absurd rfl hd
  all_goals
    refine acts_act ?_ (by exact fun _ => ⟨rfl, rfl, rfl, rfl, rfl, rfl⟩)
      (by first | exact fun _ _ => rfl | exact absurd rfl)
  case flashGate => exact Flash.Gate.plain_write _ addr value
  case rom => exact Flash.plain_write _ addr value
  case timers => exact Timer.plain_write (s.context w) addr value
  case compare => exact Timer.plain_writeCompare _ addr value
  case dma => exact Dma.plain_write _ addr value
  case edmac => exact Edmac.plain_write _ addr value
  case sd => exact Sd.plain_write _ addr value
  case cf => exact Cf.plain_write _ addr value
  case display => exact Display.plain_write _ addr value
  case console => exact Console.plain_write _ addr value
  case basic => exact Board.Basic.plain_write _ addr value
  case power => exact Board.Power.plain_write _ addr value
  case gpio => exact Board.Gpio.plain_write _ addr value
  case digic6 => exact Board.Digic6.plain_write _ addr value
  case imageEngine => exact Board.ImageEngine.plain_write _ addr value

/-- The transfers of the CF host. -/
theorem acts_transfers [Cf.AtaDrive δ] (m model : Model) (s : Machine κ δ) :
    Acts m .cf (actCfBench (Cf.pass model)) s :=
  acts_act (Cf.plain_pass model) (by exact fun _ => ⟨rfl, rfl, rfl, rfl, rfl, rfl⟩)
    (by exact fun _ _ => rfl)

/-- A pass of the CF host is its transfers, and then requests for the interrupts of completions. If
the transfers end in a fault, nothing is asked for. -/
theorem exists_passCf [Cf.AtaDrive δ] (s : Machine κ δ) :
    ∃ ids : List UInt32,
      (∀ id ∈ ids, id = s.model.cfDriverInterrupt ∨ id = s.model.cfDmaInterrupt) ∧
      stateAfter passCf s = ids.foldl (fun s id => s.request id 0)
        (stateAfter (actCfBench (Cf.pass s.model)) s) := by
  have hgives := Cf.gives_pass (δ := δ) (m := s.model)
    (Q := fun id => id = s.model.cfDriverInterrupt ∨ id = s.model.cfDmaInterrupt)
    (.inl rfl) (.inr rfl)
  rw [passCf, stateAfter_get_bind, stateAfter_bind]
  cases h : actCfBench (Cf.pass s.model) s with
  | ok ids t =>
    refine ⟨ids, ?_, by rw [stateAfter, h]; rfl⟩
    simp only [actCfBench, act] at h
    split at h
    case h_1 value after hok =>
      cases h
      exact hgives _ _ _ hok
    case h_2 => cases h
  | error fault t => exact ⟨[], by simp, by rw [stateAfter, h]; rfl⟩

end Machine

end Digic
