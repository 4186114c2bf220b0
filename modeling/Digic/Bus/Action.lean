import Digic.Fault
import Digic.Handler.Kind
import Digic.Log.Notice
import Digic.Model
/-!
# Actions of a device

What a device does in one access or tick is an action on its state. Beside changing the state, an
action leaves effects for the rest of the machine, in order. It may end in a fault; state and
effects up to the fault stay.
-/
namespace Digic.Bus

/-- What a device asks of the rest of the machine. -/
inductive Effect where
  | note (n : Log.Notice)
  /-- Asks for an interrupt, after some ticks or now. -/
  | request (id delay : UInt32)
  deriving DecidableEq

/-- A device in the middle of an action. -/
structure Acting (σ : Type) where
  device : σ
  /-- The effects so far. -/
  effects : Array Effect

/-- An action on a device of state `σ`. -/
abbrev Action (σ : Type) := EStateM Fault (Acting σ)

namespace Action

variable {σ : Type}

def device : Action σ σ := do return (← get).device

def update (f : σ → σ) : Action σ Unit := modify fun a => { a with device := f a.device }

def emit (e : Effect) : Action σ Unit := modify fun a => { a with effects := a.effects.push e }

def note (n : Log.Notice) : Action σ Unit := emit (.note n)

def request (id delay : UInt32) : Action σ Unit := emit (.request id delay)

def fail {α : Type} (f : Fault) : Action σ α := throw f

def require (p : Prop) [Decidable p] (f : Fault) : Action σ Unit := if p then pure () else fail f

end Action

/-- What an access brings along besides address and value. -/
structure Context where
  window : Handler.Window
  /-- The program counter. -/
  pc : UInt32
  model : Model

namespace Context

variable {σ : Type}

def traceRead (c : Context) (addr value : UInt32) (remark : String) : Action σ Unit :=
  Action.note (.access ⟨c.window.name, c.pc, addr, .read, value, remark⟩)

def traceWrite (c : Context) (addr value : UInt32) (remark : String) : Action σ Unit :=
  Action.note (.access ⟨c.window.name, c.pc, addr, .write, value, remark⟩)

/-- Traces a read and gives its value. -/
def answer (c : Context) (addr value : UInt32) (remark : String) : Action σ UInt32 := do
  c.traceRead addr value remark
  return value

end Context

end Digic.Bus
