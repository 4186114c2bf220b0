import Digic.Bus.Limiter
import Digic.Cf.Registers
import Digic.Console.Uart
import Digic.Display.Compositor
import Digic.Dma.Engine
import Digic.Edmac.Engine
import Digic.Flash.Registers
import Digic.Handler.Table
import Digic.Interrupt.Registers
import Digic.Sd.Registers
import Digic.Board.Boot
import Digic.Board.Digic6
import Digic.Board.Gpio
import Digic.Timer.CompareRegisters
import Digic.Timer.Registers
/-!
# The state of a machine

All register files of a camera body, the processor as far as they have to do with it, and a journal
of what they had to tell. A machine has a card of state `κ` and a drive of state `δ`, once attached.
-/
namespace Digic

open Bus Log

structure Cpu where
  memory : Memory
  line : Bool
  raises : Nat
  pc : UInt32
  /-- A halted processor stops the ticks. -/
  halted : Bool

namespace Cpu

def resetVector : UInt32 := 0xFF0C0000

def new : Cpu := ⟨.blank 0, false, 0, resetVector, false⟩

/-- Moves the interrupt line as an event says. -/
def take (c : Cpu) : Interrupt.Event → Cpu
  | .delivered _ | .serviced _ => { c with line := true, raises := c.raises + 1 }
  | .released => { c with line := false }
  | _ => c

end Cpu

structure Machine (κ δ : Type) where
  model : Model
  handlers : List Handler.Entry
  limiter : Limiter
  cpu : Cpu
  interrupts : Interrupt.Controller
  time : Timer.Timebase
  flashGate : Flash.Gate
  flash : Flash.Banks
  dma : Dma.Engine
  edmac : Edmac.Engine
  sd : Sd.Host κ
  cf : Cf.Host δ
  display : Display.Registers
  console : Console.Uart
  basic : Board.Basic
  power : Board.Power
  gpio : Board.Gpio
  digic6 : Board.Digic6
  compositor : Display.Compositor
  /-- Ticks are made in the background. -/
  tickerRunning : Bool
  /-- What was told since the journal was last taken. -/
  journal : Array Notice

namespace Machine

variable {κ δ : Type}

def ofModel (m : Model) : Machine κ δ where
  model := m
  handlers := Handler.standardTable
  limiter := .new
  cpu := .new
  interrupts := .new
  time := .new
  flashGate := .new
  flash := .ofModel m
  dma := .new
  edmac := .new
  sd := .new
  cf := .new
  display := .new
  console := .new
  basic := .new
  power := .new
  gpio := .new
  digic6 := .new
  compositor := .new
  tickerRunning := false
  journal := #[]

/-- Writes a notice into the journal. An interrupt event moves the processor's line as well. -/
def tell (s : Machine κ δ) (n : Notice) : Machine κ δ :=
  match n with
  | .interrupt e => { s with cpu := s.cpu.take e, journal := s.journal.push n }
  | _ => { s with journal := s.journal.push n }

def tellEvents (s : Machine κ δ) (events : List Interrupt.Event) : Machine κ δ :=
  events.foldl (fun s e => s.tell (.interrupt e)) s

/-- Asks for an interrupt after a delay in ticks. -/
def request (s : Machine κ δ) (id delay : UInt32) : Machine κ δ :=
  let (interrupts, events) := s.interrupts.request id delay
  { s with interrupts }.tellEvents events

def absorb (s : Machine κ δ) : Effect → Machine κ δ
  | .note n => s.tell n
  | .request id delay => s.request id delay

/-- The journal, and the machine without it. -/
def takeJournal (s : Machine κ δ) : Array Notice × Machine κ δ :=
  (s.journal, { s with journal := #[] })

/-- Has a device act, which is a part of the machine. What the device did before a fault stays. -/
def act {σ α : Type} (get : Machine κ δ → σ) (set : Machine κ δ → σ → Machine κ δ)
    (action : Action σ α) : EStateM Fault (Machine κ δ) α := fun s =>
  match action ⟨get s, #[]⟩ with
  | .ok value a => .ok value (a.effects.foldl absorb (set s a.device))
  | .error fault a => .error fault (a.effects.foldl absorb (set s a.device))

/-- The card lamp, in whichever register file the body has it. -/
def led (s : Machine κ δ) : Display.CardLed :=
  if s.model.isDigic6 then s.digic6.led.state else s.gpio.led.state

end Machine

end Digic
