import Digic.Bus.Action
import Digic.Timer.Timebase
/-!
# Registers of clock and timers

Older generations give each timer `0x100` bytes, the sixth `0x40` bytes from timer 3 on.
-/
namespace Digic.Timer

open Bus

def timerOf? (param addr : UInt32) : Option Nat :=
  if param = 0 then some ((addr &&& 0xF00) >>> 8).toNat
  else
    let slot := ((addr &&& 0xFC0) >>> 6).toNat
    if 6 ≤ slot ∧ slot - 6 < timerCount then some (slot - 6) else none

inductive Register where
  /-- Starts the timer or stops it. -/
  | control
  | reload
  | current
  | interruptEnable
  | other
  deriving DecidableEq, Repr

def Register.ofAddress (addr : UInt32) : Register :=
  match addr &&& 0x1F with
  | 0x00 => .control
  | 0x08 => .reload
  | 0x0C => .current
  | 0x10 => .interruptEnable
  | _ => .other

def readTimer (c : Context) (addr : UInt32) (id : Nat) : Action Timebase UInt32 := do
  let timers := (← Action.device).timers
  let (value, remark) : UInt32 × String := match Register.ofAddress addr with
    | .control => (0, "ready")
    | .reload => (timers.reload id, "reload")
    | .current => (((timers.get? id).map Counter.current).getD 0, "current value")
    | _ => (0, "")
  c.answer addr value s!"Timer #{id}: {remark}"

def updateTimers (f : Bank → Bank) : Action Timebase Unit :=
  Action.update fun t => { t with timers := f t.timers }

/-- Starts a timer. For the timer of the operating system, asks for the interrupt of its tick. -/
def startTimer (c : Context) (addr value : UInt32) (id : Nat) : Action Timebase Unit := do
  updateTimers (·.start id)
  if id = c.model.osTimer then
    let reload := (← Action.device).timers.reload id
    Action.request c.model.timerInterrupt (reload >>> 8)
    c.traceWrite addr value s!"Timer #{id}: starting triggering"
  else c.traceWrite addr value s!"Timer #{id}: starting"

def writeTimer (c : Context) (addr value : UInt32) (id : Nat) : Action Timebase Unit :=
  match Register.ofAddress addr with
  | .control =>
    if value &&& 1 ≠ 0 then startTimer c addr value id
    else do
      updateTimers (·.stop id)
      c.traceWrite addr value s!"Timer #{id}: stopped"
  | .reload => do
    updateTimers (·.setReload id value)
    let millis := (value.toNat + 1) / 1000
    c.traceWrite addr value s!"Timer #{id}: will trigger after {millis} ms"
  | .interruptEnable => c.traceWrite addr value s!"Timer #{id}: interrupt enable?"
  | _ => c.traceWrite addr value s!"Timer #{id}: "

def read (c : Context) (addr : UInt32) : Action Timebase UInt32 :=
  match c.window.kind with
  | .clock => do return (← Action.device).clock.value
  | _ =>
    match timerOf? c.window.param addr with
    | some id => readTimer c addr id
    | none => c.answer addr 0 "no such timer"

def write (c : Context) (addr value : UInt32) : Action Timebase Unit :=
  match c.window.kind with
  | .clock => c.traceWrite addr value "DIGIC clock is read-only"
  | _ =>
    match timerOf? c.window.param addr with
    | some id => writeTimer c addr value id
    | none => c.traceWrite addr value "no such timer"

end Digic.Timer
