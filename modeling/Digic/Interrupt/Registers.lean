import Digic.Bus.Action
import Digic.Interrupt.Controller
/-!
# Registers of the interrupt controller

Two windows: one in which lines are named by their numbers, and an older one in which a mask names
up to 32 consecutive lines.
-/
namespace Digic.Interrupt

open Bus

def perform (operation : Controller → Controller × List Event) : Action Controller Unit := do
  let (controller, events) := operation (← Action.device)
  Action.update fun _ => controller
  events.forM fun e => Action.note (.interrupt e)

/-- The registers of the newer window, decoded from the low bits of an address. -/
inductive Register where
  /-- The line in service, shifted left by so many bits. Reading drops it from service. -/
  | reason (shift : UInt32)
  /-- Takes the number of a line to enable. -/
  | enable
  /-- Takes anything but zero to drop what is in service. -/
  | reset
  | other
  deriving DecidableEq, Repr

def Register.ofAddress (addr : UInt32) : Register :=
  match addr &&& 0xFFF with
  | 0x000 => .reason 0
  | 0x004 => .reason 2
  | 0x010 => .enable
  | 0x200 => .reset
  | _ => .other

def acknowledge (shift : UInt32) : Action Controller UInt32 := do
  let (value, controller, events) := (← Action.device).acknowledge shift
  Action.update fun _ => controller
  events.forM fun e => Action.note (.interrupt e)
  return value

def readRegister (c : Context) (addr : UInt32) : Action Controller UInt32 :=
  match Register.ofAddress addr with
  | .reason shift => do
    let value ← acknowledge shift
    if value = 0 ∧ 3 < c.model.digicVersion then
      Action.note .nothingInService
    if value >>> shift ≠ c.model.timerInterrupt then
      c.traceRead addr value "requested int reason"
    return value
  | .enable => return 0
  | .reset => c.answer addr 0 "read after enabling interrupts"
  | .other => c.answer addr 0 ""

def writeRegister (c : Context) (addr value : UInt32) : Action Controller Unit :=
  match Register.ofAddress addr with
  | .enable => do
    perform (·.enable value)
    if value ≠ c.model.timerInterrupt then
      c.traceWrite addr value "enabled interrupt"
  | .reset =>
    if value ≠ 0 then do
      Action.update (·.dismiss)
      c.traceWrite addr value "reset IRQ"
    else c.traceWrite addr value ""
  | .reason _ => c.traceWrite addr value "wrote int reason ???"
  | .other => c.traceWrite addr value ""

/-- The lines that a mask names: bit `i` stands for line `i` of those from the base on that the
address gives. -/
def maskedLines (addr mask : UInt32) : List UInt32 :=
  ((List.range 32).filter fun i => (mask >>> i.toUInt32) &&& 1 != 0).map fun i =>
    ((addr &&& 0xF0) >>> 1) + i.toUInt32

def writeMask (c : Context) (addr mask : UInt32) : Action Controller Unit :=
  match addr &&& 0xF with
  | 0x8 => do
    (maskedLines addr mask).forM fun id => perform (·.enable id)
    c.traceWrite addr mask "enabled interrupts"
  | 0xC => do
    (maskedLines addr mask).forM fun id => perform (·.disable id)
    c.traceWrite addr mask "reset interrupts"
  | _ => c.traceWrite addr mask ""

/-- Reads through either window; masks read as zero. -/
def read (c : Context) (addr : UInt32) : Action Controller UInt32 :=
  match c.window.kind with
  | .interruptMasks => c.answer addr 0 ""
  | _ => readRegister c addr

def write (c : Context) (addr value : UInt32) : Action Controller Unit :=
  match c.window.kind with
  | .interruptMasks => writeMask c addr value
  | _ => writeRegister c addr value

end Digic.Interrupt
