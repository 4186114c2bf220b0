import Digic.Bus.Action
import Digic.Timer.Timebase
/-!
# Registers of the compare channels
-/
namespace Digic.Timer

open Bus

inductive CompareRegister where
  | active (channel : Nat)
  | compare (channel : Nat)
  /-- Takes anything to forget a match. -/
  | clear (channel : Nat)
  /-- Gives the latched matches. -/
  | status
  | other
  deriving DecidableEq, Repr

def CompareRegister.ofAddress (addr : UInt32) : CompareRegister :=
  let offset := addr &&& 0xFFF
  let channel := ((addr &&& 0xF0) >>> 4).toNat - 6
  if 0x160 ≤ offset ∧ offset ≤ 0x1DF then
    match addr &&& 0xF with
    | 0x0 => .active channel
    | 0x4 => .compare channel
    | _ => .other
  else if 0x260 ≤ offset ∧ offset ≤ 0x2DF then
    match addr &&& 0xF with
    | 0x4 => .clear channel
    | _ => .other
  else if offset = 0x300 then .status
  else .other

def readCompare (c : Context) (addr : UInt32) : Action Timebase UInt32 := do
  let channels := (← Action.device).channels
  let (value, remark) : UInt32 × String := match CompareRegister.ofAddress addr with
    | .active id => (((channels.get? id).map Channel.active).getD 0, "status?")
    | .compare id => (((channels.get? id).map Channel.compare).getD 0, "output compare")
    | .status => (channels.triggeredMask, "which timer(s) triggered")
    | _ => (0, "")
  c.answer addr value remark

def updateChannels (f : CompareBank → CompareBank) : Action Timebase Unit :=
  Action.update fun t => { t with channels := f t.channels }

def writeCompare (c : Context) (addr value : UInt32) : Action Timebase Unit :=
  match CompareRegister.ofAddress addr with
  | .active id => do
    updateChannels (·.setActive id value)
    c.traceWrite addr value <| match value with
      | 1 => s!"HPTimer {id + 1}/8: active"
      | 0 => s!"HPTimer {id + 1}/8: inactive"
      | _ => "???"
  | .compare id => do
    updateChannels (·.setCompare id value)
    let delay := (value - (← Action.device).clock.value) &&& 0xFFFFF
    c.traceWrite addr value
      s!"HPTimer {id + 1}/8: output compare (delay {delay} microseconds)"
  | .clear id => do
    updateChannels (·.clear id)
    c.traceWrite addr value s!"HPTimer {id + 1}/8: reset trigger?"
  | _ => c.traceWrite addr value ""

end Digic.Timer
