import Digic.Board.Led
/-!
# General purpose lines

Switches, connectors and detectors of older generations. Their state is fixed to what gets each body
through its checks. Two lines alternate, one remembers, and one may drive the card lamp.
-/
namespace Digic.Board

open Bus

structure Gpio where
  /-- What the alternating lines read next. -/
  toggle : UInt32
  busy : UInt32
  led : Led
  deriving DecidableEq

namespace Gpio

def new : Gpio := ⟨0, 1, .new⟩

/-- The fixed answer at an offset, with a remark; lines that nothing is known of read one. -/
def constant (model : String) (offset : UInt32) : UInt32 × String :=
  match offset with
  | 0xCB6C => (0x10, "5D3/6D expected to be 0x10")
  | 0xFA04 => (0, "6D expected to be 0")
  | 0xF480 =>
    if model = "5D2" ∨ model = "50D" then (0x6000, "VSW_STATUS 5D2/50D")
    else (0xC0000, "VSW_STATUS")
  | 0xF48C => (0x10C, "70D/6D SD detect?")
  | 0x019C | 0x0080 => (0, "System check")
  | 0x00DC => (0, "abort situation for FROMUTIL on 600D")
  | 0x00B0 => (0, "FUNC SW OFF on 7D")
  | 0x0024 => (0, "master woke up on 7D")
  | 0x0108 => (1, "ERASE SW OFF")
  | 0x010C => (1, "something from hotplug task on 60D")
  | 0x0014 => (0, "/VSW_ON")
  | 0x0168 => (0, "70D write protect")
  | 0x301C | 0x3020 => (0, "CF detect")
  | 0x0070 | 0x0164 | 0x0174 => (1, "VIDEO CONNECT")
  | 0x00E8 | 0x0160 | 0x016C => (1, "MIC CONNECT")
  | 0x015C | 0x017C => (0, "USB CONNECT")
  | 0x0124 | 0x0138 | 0x0150 => (0, "HDMI CONNECT")
  | _ => (1, "")

def isToggle (offset : UInt32) : Bool := offset == 0xF100 || offset == 0xF198

def busyOffset : UInt32 := 0x0098

def read (c : Context) (addr : UInt32) : Action Gpio UInt32 := do
  let offset := addr &&& 0xFFFF
  let g ← Action.device
  if isLedAddress c.model addr then
    c.answer addr g.led.stored "Card LED"
  else if isToggle offset then
    Action.update fun g => { g with toggle := g.toggle ^^^ 1 }
    c.answer addr g.toggle ""
  else if offset = busyOffset then
    c.answer addr g.busy ""
  else
    let (value, remark) := constant c.model.name offset
    c.answer addr value remark

def write (c : Context) (addr value : UInt32) : Action Gpio Unit :=
  if isLedAddress c.model addr then do
    Action.update fun g => { g with led := g.led.set value false }
    tellLed c addr value false
  else if addr &&& 0xFFFF = busyOffset then do
    Action.update fun g => { g with busy := value }
    c.traceWrite addr value (if value &&& 2 ≠ 0 then "SRM_SetBusy" else "SRM_ClearBusy")
  else c.traceWrite addr value ""

end Gpio

end Digic.Board
