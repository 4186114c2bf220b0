import Digic.Bus.Action
/-!
# Registers for booting

Register files that hold a value or give a fixed answer, so that firmware gets through its boot:
the clock enable register and some flags, power control, and the image engine that takes anything.
-/
namespace Digic.Board

open Bus

/-- The modules that the bits of the clock enable register switch on, from bit zero. -/
def clockModules : List String := [
  "???", "LCLK", "ASIF?", "SD1", "???", "???", "???", "???", "PWM", "???", "Tmr0", "Tmr1", "Tmr2",
  "???", "???", "???", "???", "???", "???", "???", "???", "SIO", "???", "???", "DMA0", "ASIF",
  "???", "???", "SD2", "???", "???", "???"]

def clockEnableText (value : UInt32) : String :=
  let enabled := clockModules.zipIdx.filter fun (_, bit) => value >>> bit.toUInt32 &&& 1 != 0
  "CLOCK_ENABLE: " ++ String.join (enabled.map fun (name, _) => name ++ " ")

/-- The clock enable register. -/
structure Basic where
  clockEnable : UInt32
  deriving DecidableEq

namespace Basic

def new : Basic := ⟨0⟩

/-- Fixed answers at an offset of the middle window. -/
def constant (offset : UInt32) : UInt32 × String :=
  match offset with
  | 0x0A4 => (3, "A1100 init")
  | 0x204 => (2, "")
  | 0x244 => (1, "")
  | 0x284 => (1, "5D3 display init?")
  | _ => (0, "")

def read (c : Context) (addr : UInt32) : Action Basic UInt32 := do
  let offset := addr &&& 0xFFF
  match c.window.param with
  | 0 => c.answer addr (if offset = 0x1C then 1 else 0) ""
  | 2 => if offset = 0x008 then c.answer addr 0x100 "SUSPEND_BIT" else return 0
  | _ =>
    if offset = 0x008 then
      let value := (← Action.device).clockEnable
      c.answer addr value (clockEnableText value)
    else
      let (value, remark) := constant offset
      c.answer addr value remark

def write (c : Context) (addr value : UInt32) : Action Basic Unit :=
  let atEight := addr &&& 0xFFF = 0x008
  if c.window.param = 2 then
    if atEight then c.traceWrite addr value "SUSPEND_BIT" else return
  else if c.window.param = 1 ∧ atEight then do
    Action.update fun _ => ⟨value⟩
    c.traceWrite addr value (clockEnableText value)
  else c.traceWrite addr value ""

end Basic

/-- Power control: registers that hold what is written. -/
structure Power where
  cells : Vector UInt32 64

namespace Power

def new : Power := ⟨Vector.replicate 64 0⟩

def index (addr : UInt32) : Nat := (addr &&& 0xFF).toNat / 4

def read (c : Context) (addr : UInt32) : Action Power UInt32 := do
  c.answer addr ((← Action.device).cells[index addr]?.getD 0) ""

def write (c : Context) (addr value : UInt32) : Action Power Unit := do
  Action.update fun p => ⟨p.cells.setIfInBounds (index addr) value⟩
  c.traceWrite addr value ""

end Power

structure ImageEngine where
  deriving DecidableEq

namespace ImageEngine

def read (c : Context) (addr : UInt32) : Action ImageEngine UInt32 := c.answer addr 0 ""

def write (c : Context) (addr value : UInt32) : Action ImageEngine Unit :=
  c.traceWrite addr value ""

end ImageEngine

end Digic.Board
