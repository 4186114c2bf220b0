import Digic.Bus.Action
/-!
# The debug console

Firmware prints its console byte by byte. All bytes are kept, and each line is told of once it ends.
One more cell, in a window of its own, holds a flag that some bodies look at.
-/
namespace Digic.Console

open Bus

/-- The interrupt that some bodies want after each byte. -/
def transmitInterrupt : UInt32 := 0x3A

/-- The value that asks for it. -/
def interruptPattern : UInt32 := 0xFFFFFFC4

/-- The bit of the receiver that says that no byte is waiting. -/
def emptyBit : UInt32 := 0x100

structure Uart where
  /-- The byte received last, and `emptyBit` once it was taken. -/
  receiver : UInt32
  interruptEnabled : Bool
  /-- The line so far. -/
  line : ByteArray
  /-- What was transmitted and not yet fetched. -/
  output : ByteArray
  flagCell : UInt32

namespace Uart

def new : Uart := ⟨emptyBit, false, .empty, .empty, 0⟩

def offer (u : Uart) (b : UInt8) : Uart := { u with receiver := b.toUInt32 }

def isPending (u : Uart) : Bool := u.receiver &&& emptyBit == 0

def lineBytes (u : Uart) : List UInt8 := u.line.data.toList

def text (u : Uart) : String := Text.Utf8.decode u.output.data.toList

/-- Forgets the console; a line that has begun goes on. -/
def clear (u : Uart) : Uart := { u with output := .empty }

def newline : UInt8 := 10

def put (u : Uart) (b : UInt8) : Uart :=
  { u with
    output := u.output.push b
    line := if b = newline then .empty else u.line.push b }

end Uart

inductive Register where
  | transmit | receive | unused | status | interrupt | other
  deriving DecidableEq, Repr

def Register.ofAddress (addr : UInt32) : Register :=
  match addr &&& 0xFF with
  | 0x00 => .transmit
  | 0x04 => .receive
  | 0x08 => .unused
  | 0x14 => .status
  | 0x18 => .interrupt
  | _ => .other

def transmit (b : UInt8) : Action Uart Unit := do
  let before ← Action.device
  Action.update (·.put b)
  if b = Uart.newline then
    Action.note (.consoleLine before.lineBytes)

def readRegister (c : Context) (addr : UInt32) : Action Uart UInt32 :=
  match Register.ofAddress addr with
  | .transmit | .unused => return 0
  | .receive => do
    let value := (← Action.device).receiver &&& 0xFF
    c.answer addr value s!"Read byte: {Text.byte value.toNat}"
  | .status => do
    if (← Action.device).isPending then
      c.answer addr 3 "Signalling RX indicator"
    else return 2
  | .interrupt => c.answer addr 1 "interrupt related?"
  | .other => c.answer addr 1 ""

def writeRegister (c : Context) (addr value : UInt32) : Action Uart Unit :=
  match Register.ofAddress addr with
  | .transmit => do
    transmit value.toUInt8
    if (← Action.device).interruptEnabled then
      Action.request transmitInterrupt 0
  | .unused => return
  | .status =>
    if value &&& 1 ≠ 0 then do
      Action.update fun u => { u with receiver := u.receiver ||| emptyBit }
      c.traceWrite addr value "Reset RX indicator"
    else return
  | .interrupt => do
    Action.update fun u => { u with interruptEnabled := value == interruptPattern }
    c.traceWrite addr value <|
      if value = interruptPattern then "enable interrupt?" else "interrupt related?"
  | .receive | .other => c.traceWrite addr value ""

def read (c : Context) (addr : UInt32) : Action Uart UInt32 :=
  if c.window.param = 1 then do return (← Action.device).flagCell else readRegister c addr

def write (c : Context) (addr value : UInt32) : Action Uart Unit :=
  if c.window.param = 1 then Action.update fun u => { u with flagCell := value }
  else writeRegister c addr value

end Digic.Console
