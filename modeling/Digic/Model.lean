import Digic.ConfigError
/-!
# Camera models

What differs between one camera body and another: ROM layout, interrupt numbers, the timer that
serves as tick source, the kind of screen.
-/
namespace Digic

/-- Where a ROM bank begins on the bus and how many bytes it has. -/
structure RomLayout where
  base : UInt32
  size : UInt32
  deriving DecidableEq, Repr

inductive ScreenKind where
  | lcd | hdmi1080 | hdmi480 | sdPal | sdNtsc
  deriving DecidableEq, Repr

/-- The standard by which luma and chroma make a colour. -/
inductive ColorMatrix where
  | bt601 | bt709
  deriving DecidableEq, Repr

structure Model where
  name : String
  /-- The generation of the processor. -/
  digicVersion : UInt8
  rom : Vector RomLayout 2
  timerInterrupt : UInt32
  hptimerInterrupt : UInt32
  /-- The timer whose start asks for the interrupt of the operating system's tick. -/
  osTimer : Nat
  sdDriverInterrupt : UInt32
  sdDmaInterrupt : UInt32
  cfDriverInterrupt : UInt32
  cfDmaInterrupt : UInt32
  /-- Whether ROM follows the command protocol of flash memory. If not, it is plain memory. -/
  flashCommands : Bool
  cardLedAddress : Option UInt32
  screen : ScreenKind
  colorMatrix : ColorMatrix
  /-- Microseconds from one tick to the next. -/
  tickPeriod : Nat

namespace Model

/-- A body of the fifth generation, in no way special. -/
def standard : Model where
  name := "DIGIC5"
  digicVersion := 5
  rom := #v[⟨0xF8000000, 0x01000000⟩, ⟨0xF0000000, 0x00800000⟩]
  timerInterrupt := 0x0A
  hptimerInterrupt := 0x10
  osTimer := 2
  sdDriverInterrupt := 0x4B
  sdDmaInterrupt := 0x32
  cfDriverInterrupt := 0x82
  cfDmaInterrupt := 0xE3
  flashCommands := true
  cardLedAddress := none
  screen := .lcd
  colorMatrix := .bt709
  tickPeriod := 0x100

def isDigic6 (m : Model) : Bool := m.digicVersion == 6

end Model

/-- Whether exactly one bit is set. -/
def isPowerOfTwo (w : UInt32) : Bool := w != 0 && w &&& (w - 1) == 0

/-- The first bank of those numbered from `bank` on whose size is no power of two. -/
def misSizedBank? (bank : Nat) : List RomLayout → Option ConfigError
  | [] => none
  | rom :: rest =>
    if isPowerOfTwo rom.size then misSizedBank? (bank + 1) rest
    else some (.romSizeNotPowerOfTwo bank rom.size)

/-- Checks what the rest of the machine relies on. -/
def Model.validate (m : Model) : Except ConfigError Unit :=
  match misSizedBank? 0 m.rom.toList with
  | some e => .error e
  | none => .ok ()

end Digic
