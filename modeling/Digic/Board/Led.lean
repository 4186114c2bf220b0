import Digic.Bus.Action
import Digic.Display.Compositor
/-!
# The register of the card lamp

Each generation has its own codes to switch the lamp. The register reads back what was written.
-/
namespace Digic.Board

open Bus Display

def decodeLed6 (value : UInt32) : Option CardLed :=
  if value &&& 0x0F000F = 0x0D0002 then some .on
  else if value &&& 0x0F000F = 0x0C0003 then some .off
  else if value = 0x8A0075 then some .off
  else none

def decodeLed (value : UInt32) : Option CardLed :=
  match value with
  | 0x46 | 0x138800 | 0x93D800 => some .on
  | 0x44 | 0x838C00 | 0x40 | 0x038C00 | 0x83DC00 | 0x0E000000 => some .off
  | _ => none

structure Led where
  state : CardLed
  /-- The value written last. -/
  stored : UInt32
  deriving DecidableEq

namespace Led

def new : Led := ⟨.unknown, 0⟩

/-- The register after a write. A code without a meaning leaves the lamp as it is. -/
def set (l : Led) (value : UInt32) (digic6 : Bool) : Led where
  state := (if digic6 then decodeLed6 value else decodeLed value).getD l.state
  stored := value

def notice? (value : UInt32) (digic6 : Bool) : Option Log.Notice :=
  match if digic6 then decodeLed6 value else decodeLed value with
  | some _ => none
  | none => some (.unknownLedCode value)

end Led

def isLedAddress (m : Model) (addr : UInt32) : Bool := m.cardLedAddress == some addr

def tellLed {σ : Type} (c : Context) (addr value : UInt32) (digic6 : Bool) : Action σ Unit := do
  match Led.notice? value digic6 with
  | some n => Action.note n
  | none => pure ()
  c.traceWrite addr value "Card LED"

end Digic.Board
