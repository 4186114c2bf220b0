import Digic.Board.Led
/-!
# Board registers of the sixth generation
-/
namespace Digic.Board

open Bus

structure Digic6 where
  clockEnable : UInt32
  /-- The command that was put to the serial bus last. -/
  serialCommand : UInt32
  led : Led
  deriving DecidableEq

namespace Digic6

def new : Digic6 := ⟨0, 0, .new⟩

def clockEnableAddress : UInt32 := 0xD2090008

def serialAddress : UInt32 := 0xD6050000

def constant? (addr : UInt32) : Option (UInt32 × String) :=
  match addr with
  | 0xD203046C | 0xD203086C => some (1, "7D2 init")
  | 0xD20B053C => some (0x10000, "PhySwBootSD")
  | 0xD20BF4A0 => some (0x10077FFB, "PhySwKeyboard 0")
  | 0xD20BF4B0 => some (0x00001425, "PhySw 1")
  | 0xD20BF4D8 => some (0x20BB4D30, "PhySw 2")
  | 0xD20BF4F0 => some (0x00000840, "PhySw Internal Flash + ")
  | 0xD20B0400 | 0xD20B22A8 => some (0, "SD detect")
  | 0xD20B210C => some (0x10000, "CF detect")
  | 0xD6040000 => some (0x03008000, "")
  | 0xD9890014 => some (0x00020310, "Battery level maybe (ADC?)")
  | 0xD02C3004 | 0xD02C3024 | 0xD02C4004 | 0xD02C4024 => some (0xFF, "AVS??")
  | _ => none

/-- Whether an address is polled so often that it is not traced. -/
def isQuiet (addr : UInt32) : Bool := addr == 0xD2030000 || addr == 0xD20F0000

def serialStatus (command : UInt32) : UInt32 :=
  if command &&& 0x8000 ≠ 0 then 0x02100100 else 0x00020000

def read (c : Context) (addr : UInt32) : Action Digic6 UInt32 := do
  let d ← Action.device
  if isLedAddress c.model addr then
    c.answer addr d.led.stored "Card LED"
  else if isQuiet addr then
    return 0
  else if addr = clockEnableAddress then
    c.answer addr d.clockEnable "CLOCK_ENABLE"
  else if addr = serialAddress then
    c.answer addr (serialStatus d.serialCommand) "I2C status?"
  else
    let (value, remark) := (constant? addr).getD (0, "")
    c.answer addr value remark

def write (c : Context) (addr value : UInt32) : Action Digic6 Unit :=
  if isLedAddress c.model addr then do
    Action.update fun d => { d with led := d.led.set value c.model.isDigic6 }
    tellLed c addr value c.model.isDigic6
  else if isQuiet addr then return
  else if addr = clockEnableAddress then do
    Action.update fun d => { d with clockEnable := value }
    c.traceWrite addr value "CLOCK_ENABLE"
  else if addr = serialAddress then do
    Action.update fun d => { d with serialCommand := value }
    c.traceWrite addr value ""
  else c.traceWrite addr value (((constant? addr).map Prod.snd).getD "")

end Digic6

end Digic.Board
