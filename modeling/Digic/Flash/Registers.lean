import Digic.Bus.Action
import Digic.Flash.Bank
/-!
# ROM and the write gate

ROM is read and written through the windows of its banks. The write gate is one register that takes
the command to allow writes.
-/
namespace Digic.Flash

open Bus

/-- Reads ROM. The window's parameter is the number of the bank; there is nothing to read in a bank
that does not exist, or in the middle of a command. -/
def read (c : Context) (addr : UInt32) : Action Banks UInt32 := do
  let n := c.window.param.toNat
  let banks ← Action.device
  match banks.get? n with
  | none => return 0
  | some bank =>
    let (value?, after) := banks.read n bank addr
    Action.update fun _ => after
    match value? with
    | some value => return value
    | none =>
      Action.note (.flashUnreadable n bank.state c.pc (bank.offset addr >>> 1))
      return 0

def tellResponse (c : Context) (n : Nat) (bank : Bank) (offset value : UInt32) :
    Action Banks Unit := do
  let r := bank.response offset value
  if r.violation then
    Action.note (.flashViolation n bank.state c.pc value (offset >>> 1))
  else if !r.remark.isEmpty then
    Action.note (.flashCommand n bank.state c.pc r.remark (bank.base + offset))

def write (c : Context) (addr value : UInt32) : Action Banks Unit := do
  let n := c.window.param.toNat
  let banks ← Action.device
  match banks.get? n with
  | none => return
  | some bank =>
    Action.update fun banks => banks.write n bank addr value
    if banks.commands then
      tellResponse c n bank (bank.offset addr) value

/-- The write gate. -/
structure Gate where
  writeEnabled : Bool
  deriving DecidableEq, Repr

namespace Gate

def new : Gate := ⟨false⟩

/-- The half-word that allows writes. -/
def magic : UInt32 := 0xD9C5

/-- Whether a value is the command to allow writes: its halves, laid over each other, make the
magic half-word. -/
def allowsWrites (value : UInt32) : Bool := (value ||| value >>> 16) &&& 0xFFFF == magic

def set (g : Gate) (value : UInt32) : Gate :=
  if allowsWrites value then ⟨true⟩ else if value = 0 then ⟨false⟩ else g

def isCommand (addr : UInt32) : Bool := addr &&& 0x1FF == 0x10

def read (c : Context) (addr : UInt32) : Action Gate UInt32 :=
  c.answer addr (if isCommand addr then 1 else 0) ""

def write (c : Context) (addr value : UInt32) : Action Gate Unit :=
  if isCommand addr then do
    Action.update (·.set value)
    c.traceWrite addr value <|
      if allowsWrites value then "'Write enable' enabled"
      else if value = 0 then "'Write enable' disabled"
      else "unknown command"
  else c.traceWrite addr value ""

end Gate

end Digic.Flash
