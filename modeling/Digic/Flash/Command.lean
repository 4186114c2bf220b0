/-!
# The command protocol of flash memory

A write to flash memory is one cycle of a command. Commands are introduced by unlock cycles at two
fixed word offsets, or by a bypass command without any. `State` says which cycle is expected next,
and `State.next` what a cycle does.
-/
namespace Digic.Flash

inductive State where
  /-- Reads give the contents of the bank. -/
  | ready
  /-- One unlock cycle of two was seen. -/
  | halfUnlocked
  | unlocked
  /-- An erase was announced and has to be unlocked once more. -/
  | eraseLocked
  | eraseHalfUnlocked
  | eraseUnlocked
  /-- The next write is data to be programmed. -/
  | program
  | bypassReset
  | bypassErase
  /-- A block was erased. Reads give a status until the erase counts as finished. -/
  | eraseBusy
  deriving DecidableEq, Repr

def State.label : State → String
  | .ready => "Read"
  | .halfUnlocked => "Unlock2"
  | .unlocked => "Unlocked"
  | .eraseLocked => "Erase1"
  | .eraseHalfUnlocked => "Erase2"
  | .eraseUnlocked => "Erase3"
  | .program => "Program"
  | .bypassReset => "UnlockBypassReset"
  | .bypassErase => "UnlockBypassErase"
  | .eraseBusy => "BlockEraseBusy"

/-- What a cycle does to the cells of the bank. -/
inductive Operation where
  | nothing | eraseChip | eraseBlock | program
  deriving DecidableEq, Repr

structure Response where
  state : State
  operation : Operation
  /-- What to say of it; nothing if empty. -/
  remark : String
  /-- The cycle breaks the protocol. -/
  violation : Bool
  deriving DecidableEq, Repr

namespace Response

def proceed (state : State) (remark : String) : Response := ⟨state, .nothing, remark, false⟩

def refuse : Response := ⟨.ready, .nothing, "unexpected command", true⟩

def eraseChip : Response := ⟨.ready, .eraseChip, "CHIP ERASE", false⟩

def eraseBlock : Response := ⟨.eraseBusy, .eraseBlock, "BLOCK ERASE", false⟩

def program : Response := ⟨.ready, .program, "PROGRAM", false⟩

end Response

def unlockFirst : UInt32 := 0x555

def unlockSecond : UInt32 := 0x2AA

open Response in
/-- How a write of `value` to the word offset `word` is taken. -/
def State.next (s : State) (word value : UInt32) : Response :=
  match s with
  | .ready =>
    if value = 0xF0 then proceed .ready "reset"
    else if word = unlockFirst ∧ value = 0xAA then proceed .halfUnlocked ""
    else if value = 0xA0 then proceed .program "UNLOCK BYPASS PROGRAM"
    else if value = 0x80 then proceed .bypassErase ""
    else if value = 0x90 then proceed .bypassReset ""
    else if value = 0x98 then proceed .ready "UNLOCK BYPASS CFI unhandled"
    else refuse
  | .halfUnlocked =>
    if word = unlockSecond ∧ value = 0x55 then proceed .unlocked "" else refuse
  | .unlocked =>
    if value = 0x90 then proceed .ready "autoselect unhandled"
    else if word = unlockFirst ∧ value = 0xA0 then proceed .program ""
    else if word = unlockFirst ∧ value = 0x20 then proceed .ready "UNLOCK BYPASS"
    else if word = unlockFirst ∧ value = 0x80 then proceed .eraseLocked ""
    else refuse
  | .eraseLocked =>
    if word = unlockFirst ∧ value = 0xAA then proceed .eraseHalfUnlocked "" else refuse
  | .eraseHalfUnlocked =>
    if word = unlockSecond ∧ value = 0x55 then proceed .eraseUnlocked "" else refuse
  | .eraseUnlocked =>
    if word = unlockFirst ∧ value = 0x10 then Response.eraseChip
    else if value = 0x30 then Response.eraseBlock
    else refuse
  | .program => Response.program
  | .bypassReset => if value = 0 then proceed .ready "UNLOCK BYPASS RESET" else refuse
  | .bypassErase =>
    if value = 0x10 then Response.eraseChip
    else if value = 0x30 then Response.eraseBlock
    else refuse
  | .eraseBusy => proceed .eraseBusy "write while erase busy"

end Digic.Flash
