import Digic.Flash.Command
import Digic.Interrupt.Event
import Digic.Log.Level
import Digic.Sd.Card
import Digic.Text.Hex
import Digic.Text.Period
import Digic.Text.Utf8
/-!
# Notices

What a machine tells of itself while it runs. A notice says what happened; `level` and `text` say
how it is recorded.
-/
namespace Digic.Log

inductive Direction where
  | read | write
  deriving DecidableEq, Repr

def Direction.arrow : Direction → String
  | .read => "->"
  | .write => "<-"

/-- A register access as traced: through which window and from where in the program it came, what
was moved, and what the register file says of it. -/
structure Trace where
  window : String
  pc : UInt32
  addr : UInt32
  direction : Direction
  value : UInt32
  remark : String
  deriving DecidableEq, Repr

namespace Trace

def text (t : Trace) : String :=
  let value := Text.padRight 8 (Text.upperHex t.value.toNat)
  let remark := if t.remark.isEmpty then "" else " " ++ t.remark
  s!"[{Text.padRight 10 t.window}] at {Text.word t.pc} [{Text.word t.addr}] " ++
    s!"{t.direction.arrow} 0x{value}{remark}"

end Trace

structure CopyOrder where
  channel : Nat
  source : UInt32
  destination : UInt32
  count : UInt32
  flags : UInt32
  deriving DecidableEq, Repr

structure ImageTransfer where
  channel : Nat
  /-- From memory into the image engine. -/
  reading : Bool
  addr : UInt32
  connections : List UInt32
  /-- The blocks of the transfer, as text. -/
  geometry : String
  flags : UInt32
  deriving DecidableEq, Repr

inductive Notice where
  | assembled (name : String) (version : UInt8) (size0 size1 : UInt32)
  | romLoaded (bank length : Nat) (offset : UInt32)
  | romTruncated (path : String) (length bank size : Nat)
  | access (t : Trace)
  /-- An access to an address that no handler claims. -/
  | unclaimed (pc addr : UInt32) (direction : Direction) (value : UInt32)
  /-- Firmware asked for the interrupt in service, and there was none. -/
  | nothingInService
  | interrupt (e : Interrupt.Event)
  | copy (order : CopyOrder)
  | imageTransfer (t : ImageTransfer)
  | sdCommandFailed (command : UInt8) (error : Sd.CardError)
  /-- A drive is read: bytes left, bytes in all, where the next one goes. -/
  | cfReading (left count addr : UInt32)
  | flashCommand (bank : Nat) (state : Flash.State) (pc : UInt32) (remark : String) (addr : UInt32)
  | flashViolation (bank : Nat) (state : Flash.State) (pc value word : UInt32)
  | flashUnreadable (bank : Nat) (state : Flash.State) (pc word : UInt32)
  /-- The console finished a line. -/
  | consoleLine (bytes : List UInt8)
  | unknownLedCode (value : UInt32)
  | tickerStarted (period : Nat)
  | tickerStopped
  deriving DecidableEq

namespace Notice

/-- The level of an interrupt event; the release of the processor's line is not recorded. -/
def eventLevel? : Interrupt.Event → Option Level
  | .delivered _ | .serviced _ | .deferred _ => some .trace
  | .unknownRequest _ | .unknownEnable _ => some .warn
  | .released => none

def level? : Notice → Option Level
  | interrupt e => eventLevel? e
  | assembled .. | romLoaded .. | copy _ | imageTransfer _ | flashCommand .. | consoleLine _ =>
    some .info
  | access _ | sdCommandFailed .. | cfReading .. | tickerStarted _ | tickerStopped => some .debug
  | romTruncated .. | unclaimed .. | nothingInService | flashViolation .. | flashUnreadable ..
  | unknownLedCode _ => some .warn

/-- The stream that a notice belongs to, if it is not the general one. -/
def stream? : Notice → Option String
  | access _ => some "eos::io"
  | consoleLine _ => some "eos::tio"
  | _ => none

def eventText : Interrupt.Event → String
  | .delivered id => s!"trigger int {Text.hexAtLeast 2 id.toNat}"
  | .serviced id => s!"deliver scheduled int {Text.hexAtLeast 2 id.toNat}"
  | .deferred id => s!"trigger int {Text.hexAtLeast 2 id.toNat} (delayed)"
  | .released => ""
  | .unknownRequest id => s!"trigger of out-of-range interrupt {Text.hex id.toNat}"
  | .unknownEnable id => s!"enable of out-of-range interrupt {Text.hex id.toNat}"

def imageTransferText (t : ImageTransfer) : String :=
  let connections := " ".intercalate (t.connections.map fun c => s!"#{c}")
  let memorySide := if t.reading then "from" else "to"
  let imageSide := if t.reading then "to" else "from"
  s!"[EDMAC#{t.channel}] Starting transfer {memorySide} {Text.shortWord t.addr} {imageSide} " ++
    s!"conn {connections}, {t.geometry}flags={Text.shortWord t.flags}"

def text : Notice → String
  | assembled name version size0 size1 =>
    s!"{name}: DIGIC {version}, ROM0 {Text.hex size0.toNat} bytes, " ++
      s!"ROM1 {Text.hex size1.toNat} bytes"
  | romLoaded bank length offset =>
    s!"ROM{bank}: loaded {Text.hex length} bytes at offset {Text.hex offset.toNat}"
  | romTruncated path length bank size =>
    s!"{path}: {Text.hex length} bytes, truncated to ROM{bank} size {Text.hex size}"
  | access t => t.text
  | unclaimed pc addr direction value =>
    s!"[???] at {Text.word pc} [{Text.word addr}] {direction.arrow} {Text.shortWord value}"
  | nothingInService => "interrupt reason read with nothing in service"
  | interrupt e => eventText e
  | copy o =>
    s!"[DMA{o.channel}] Copy [{Text.word o.source}] -> [{Text.word o.destination}], " ++
      s!"length [{Text.word o.count}], flags [{Text.word o.flags}]"
  | imageTransfer t => imageTransferText t
  | sdCommandFailed command error => s!"[SDIO] CMD{command} failed: {error.message}"
  | cfReading left count addr =>
    s!"[CFDMA] reading {left} of {count} bytes to {Text.hexAtLeast 8 addr.toNat}"
  | flashCommand bank state pc remark addr =>
    s!"[ROM{bank}:{state.label}] at [{Text.word pc}] Command: {remark} [{Text.word addr}]"
  | flashViolation bank state pc value word =>
    s!"[ROM{bank}:{state.label}] at [{Text.word pc}] [{Text.word value}] -> [{Text.word word}] " ++
      "unexpected command"
  | flashUnreadable bank state pc word =>
    s!"[ROM{bank}:{state.label}] at [{Text.word pc}] read in unknown state [{Text.word word}]"
  | consoleLine bytes => Text.Utf8.decode bytes
  | unknownLedCode value => s!"unknown card LED code {Text.hex value.toNat}"
  | tickerStarted micros => s!"ticker started, period {Text.period micros}"
  | tickerStopped => "ticker stopped"

/-- A notice as it is recorded, if a record of the given depth takes it. -/
def record? (depth : Nat) (n : Notice) : Option String :=
  match n.level? with
  | none => none
  | some level =>
    if level.depth ≤ depth then
      match n.stream? with
      | some stream => some s!"{level.label} {stream} {n.text}"
      | none => some s!"{level.label} {n.text}"
    else none

end Notice

end Digic.Log
