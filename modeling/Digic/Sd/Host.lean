import Digic.Bus.Action
import Digic.Memory.Basic
import Digic.Sd.Card
/-!
# The SD host

Commands are put to the card as soon as their flags are written. A data phase moves everything at
once and is then shown as finished in the status.
-/
namespace Digic.Sd

open Bus

structure Status where
  bits : UInt32
  deriving DecidableEq, Repr

namespace Status

def clear : Status := ⟨0⟩

/-- The command was answered. -/
def okBit : UInt32 := 0x1

/-- The command failed. -/
def errorBit : UInt32 := 0x2

/-- The data phase is finished. -/
def dataBit : UInt32 := 0x200000

def ok (s : Status) : Bool := s.bits &&& okBit != 0

def error (s : Status) : Bool := s.bits &&& errorBit != 0

def dataAvailable (s : Status) : Bool := s.bits &&& dataBit != 0

def set (s : Status) (bit : UInt32) : Status := ⟨s.bits ||| bit⟩

def text (s : Status) : String :=
  let named := [(okBit, "OK"), (errorBit, "ERROR"), (dataBit, "DATA_AVAILABLE")].filterMap
    fun (bit, name) => if s.bits &&& bit != 0 then some name else none
  let rest := s.bits &&& ~~~(okBit ||| errorBit ||| dataBit)
  let unnamed := if rest = 0 then [] else [Text.hex rest.toNat]
  if s.bits = 0 then "0x0" else " | ".intercalate (named ++ unnamed)

end Status

structure Host (κ : Type) where
  card : Option κ
  status : Status
  commandFlags : UInt32
  commandLow : UInt32
  commandHigh : UInt32
  /-- Whether firmware wants interrupts, if not zero. -/
  interruptFlags : UInt32
  response : Vector UInt32 4
  readBlockSize : UInt32
  writeBlockSize : UInt32
  transferCount : UInt32
  dmaEnabled : Bool
  dmaAddr : UInt32
  dmaCount : UInt32

/-- The host and the memory that its data phases reach. -/
structure Bench (κ : Type) extends Host κ where
  memory : Memory

namespace Host

variable {κ : Type}

def new : Host κ where
  card := none
  status := .clear
  commandFlags := 0
  commandLow := 0
  commandHigh := 0
  interruptFlags := 0
  response := Vector.replicate 4 0
  readBlockSize := 0
  writeBlockSize := 0
  transferCount := 0
  dmaEnabled := false
  dmaAddr := 0
  dmaCount := 0

/-- The command that the command registers spell. -/
def request (h : Host κ) : Request where
  command := ((h.commandHigh >>> 8) &&& ~~~0x40).toUInt8
  argument := (h.commandLow >>> 8) ||| (h.commandHigh &&& 0xFF) <<< 24

def text (h : Host κ) : String :=
  s!"SdioController \x7b card: {h.card.isSome}, status: SdioStatus({h.status.text}), " ++
    s!"cmd_flags: {h.commandFlags}, dma_enabled: {h.dmaEnabled}, dma_addr: {h.dmaAddr}, " ++
    s!"dma_count: {h.dmaCount}, .. \x7d"

end Host

/-- Flags of a read with a data phase that is reported without an interrupt. -/
def readFlags : UInt32 := 0x04

/-- Flags of a read with a data phase that is reported by an interrupt. -/
def readInterruptFlags : UInt32 := 0x14

def writeFlags : UInt32 := 0x13

def expectsNothing (flags : UInt32) : Bool := flags == 0x01 || flags == 0x11

def bigEndian (b0 b1 b2 b3 : UInt8) : UInt32 :=
  b0.toUInt32 <<< 24 ||| b1.toUInt32 <<< 16 ||| b2.toUInt32 <<< 8 ||| b3.toUInt32

/-- The response registers for a response; `none` if it is empty. A short response stands across
the first two registers with its first byte last, a long one has its last word first. -/
def responseWords : Response → Option (Vector UInt32 4)
  | .nothing => none
  | .short b => some #v[bigEndian b[1] b[2] b[3] 0, bigEndian 0 0 0 b[0], 0, 0]
  | .long b => some #v[
      bigEndian b[12] b[13] b[14] b[15], bigEndian b[8] b[9] b[10] b[11],
      bigEndian b[4] b[5] b[6] b[7], bigEndian b[0] b[1] b[2] b[3]]

section Actions

variable {κ : Type} [SdCard κ]

def raise (bit : UInt32) : Action (Bench κ) Unit :=
  Action.update fun b => { b with status := b.status.set bit }

def askCard : Action (Bench κ) (Except CardError Response) := do
  let b ← Action.device
  match b.card with
  | none => return .error .noCard
  | some card =>
    let (result, card) := SdCard.command card b.request
    Action.update fun b => { b with card := some card }
    return result

def sendCommand : Action (Bench κ) Unit := do
  let b ← Action.device
  match ← askCard with
  | .error e =>
    Action.note (.sdCommandFailed b.request.command e)
    raise Status.errorBit
  | .ok response =>
    if expectsNothing b.commandFlags then
      raise Status.okBit
    else
      match responseWords response with
      | none => raise Status.errorBit
      | some words =>
        Action.update fun b => { b with response := words }
        raise Status.okBit

def readWords : Nat → UInt32 → κ → Memory → κ × Memory
  | 0, _, card, m => (card, m)
  | n + 1, addr, card, m =>
    let (b0, card) := SdCard.readByte card
    let (b1, card) := SdCard.readByte card
    let (b2, card) := SdCard.readByte card
    let (b3, card) := SdCard.readByte card
    readWords n (addr + 4) card (m.writeWord addr (Memory.wordOfBytes b0 b1 b2 b3))

def writeWords : Nat → UInt32 → κ → Memory → κ
  | 0, _, card, _ => card
  | n + 1, addr, card, m =>
    let card := SdCard.writeByte card (m.byte addr)
    let card := SdCard.writeByte card (m.byte (addr + 1))
    let card := SdCard.writeByte card (m.byte (addr + 2))
    let card := SdCard.writeByte card (m.byte (addr + 3))
    writeWords n (addr + 4) card m

/-- The data phase of a read. Without DMA the bytes are taken from the card and lost. -/
def readData : Action (Bench κ) Unit := do
  let b ← Action.device
  if b.status.dataAvailable then return
  match b.card with
  | none => return
  | some card =>
    if !SdCard.dataReady card then return
    if b.dmaEnabled then
      Action.update fun b =>
        let (card, memory) := readWords (b.dmaCount / 4).toNat b.dmaAddr card b.memory
        { b with card := some card, memory }
      raise Status.dataBit
    else
      let length := b.transferCount.toNat * b.readBlockSize.toNat
      Action.update fun b => { b with card := some (discard length card) }

/-- The data phase of a write, which needs DMA. -/
def writeData : Action (Bench κ) Unit := do
  let b ← Action.device
  if b.status.dataAvailable then return
  Action.require b.dmaEnabled (.sdWriteWithoutDma b.transferCount b.writeBlockSize)
  match b.card with
  | none => return
  | some card =>
    Action.update fun b =>
      { b with card := some (writeWords (b.dmaCount / 4).toNat b.dmaAddr card b.memory) }
    raise Status.dataBit

/-- Whether the operation is over, well, and firmware wants to be told. -/
def Host.reportable (h : Host κ) : Bool :=
  let hasDataPhase := h.commandFlags == writeFlags || h.commandFlags == readInterruptFlags
  (!hasDataPhase || h.status.dataAvailable) && h.status.ok && !h.status.error &&
    h.interruptFlags != 0

def reportCompletion (model : Model) : Action (Bench κ) Unit := do
  let b ← Action.device
  if b.reportable then
    Action.require (model.sdDriverInterrupt ≠ 0) .noSdInterrupt
    Action.request model.sdDriverInterrupt 0
    if b.dmaEnabled then
      Action.require (model.sdDmaInterrupt ≠ 0) .noSdDmaInterrupt
      Action.request model.sdDmaInterrupt 0

end Actions

end Digic.Sd
