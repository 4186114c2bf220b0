import Digic.Sd.Host
/-!
# Registers of the SD host

All instances share one host. DMA has windows of its own.
-/
namespace Digic.Sd

open Bus

inductive Register where
  | dmaEnable | commandFlags | status | interruptFlags | commandLow | commandHigh
  | response (n : Nat)
  | writeBlockSize | readBlockSize | transferCount | transferredBlocks | other
  deriving DecidableEq, Repr

def Register.ofAddress (addr : UInt32) : Register :=
  match addr &&& 0xFFF with
  | 0x08 => .dmaEnable
  | 0x0C => .commandFlags
  | 0x10 => .status
  | 0x14 => .interruptFlags
  | 0x20 => .commandLow
  | 0x24 => .commandHigh
  | 0x34 => .response 0
  | 0x38 => .response 1
  | 0x3C => .response 2
  | 0x40 => .response 3
  | 0x5C => .writeBlockSize
  | 0x68 => .readBlockSize
  | 0x7C => .transferCount
  | 0x80 => .transferredBlocks
  | _ => .other

inductive DmaRegister where
  | addr | count | flags | status | start | other
  deriving DecidableEq, Repr

def DmaRegister.ofAddress (addr : UInt32) : DmaRegister :=
  match addr &&& 0x1F with
  | 0x00 => .addr
  | 0x04 => .count
  | 0x10 => .flags
  | 0x14 => .status
  | 0x18 => .start
  | _ => .other

def Host.register {κ : Type} (h : Host κ) : Register → UInt32 × String
  | .status => (h.status.bits, "Status")
  | .response n => (h.response[n]?.getD 0, "Response")
  | .transferredBlocks => (h.dmaCount / h.readBlockSize, "transferred blocks")
  | .commandFlags => (h.commandFlags, "Command flags?")
  | .interruptFlags => (h.interruptFlags, "irq enable?")
  | _ => (0, "")

def Host.dmaRegister {κ : Type} (h : Host κ) : DmaRegister → UInt32 × String
  | .addr => (h.dmaAddr, "Transfer memory address")
  | .count => (h.dmaCount, "Transfer byte count")
  | .status => (if h.dmaEnabled then 0x81 else 0, "Status?")
  | _ => (0, "")

section Actions

variable {κ : Type} [SdCard κ]

def startCommand (model : Model) (flags : UInt32) : Action (Bench κ) Unit := do
  Action.update fun b => { b with commandFlags := flags, status := .clear }
  sendCommand
  if flags = readInterruptFlags ∨ flags = readFlags then
    readData
  reportCompletion model

/-- Takes new interrupt flags. A write waits for them with its data phase, and an operation that is
over is reported now. -/
def setInterruptFlags (model : Model) (flags : UInt32) : Action (Bench κ) Unit := do
  Action.update fun b => { b with interruptFlags := flags }
  let b ← Action.device
  if b.commandFlags = writeFlags ∧ b.dmaEnabled ∧ flags ≠ 0 then
    writeData
  reportCompletion model

/-- Starts DMA, which matters for a write only. -/
def startDma (model : Model) : Action (Bench κ) Unit := do
  if (← Action.device).commandFlags = writeFlags then
    writeData
    reportCompletion model

def setRegister (model : Model) (value : UInt32) : Register → Action (Bench κ) String
  | .dmaEnable => do
    Action.update fun b => { b with dmaEnabled := value != 0 }
    return "DMA"
  | .commandFlags => do
    startCommand model value
    return "Command flags?"
  | .status => do
    Action.update fun b => { b with status := ⟨value⟩ }
    return "Status"
  | .interruptFlags => do
    setInterruptFlags model value
    return "irq enable?"
  | .commandLow => do
    Action.update fun b => { b with commandLow := value }
    return "cmd_lo"
  | .commandHigh => do
    Action.update fun b => { b with commandHigh := value }
    return "cmd_hi"
  | .writeBlockSize => do
    Action.update fun b => { b with writeBlockSize := value }
    return "write block size"
  | .readBlockSize => do
    Action.update fun b => { b with readBlockSize := value }
    return "read block size"
  | .transferCount => do
    Action.update fun b => { b with transferCount := value }
    return "transfer block count"
  | .response _ | .transferredBlocks | .other => return ""

def setDmaRegister (model : Model) (value : UInt32) : DmaRegister → Action (Bench κ) String
  | .addr => do
    Action.update fun b => { b with dmaAddr := value }
    return "Transfer memory address"
  | .count => do
    Action.update fun b => { b with dmaCount := value }
    return "Transfer byte count"
  | .flags => do
    Action.update fun b => { b with dmaEnabled := value &&& 1 != 0 }
    return "Flags/Status"
  | .start => do
    startDma model
    return "Transfer start?"
  | .status | .other => return ""

def read (c : Context) (addr : UInt32) : Action (Bench κ) UInt32 := do
  let host := (← Action.device).toHost
  let (value, remark) := match c.window.kind with
    | .sdDma => host.dmaRegister (.ofAddress addr)
    | _ => host.register (.ofAddress addr)
  c.answer addr value remark

def write (c : Context) (addr value : UInt32) : Action (Bench κ) Unit := do
  let remark ← match c.window.kind with
    | .sdDma => setDmaRegister c.model value (.ofAddress addr)
    | _ => setRegister c.model value (.ofAddress addr)
  c.traceWrite addr value remark

end Actions

end Digic.Sd
