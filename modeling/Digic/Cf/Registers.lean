import Digic.Cf.Host
/-!
# Registers of the CF host

The drive's task file stands in two places of the same window. DMA has a window of its own.
-/
namespace Digic.Cf

open Bus

inductive DmaRegister where
  | addr | count | command | status | other
  deriving DecidableEq, Repr

def DmaRegister.ofAddress (addr : UInt32) : DmaRegister :=
  match addr &&& 0x1F with
  | 0x00 => .addr
  | 0x04 => .count
  | 0x10 => .command
  | 0x14 => .status
  | _ => .other

inductive Register where
  | dmaReady | interruptEnable | interruptStatus
  | data
  /-- A register of the task file, 1 to 7. -/
  | taskFile (n : UInt8)
  | deviceControl
  | other
  deriving DecidableEq, Repr

def Register.ofAddress (addr : UInt32) : Register :=
  let offset := addr &&& 0xFFFF
  if offset = 0x8104 then .dmaReady
  else if offset = 0x8040 then .interruptEnable
  else if offset = 0x8044 then .interruptStatus
  else if offset = 0x21F0 ∨ offset = 0x2000 then .data
  else if (0x21F1 ≤ offset ∧ offset ≤ 0x21F7) ∨ (0x2001 ≤ offset ∧ offset ≤ 0x2007) then
    .taskFile (offset &&& 0xF).toUInt8
  else if offset = 0x23F6 ∨ offset = 0x200E then .deviceControl
  else .other

/-- The number of the task-file register that holds command and status. -/
def statusRegister : UInt8 := 7

def taskFileName (n : UInt8) : String :=
  match n with
  | 0 => "ATA data port"
  | 1 => "ATA feature/error"
  | 2 => "ATA sector count"
  | 3 => "ATA LBAlo"
  | 4 => "ATA LBAmid"
  | 5 => "ATA LBAhi"
  | 6 => "ATA drive/head port"
  | _ => "ATA command/status"

inductive DmaCommand where
  | startWrite | startRead | unknown
  deriving DecidableEq, Repr

def DmaCommand.ofValue (value : UInt32) : DmaCommand :=
  match value with
  | 0x3D => .startWrite
  | 0x39 | 0x21 => .startRead
  | _ => .unknown

def Host.dmaRegister {δ : Type} (h : Host δ) : DmaRegister → UInt32 × String
  | .addr => (h.dmaAddr, "Transfer memory address")
  | .count => (h.dmaDone, "Transfer byte count")
  | .command => (0, "Unknown transfer command")
  | .status => (3, "DMA status?")
  | .other => (0, "")

section Actions

variable {δ : Type}

def getDmaRegister (r : DmaRegister) : Action (Host δ) (UInt32 × String) := do
  return (← Action.device).dmaRegister r

/-- Ends the access if there is no drive for a transfer, which could never end. -/
def requireDrive (command : UInt32) : Action (Host δ) Unit := do
  Action.require (← Action.device).drive.isSome (.cfWithoutDrive command)

def startDma (value : UInt32) : Action (Host δ) String :=
  match DmaCommand.ofValue value with
  | .startWrite => do
    requireDrive value
    Action.update fun h => { h with dmaDone := 0, writeRequest := true }
    return "DMA write start"
  | .startRead => do
    requireDrive value
    Action.update fun h => { h with dmaDone := 0, readRequest := true }
    return "DMA read start"
  | .unknown => return "Unknown transfer command"

def setDmaRegister (value : UInt32) : DmaRegister → Action (Host δ) String
  | .addr => do
    Action.update fun h => { h with dmaAddr := value }
    return "Transfer memory address"
  | .count => do
    Action.update fun h => { h with dmaCount := value }
    return "Transfer byte count"
  | .command => startDma value
  | .status | .other => return ""

variable [AtaDrive δ]

def updateDrive (f : δ → δ) : Action (Host δ) Unit :=
  Action.update fun h => { h with drive := h.drive.map f }

/-- Reads something from the drive; zero if there is none. -/
def readDrive (f : δ → UInt32 × δ) : Action (Host δ) UInt32 := do
  match (← Action.device).drive with
  | none => return 0
  | some drive =>
    let (value, drive) := f drive
    Action.update fun h => { h with drive := some drive }
    return value

def getRegister : Register → Action (Host δ) (UInt32 × String)
  | .dmaReady => do return (if (← Action.device).busy then 0 else 4, "CFDMA ready maybe?")
  | .interruptEnable => return (0, "Interrupt enable?")
  | .interruptStatus => do return ((← Action.device).interruptsEnabled, "Interrupt related?")
  | .data => do
    let value ← readDrive fun drive =>
      let (value, drive) := AtaDrive.readData16 drive
      (value.toUInt32, drive)
    return (value, taskFileName 0)
  | .taskFile n => do
    let value ← readDrive fun drive =>
      let (value, drive) := AtaDrive.readRegister drive n
      (value.toUInt32, drive)
    if n = statusRegister then
      Action.update fun h => { h with commandPending := false }
    return (value, taskFileName n)
  | .deviceControl => do
    let status := ((← Action.device).drive.map AtaDrive.status).getD 0
    return (status.toUInt32, "ATA alternate status")
  | .other => return (0, "")

def setRegister (value : UInt32) : Register → Action (Host δ) String
  | .interruptEnable => do
    Action.update fun h => { h with interruptsEnabled := value }
    return "Interrupt enable?"
  | .interruptStatus => return "Interrupt related?"
  | .data => do
    updateDrive (AtaDrive.writeData16 · value.toUInt16)
    return taskFileName 0
  | .taskFile n => do
    updateDrive (AtaDrive.writeRegister · n value.toUInt8)
    if n = statusRegister then
      Action.update fun h => { h with commandPending := h.commandPending || h.driveInterrupts }
    return taskFileName n
  | .deviceControl => do
    updateDrive (AtaDrive.writeControl · value.toUInt8)
    let interrupts := value &&& 2 == 0
    Action.update fun h => { h with driveInterrupts := interrupts }
    return if value &&& 4 ≠ 0 then "ATA device control: soft reset"
      else if interrupts then "ATA device control: int enable"
      else "ATA device control: int disable"
  | .dmaReady | .other => return ""

/-- Whether an access is traced. The data register is too busy for that. -/
def isTraced (c : Context) (addr : UInt32) : Bool :=
  !(c.window.kind = .cfAta && addr &&& 0xFFFF = 0x21F0)

def read (c : Context) (addr : UInt32) : Action (Host δ) UInt32 := do
  let (value, remark) ← match c.window.kind with
    | .cfDma => getDmaRegister (.ofAddress addr)
    | _ => getRegister (.ofAddress addr)
  if isTraced c addr then
    c.traceRead addr value remark
  return value

def write (c : Context) (addr value : UInt32) : Action (Host δ) Unit := do
  let remark ← match c.window.kind with
    | .cfDma => setDmaRegister value (.ofAddress addr)
    | _ => setRegister value (.ofAddress addr)
  if isTraced c addr then
    c.traceWrite addr value remark

end Actions

end Digic.Cf
