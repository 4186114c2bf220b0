import Digic.Bus.Action
import Digic.Cf.Drive
import Digic.Memory.Basic
/-!
# The CF host

Starting a DMA transfer only leaves a request. A pass of the host, made once per tick, moves words
for as long as the drive asks for data, so that a slow drive takes more passes. Interrupts that fall
due in a pass are given to the caller.
-/
namespace Digic.Cf

open Bus

structure Host (δ : Type) where
  drive : Option δ
  dmaAddr : UInt32
  dmaCount : UInt32
  /-- The bytes that the transfer has moved. -/
  dmaDone : UInt32
  readRequest : Bool
  writeRequest : Bool
  /-- The interrupts that firmware wants. -/
  interruptsEnabled : UInt32
  /-- Whether the drive was told to give interrupts. -/
  driveInterrupts : Bool
  /-- A command was given with the drive's interrupts on, and its status not read yet. -/
  commandPending : Bool

/-- The host and the memory that its transfers reach. -/
structure Bench (δ : Type) extends Host δ where
  memory : Memory

namespace Host

variable {δ : Type}

def new : Host δ where
  drive := none
  dmaAddr := 0
  dmaCount := 0
  dmaDone := 0
  readRequest := false
  writeRequest := false
  interruptsEnabled := 0
  driveInterrupts := false
  commandPending := false

def busy (h : Host δ) : Bool := h.readRequest || h.writeRequest

def bytesLeft (h : Host δ) : UInt32 := h.dmaCount - min h.dmaDone h.dmaCount

def wordsLeft (h : Host δ) : Nat := (h.bytesLeft.toNat + 3) / 4

/-- Where the next word of a transfer goes or comes from. -/
def cursor (h : Host δ) : UInt32 := h.dmaAddr + h.dmaDone

def finished (h : Host δ) : Bool := h.dmaCount ≤ h.dmaDone

def text (h : Host δ) : String :=
  s!"CfState \x7b device: {h.drive.isSome}, dma_addr: {h.dmaAddr}, dma_count: {h.dmaCount}, " ++
    s!"dma_done: {h.dmaDone}, read_request: {h.readRequest}, write_request: {h.writeRequest}, " ++
    s!"interrupt_enabled: {h.interruptsEnabled}, pending_interrupt: {h.commandPending} \x7d"

end Host

/-- The enable bits of which any asks for the driver's interrupt. -/
def driverBits : UInt32 := 0x02000001

/-- The enable bit that asks for the interrupt of DMA. -/
def dmaBits : UInt32 := 0x00010000

section Passes

variable {δ : Type} [AtaDrive δ]

/-- Moves up to `n` words from the drive to memory, as long as it asks for data. -/
def drainRead : Nat → Bench δ → Bench δ
  | 0, b => b
  | n + 1, b =>
    match b.drive with
    | none => b
    | some drive =>
      if AtaDrive.dataReady drive then
        let (word, drive) := AtaDrive.readData32 drive
        drainRead n { b with
          drive := some drive
          memory := b.memory.writeWord b.cursor word
          dmaDone := b.dmaDone + 4 }
      else b

def drainWrite : Nat → Bench δ → Bench δ
  | 0, b => b
  | n + 1, b =>
    match b.drive with
    | none => b
    | some drive =>
      if AtaDrive.dataReady drive then
        drainWrite n { b with
          drive := some (AtaDrive.writeData32 drive (b.memory.readWord b.cursor))
          dmaDone := b.dmaDone + 4 }
      else b

def completionInterrupts (model : Model) : Action (Bench δ) (List UInt32) := do
  let enabled := (← Action.device).interruptsEnabled
  let driver := enabled &&& driverBits != 0
  let dma := enabled &&& dmaBits != 0
  Action.require (driver → model.cfDriverInterrupt ≠ 0) .noCfInterrupt
  Action.require (dma → model.cfDmaInterrupt ≠ 0) .noCfDmaInterrupt
  return (if driver then [model.cfDriverInterrupt] else []) ++
    if dma then [model.cfDmaInterrupt] else []

/-- Refuses a transfer that is not of whole words. -/
def requireWords : Action (Bench δ) Unit := do
  let count := (← Action.device).dmaCount
  Action.require (count % 4 = 0) (.cfCountNotWords count)

def passRead (model : Model) : Action (Bench δ) (List UInt32) := do
  let b ← Action.device
  if b.readRequest then
    requireWords
    Action.note (.cfReading b.bytesLeft b.dmaCount b.cursor)
    Action.update fun b => drainRead b.wordsLeft b
    if (← Action.device).finished then
      Action.update fun b => { b with readRequest := false }
      completionInterrupts model
    else return []
  else return []

def passWrite (model : Model) : Action (Bench δ) (List UInt32) := do
  let b ← Action.device
  if b.writeRequest then
    requireWords
    Action.update fun b => drainWrite b.wordsLeft b
    if (← Action.device).finished then
      Action.update fun b => { b with writeRequest := false }
      completionInterrupts model
    else return []
  else return []

/-- Gives the interrupt of a command, if firmware wants that one and no other. -/
def passCommand (model : Model) : Action (Bench δ) (List UInt32) := do
  let b ← Action.device
  if b.commandPending ∧ b.interruptsEnabled = 1 then
    let ids ← completionInterrupts model
    Action.update fun b => { b with commandPending := false }
    return ids
  else return []

/-- One pass of the host. Gives the interrupts that fell due. -/
def pass (model : Model) : Action (Bench δ) (List UInt32) := do
  let read ← passRead model
  let written ← passWrite model
  let commanded ← passCommand model
  return read ++ written ++ commanded

end Passes

end Digic.Cf
