import Digic.Bus.Action
import Digic.Memory.Basic
/-!
# The DMA engine

Four channels that copy memory. A start makes the whole copy at once, in blocks from the lowest
address up, and asks for the channel's interrupt after a delay that grows with the length.
-/
namespace Digic.Dma

open Bus

/-- Channels are numbered from one; number zero is not used. -/
def channelCount : Nat := 5

structure Channel where
  source : UInt32
  destination : UInt32
  count : UInt32
  deriving DecidableEq, Repr

structure Engine where
  channels : Vector Channel channelCount

def Engine.new : Engine := ⟨Vector.replicate channelCount ⟨0, 0, 0⟩⟩

def Engine.get? (e : Engine) (n : Nat) : Option Channel := e.channels[n]?

def Engine.modify (e : Engine) (n : Nat) (f : Channel → Channel) : Engine :=
  match e.channels[n]? with
  | some ch => ⟨e.channels.setIfInBounds n (f ch)⟩
  | none => e

theorem Engine.get?_modify (e : Engine) (n other : Nat) (f : Channel → Channel) :
    (e.modify n f).get? other = if n = other then (e.get? other).map f else e.get? other := by
  unfold modify get?
  split <;> grind

structure Bench extends Engine where
  memory : Memory

def interruptOf (n : Nat) : UInt32 :=
  match n with
  | 1 => 0x2F
  | 2 => 0x74
  | 3 => 0x75
  | 4 => 0x76
  | _ => 0

/-- In how many ticks a copy of so many bytes is reported. -/
def completionDelay (count : UInt32) : UInt32 := count / 10000

def blockSize : Nat := 8192

/-- Copies `remaining` bytes block by block. Each block is read as a whole before it is written. -/
def copyBlocks (m : Memory) (source destination : UInt32) (remaining : Nat) : Memory :=
  if h : remaining = 0 then m
  else
    let length := min remaining blockSize
    have : remaining - length < remaining := by simp only [length, blockSize]; omega
    copyBlocks (m.write destination (m.read source length)) (source + length.toUInt32)
      (destination + length.toUInt32) (remaining - length)
termination_by remaining

inductive Register where
  | control | source | destination | count | other
  deriving DecidableEq, Repr

def Register.ofAddress (addr : UInt32) : Register :=
  match addr &&& 0xFF with
  | 0x08 => .control
  | 0x18 => .source
  | 0x1C => .destination
  | 0x20 => .count
  | _ => .other

def start (n : Nat) (ch : Channel) (flags : UInt32) : Action Bench Unit := do
  Action.note (.copy ⟨n, ch.source, ch.destination, ch.count, flags⟩)
  Action.update fun b =>
    { b with memory := copyBlocks b.memory ch.source ch.destination ch.count.toNat }
  Action.request (interruptOf n) (completionDelay ch.count)

def read (c : Context) (addr : UInt32) : Action Bench UInt32 := do
  match (← Action.device).get? c.window.param.toNat with
  | none => return 0
  | some ch =>
    match Register.ofAddress addr with
    | .source => return ch.source
    | .destination => return ch.destination
    | .count => return ch.count
    | _ => c.answer addr 0 ""

def setUp (n : Nat) (f : Channel → Channel) : Action Bench Unit :=
  Action.update fun b => { b with toEngine := b.toEngine.modify n f }

def writeChannel (c : Context) (addr value : UInt32) (n : Nat) (ch : Channel) :
    Action Bench Unit :=
  match Register.ofAddress addr with
  | .control => if value &&& 1 ≠ 0 then start n ch value else c.traceWrite addr value ""
  | .source => do
    setUp n fun ch => { ch with source := value }
    c.traceWrite addr value "srcAddr"
  | .destination => do
    setUp n fun ch => { ch with destination := value }
    c.traceWrite addr value "dstAddr"
  | .count => do
    setUp n fun ch => { ch with count := value }
    c.traceWrite addr value "count"
  | .other => c.traceWrite addr value ""

def write (c : Context) (addr value : UInt32) : Action Bench Unit := do
  let n := c.window.param.toNat
  match (← Action.device).get? n with
  | some ch =>
    if n = 0 then c.traceWrite addr value "no such DMA channel" else writeChannel c addr value n ch
  | none => c.traceWrite addr value "no such DMA channel"

end Digic.Dma
