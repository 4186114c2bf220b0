import Digic.Bus.Action
import Digic.Edmac.Switch
/-!
# Image DMA

Channels are set up like real ones, but nothing is moved: a start is told of, remembered as the last
transfer and reported as complete.
-/
namespace Digic.Edmac

open Bus

structure Channel where
  flags : UInt32
  /-- Where in memory the transfer takes place. -/
  addr : UInt32
  xn : UInt32
  yn : UInt32
  xb : UInt32
  yb : UInt32
  xa : UInt32
  ya : UInt32
  off1b : UInt32
  off1c : UInt32
  off1a : UInt32
  off2a : UInt32
  off3 : UInt32
  deriving DecidableEq, Repr

namespace Channel

def zero : Channel := ⟨0, 0, 0, 0, 0, 0, 0, 0, 0, 0, 0, 0, 0⟩

def blockText (tag : String) (x y : UInt32) : String :=
  if x = 0 ∧ y = 0 then "" else s!"{tag}:{x}x{y.toNat + 1}, "

def geometry (c : Channel) : String :=
  blockText "A" c.xa c.ya ++ blockText "B" c.xb c.yb ++ blockText "N" c.xn c.yn

end Channel

structure Transfer where
  channel : Nat
  /-- From memory into the image engine. -/
  reading : Bool
  addr : UInt32
  connections : List UInt32
  interrupt : UInt32
  deriving DecidableEq, Repr

structure Engine where
  channels : Vector Channel channelCount
  switch : Switch
  lastTransfer : Option Transfer

def Engine.new : Engine := ⟨Vector.replicate channelCount .zero, .new, none⟩

/-- The interrupts of the channels, zero for one that has none. -/
def interruptTable : List UInt32 := [
  0x58, 0x59, 0x5A, 0x5B, 0x5C, 0x6D, 0xC0, 0x00,
  0x5D, 0x5E, 0x5F, 0x6E, 0xC1, 0xC8, 0x00, 0x00,
  0xF9, 0x83, 0x8A, 0x00, 0x00, 0x00, 0x00, 0x00,
  0x8B, 0x92, 0x00, 0x00, 0x00, 0x00, 0x00, 0x00]

def interruptOf? (channel : Nat) : Option UInt32 :=
  match interruptTable[channel]? with
  | some id => if id = 0 then none else some id
  | none => none

/-- The channel that an address belongs to, in the block of the given number. -/
def channelOf (block addr : UInt32) : Nat := (block <<< 4 ||| (addr >>> 8 &&& 0xF)).toNat

inductive Register where
  | control | flags | addr | sizeN | sizeB | sizeA | off1b | off1c | off1a | off2a | off3 | other
  deriving DecidableEq, Repr

namespace Register

def ofAddress (addr : UInt32) : Register :=
  match addr &&& 0xFF with
  | 0x00 => control
  | 0x04 => flags
  | 0x08 => .addr
  | 0x0C => sizeN
  | 0x10 => sizeB
  | 0x14 => sizeA
  | 0x18 => off1b
  | 0x1C => off1c
  | 0x20 => off1a
  | 0x24 => off2a
  | 0x28 => off3
  | _ => other

def label : Register → String
  | control => "control/status"
  | flags => "flags"
  | addr => "RAM address"
  | sizeN => "yn|xn"
  | sizeB => "yb|xb"
  | sizeA => "ya|xa"
  | off1b => "off1b"
  | off1c => "off1c"
  | off1a => "off1a"
  | off2a => "off2a"
  | off3 => "off3"
  | other => ""

end Register

def Channel.set (c : Channel) (r : Register) (value : UInt32) : Channel :=
  let low := value &&& 0xFFFF
  let high := value >>> 16
  match r with
  | .flags => { c with flags := value }
  | .addr => { c with addr := value }
  | .sizeN => { c with xn := low, yn := high }
  | .sizeB => { c with xb := low, yb := high }
  | .sizeA => { c with xa := low, ya := high }
  | .off1b => { c with off1b := value }
  | .off1c => { c with off1c := value }
  | .off1a => { c with off1a := value }
  | .off2a => { c with off2a := value }
  | .off3 => { c with off3 := value }
  | .control | .other => c

def start (channel : Nat) (ch : Channel) : Action Engine Unit := do
  let connections := (← Action.device).switch.connections channel
  let reading := isReadChannel channel
  Action.note (.imageTransfer ⟨channel, reading, ch.addr, connections, ch.geometry, ch.flags⟩)
  match interruptOf? channel with
  | none => Action.fail (.edmacChannelWithoutInterrupt channel)
  | some interrupt =>
    Action.update fun e =>
      { e with lastTransfer := some ⟨channel, reading, ch.addr, connections, interrupt⟩ }
    Action.request interrupt 0

def selectChannel (c : Context) (addr : UInt32) : Action Engine (Nat × Channel) := do
  let channel := channelOf c.window.param addr
  match (← Action.device).channels[channel]? with
  | some ch => return (channel, ch)
  | none => Action.fail (.edmacChannelOutOfRange channel)

def writeChannel (c : Context) (addr value : UInt32) : Action Engine Unit := do
  let (channel, ch) ← selectChannel c addr
  let r := Register.ofAddress addr
  if r = .control then
    if value = 1 then
      start channel ch
  else
    Action.update fun e =>
      { e with channels := e.channels.setIfInBounds channel (ch.set r value) }
  c.traceWrite addr value s!"EDMAC#{channel} {r.label}"

def writeSwitch (c : Context) (addr value : UInt32) : Action Engine Unit := do
  let offset := addr &&& 0xFFF
  Action.update fun e => { e with switch := e.switch.write offset value }
  c.traceWrite addr value (((Route.ofWrite? offset value).map Route.text).getD "")

def read (c : Context) (addr : UInt32) : Action Engine UInt32 := do
  if c.window.kind = .edmacSwitch then
    Action.fail (.edmacSwitchRead addr)
  else
    let (channel, ch) ← selectChannel c addr
    let value := if Register.ofAddress addr = .addr then ch.addr else 0
    c.answer addr value s!"EDMAC#{channel}"

def write (c : Context) (addr value : UInt32) : Action Engine Unit :=
  if c.window.kind = .edmacSwitch then writeSwitch c addr value else writeChannel c addr value

end Digic.Edmac
