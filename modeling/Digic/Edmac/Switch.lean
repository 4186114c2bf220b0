/-!
# The channel switch of image DMA

Image DMA channels read memory into the image engine or write what comes out of it to memory; which
way is told by bit 3 of the channel's number. The switch says which connections of the image engine
a channel serves: a read channel feeds all connections that are switched to it, a write channel
drains one.
-/
namespace Digic.Edmac

/-- Channels, in three blocks of sixteen. -/
def channelCount : Nat := 48

/-- Connections that can be fed. -/
def readConnectionCount : Nat := 49

/-- Whether a channel reads memory. -/
def isReadChannel (channel : Nat) : Bool := channel / 8 % 2 == 1

structure Switch where
  /-- The channel that feeds each connection. -/
  feeding : Vector (Option Nat) readConnectionCount
  /-- The connection that each channel drains. -/
  draining : Vector UInt32 channelCount

/-- What one write to the switch sets up. -/
inductive Route where
  /-- Memory feeds a connection through a channel, or no longer does. -/
  | feed (channel : Option Nat) (connection : Nat)
  /-- A channel drains a connection into memory. -/
  | drain (connection : UInt32) (channel : Nat)
  deriving DecidableEq, Repr

namespace Route

def text : Route → String
  | feed (some channel) connection => s!"RAM -> RD#{channel} -> connection #{connection}"
  | feed none connection => s!"RAM -> (none) -> connection #{connection}"
  | drain connection channel => s!"connection #{connection} -> WR#{channel} -> RAM"

end Route

def readChannel? (value : UInt32) : Option Nat :=
  if value < 6 then some (value.toNat + 8)
  else if value < 12 then some (value.toNat + 18)
  else if value < 16 then some (value.toNat + 28)
  else none

def lowerWriteChannel (offset : UInt32) : Nat :=
  let slot := (offset &&& 0x1F).toNat / 4
  if slot = 7 then 16 else slot

def upperWriteChannel (offset : UInt32) : Nat :=
  let slot := (offset &&& 0x3F).toNat / 4
  if slot ≤ 5 then slot + 17 else slot + 26

/-- What a write to an offset of the switch asks for. -/
def Route.ofWrite? (offset value : UInt32) : Option Route :=
  if 0x20 ≤ offset ∧ offset ≤ 0xE0 then
    some (.feed (readChannel? value) ((offset.toNat - 0x20) / 4))
  else if offset ≤ 0x1C then some (.drain value (lowerWriteChannel offset))
  else if 0x200 ≤ offset ∧ offset ≤ 0x240 then some (.drain value (upperWriteChannel offset))
  else none

namespace Switch

/-- Nothing is fed, and each channel drains connection zero. -/
def new : Switch := ⟨Vector.replicate readConnectionCount none, Vector.replicate channelCount 0⟩

/-- The connections that a channel feeds, in ascending order. -/
def connectionsFed (s : Switch) (channel : Nat) : List Nat :=
  (List.range readConnectionCount).filter fun k => s.feeding[k]? == some (some channel)

def connectionDrained? (s : Switch) (channel : Nat) : Option UInt32 := s.draining[channel]?

/-- The connections that a channel serves, in its own direction. -/
def connections (s : Switch) (channel : Nat) : List UInt32 :=
  if isReadChannel channel then (s.connectionsFed channel).map Nat.toUInt32
  else (s.connectionDrained? channel).toList

def setRoute (s : Switch) : Route → Switch
  | .feed channel connection =>
    { s with feeding := s.feeding.setIfInBounds connection channel }
  | .drain connection channel =>
    { s with draining := s.draining.setIfInBounds channel connection }

theorem connectionDrained?_setRoute_drain (s : Switch) (connection : UInt32) (channel other : Nat)
    (h : channel < channelCount) :
    (s.setRoute (.drain connection channel)).connectionDrained? other =
      if channel = other then some connection else s.connectionDrained? other := by
  unfold setRoute connectionDrained?
  grind

theorem mem_connectionsFed_setRoute_feed (s : Switch) (channel : Option Nat) (connection k n : Nat)
    (h : connection < readConnectionCount) :
    k ∈ (s.setRoute (.feed channel connection)).connectionsFed n ↔
      if connection = k then channel = some n else k ∈ s.connectionsFed n := by
  unfold setRoute connectionsFed
  grind

def write (s : Switch) (offset value : UInt32) : Switch :=
  match Route.ofWrite? offset value with
  | some route => s.setRoute route
  | none => s

end Switch

end Digic.Edmac
