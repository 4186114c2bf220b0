/-!
# Compare channels

Eight channels, each of which matches when the free-running clock shows its compare value. A match
is latched until firmware clears it.
-/
namespace Digic.Timer

def channelCount : Nat := 8

structure Channel where
  /-- The channel is armed, if this is not zero. -/
  active : UInt32
  compare : UInt32
  triggered : Bool
  deriving DecidableEq, Repr

namespace Channel

def idle : Channel := ⟨0, 0, false⟩

def fires (c : Channel) (clock : UInt32) : Bool := c.active != 0 && c.compare == clock

end Channel

/-- The compare value rounded up to one that the clock shows. -/
def quantize (value : UInt32) : UInt32 := ((value &&& 0xFFFFF) + 0xFF) &&& 0xFFF00

structure CompareBank where
  channels : Vector Channel channelCount

namespace CompareBank

def new : CompareBank := ⟨Vector.replicate channelCount .idle⟩

def get? (b : CompareBank) (id : Nat) : Option Channel := b.channels[id]?

def modify (b : CompareBank) (id : Nat) (f : Channel → Channel) : CompareBank :=
  match b.channels[id]? with
  | some c => ⟨b.channels.setIfInBounds id (f c)⟩
  | none => b

def setCompare (b : CompareBank) (id : Nat) (value : UInt32) : CompareBank :=
  b.modify id fun c => { c with compare := quantize value }

def setActive (b : CompareBank) (id : Nat) (value : UInt32) : CompareBank :=
  b.modify id fun c => { c with active := value }

def clear (b : CompareBank) (id : Nat) : CompareBank :=
  b.modify id fun c => { c with triggered := false }

def fires (b : CompareBank) (clock : UInt32) : Bool := b.channels.toList.any (·.fires clock)

def latch (b : CompareBank) (clock : UInt32) : CompareBank :=
  ⟨b.channels.map fun c => if c.fires clock then { c with triggered := true } else c⟩

/-- The latched matches, channel `i` in bit `2 * i + 4`. -/
def triggeredMask (b : CompareBank) : UInt32 :=
  (b.channels.toList.zipIdx).foldl
    (fun mask (c, i) => if c.triggered then mask ||| 1 <<< (2 * i + 4).toUInt32 else mask) 0

theorem get?_modify (b : CompareBank) (id other : Nat) (f : Channel → Channel) :
    (b.modify id f).get? other = if id = other then (b.get? other).map f else b.get? other := by
  unfold modify get?
  split <;> grind

end CompareBank

end Digic.Timer
