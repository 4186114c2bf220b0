import Digic.Timer.Clock
/-!
# General purpose timers

Sixteen counters. A running one moves by `step` per tick and starts again from zero once it is past
its reload value.
-/
namespace Digic.Timer

def timerCount : Nat := 16

structure Counter where
  enabled : Bool
  current : UInt32
  reload : UInt32
  deriving DecidableEq, Repr

namespace Counter

def stopped : Counter := ⟨false, 0, 0⟩

def advance (t : Counter) : Counter :=
  if t.enabled then
    let next := t.current + step
    { t with current := if t.reload < next then 0 else next }
  else t

end Counter

structure Bank where
  timers : Vector Counter timerCount

namespace Bank

/-- All timers stopped and zero. -/
def new : Bank := ⟨Vector.replicate timerCount .stopped⟩

def get? (b : Bank) (id : Nat) : Option Counter := b.timers[id]?

/-- The reload value of a timer; zero if it does not exist. -/
def reload (b : Bank) (id : Nat) : UInt32 := ((b.get? id).map Counter.reload).getD 0

def modify (b : Bank) (id : Nat) (f : Counter → Counter) : Bank :=
  match b.timers[id]? with
  | some t => ⟨b.timers.setIfInBounds id (f t)⟩
  | none => b

def start (b : Bank) (id : Nat) : Bank := b.modify id fun t => { t with enabled := true }

def stop (b : Bank) (id : Nat) : Bank :=
  b.modify id fun t => { t with enabled := false, current := 0 }

def setReload (b : Bank) (id : Nat) (value : UInt32) : Bank :=
  b.modify id fun t => { t with reload := value }

def advance (b : Bank) : Bank := ⟨b.timers.map Counter.advance⟩

theorem get?_modify (b : Bank) (id other : Nat) (f : Counter → Counter) :
    (b.modify id f).get? other = if id = other then (b.get? other).map f else b.get? other := by
  unfold modify get?
  split <;> grind

theorem get?_advance (b : Bank) (id : Nat) :
    b.advance.get? id = (b.get? id).map Counter.advance := by
  simp [advance, get?]

end Bank

end Digic.Timer
