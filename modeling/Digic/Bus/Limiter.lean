/-!
# Reports of unclaimed addresses

Firmware may poll an address that nobody claims. Only the first few accesses of a run to one address
are reported.
-/
namespace Digic.Bus

structure Limiter where
  /-- The address that was accessed last. -/
  last : Option UInt32
  /-- How often it was accessed again, up to the largest word. -/
  repeats : UInt32
  deriving DecidableEq, Repr

namespace Limiter

def new : Limiter := ⟨none, 0⟩

def reportedRepeats : UInt32 := 5

def note (l : Limiter) (addr : UInt32) : Limiter :=
  if l.last = some addr then
    { l with repeats := if l.repeats = 0xFFFFFFFF then l.repeats else l.repeats + 1 }
  else ⟨some addr, 0⟩

/-- Whether the access that was noted last is reported. -/
def reports (l : Limiter) : Bool := l.repeats < reportedRepeats

end Limiter

end Digic.Bus
