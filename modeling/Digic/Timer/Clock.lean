/-!
# The free-running clock

A 20-bit clock that moves by `step` on every tick, as all timers do.
-/
namespace Digic.Timer

/-- What a clock or a counter gains per tick. -/
def step : UInt32 := 0x100

structure Clock where
  value : UInt32
  deriving DecidableEq, Repr

namespace Clock

def new : Clock := ⟨0⟩

/-- One tick later, modulo `0x100000`. -/
def advance (c : Clock) : Clock := ⟨(c.value + step) &&& 0xFFF00⟩

end Clock

end Digic.Timer
