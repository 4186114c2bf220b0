import Digic.Timer.Bank
import Digic.Timer.Compare
/-!
# The time base

The clock, the timers and the compare channels, which move together.
-/
namespace Digic.Timer

structure Timebase where
  clock : Clock
  timers : Bank
  channels : CompareBank

namespace Timebase

def new : Timebase := ⟨.new, .new, .new⟩

/-- One tick later. Matches are latched separately, when interrupts were serviced. -/
def advance (t : Timebase) : Timebase :=
  { t with clock := t.clock.advance, timers := t.timers.advance }

def fires (t : Timebase) : Bool := t.channels.fires t.clock.value

def latch (t : Timebase) : Timebase := { t with channels := t.channels.latch t.clock.value }

end Timebase

end Digic.Timer
