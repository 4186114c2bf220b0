import Digic.Interrupt.Event
/-!
# The interrupt controller

One interrupt is in service at a time. A request for a line that is disabled, or that comes while
something else is in service, waits in the line's countdown. A pass over all countdowns, made once
per tick, takes at most one line into service.

Each operation gives the controller afterwards and the events that it caused, in order.
-/
namespace Digic.Interrupt

/-- How many lines there are. They are numbered from zero. -/
def lineCount : Nat := 512

structure Line where
  /-- The line may be taken into service. -/
  enabled : Bool
  /-- Passes until a request that waits is due; zero if none waits. -/
  countdown : UInt32
  deriving DecidableEq, Repr

def Line.idle : Line := ⟨false, 0⟩

structure Controller where
  lines : Vector Line lineCount
  /-- The line in service; zero if there is none. -/
  active : UInt32

namespace Controller

/-- All lines disabled, nothing in service. -/
def new : Controller := ⟨Vector.replicate lineCount .idle, 0⟩

def active? (c : Controller) : Option UInt32 := if c.active = 0 then none else some c.active

/-- The state of a line; an idle one if it does not exist. -/
def line (c : Controller) (id : UInt32) : Line := (c.lines[id.toNat]?).getD .idle

def isEnabled (c : Controller) (id : UInt32) : Bool := (c.line id).enabled

/-- How many passes a waiting request still has to wait. -/
def scheduled (c : Controller) (id : UInt32) : UInt32 := (c.line id).countdown

def setLine (c : Controller) (id : UInt32) (l : Line) : Controller :=
  { c with lines := c.lines.setIfInBounds id.toNat l }

theorem line_setLine (c : Controller) (id other : UInt32) (l : Line) (h : id.toNat < lineCount) :
    (c.setLine id l).line other = if id = other then l else c.line other := by
  by_cases he : id = other
  · subst he
    simp [line, setLine, h]
  · have hn : id.toNat ≠ other.toNat := fun hn => he (UInt32.toNat_inj.1 hn)
    simp [line, setLine, he, hn]

def enable (c : Controller) (id : UInt32) : Controller × List Event :=
  if id.toNat < lineCount then (c.setLine id { c.line id with enabled := true }, [])
  else (c, [.unknownEnable id])

/-- Forbids a line to be taken into service, and drops it from service if it is there. -/
def disable (c : Controller) (id : UInt32) : Controller × List Event :=
  let c := c.setLine id { c.line id with enabled := false }
  if c.active ≠ 0 ∧ c.active = id then ({ c with active := 0 }, [.released]) else (c, [])

/-- Asks for an interrupt: now if `delay` is zero and nothing stands against it, otherwise after
`delay` passes, but at least one. A disabled line is due in the next pass. -/
def request (c : Controller) (id delay : UInt32) : Controller × List Event :=
  if id.toNat < lineCount then
    let line := c.line id
    if delay = 0 ∧ line.enabled ∧ c.active = 0 then
      ({ c.setLine id { line with enabled := false } with active := id }, [.delivered id])
    else
      let delay := if line.enabled then delay else 1
      (c.setLine id { line with countdown := max delay 1 }, [.deferred id])
  else (c, [.unknownRequest id])

/-- Reads the line in service, shifted left, and drops it from service. -/
def acknowledge (c : Controller) (shift : UInt32) : UInt32 × Controller × List Event :=
  (c.active <<< shift, { c with active := 0 }, [.released])

/-- Drops what is in service and leaves the processor's line as it is. -/
def dismiss (c : Controller) : Controller := { c with active := 0 }

def isDue (c : Controller) (id : UInt32) : Bool :=
  let line := c.line id
  line.countdown == 1 && line.enabled && c.active == 0

/-- One line's turn in a pass: it is taken into service if it is due, and then it counts down to
one. `rearm` is the countdown of the line of the timer once it is delivered. -/
def visit (timerLine rearm : UInt32) (c : Controller) (id : UInt32) : Controller × List Event :=
  if c.isDue id then
    let again := if id = timerLine then rearm else 0
    ({ c.setLine id ⟨false, if 1 < again then again - 1 else again⟩ with active := id },
      [.serviced id])
  else
    let line := c.line id
    if 1 < line.countdown then (c.setLine id { line with countdown := line.countdown - 1 }, [])
    else (c, [])

def linesDescending : List UInt32 := (List.range' 1 (lineCount - 1)).reverse.map Nat.toUInt32

/-- The order of a pass: from the highest line down, but the line of the timer comes last, so that
the tick keeps no other interrupt waiting. -/
def passOrder (timerLine : UInt32) : List UInt32 :=
  linesDescending.filter (· ≠ timerLine) ++
    if timerLine ≠ 0 ∧ timerLine.toNat < lineCount then [timerLine] else []

def visitAll (timerLine rearm : UInt32) (c : Controller) : List UInt32 → Controller × List Event
  | [] => (c, [])
  | id :: ids =>
    let (c, first) := c.visit timerLine rearm id
    let (c, others) := c.visitAll timerLine rearm ids
    (c, first ++ others)

/-- One pass over the countdowns of all lines. -/
def pass (c : Controller) (timerLine rearm : UInt32) : Controller × List Event :=
  c.visitAll timerLine rearm (passOrder timerLine)

end Controller

end Digic.Interrupt
