import Digic.Machine.Access
/-!
# Ticks

Everything that takes time moves with the tick: clock and timers, the countdowns of deferred
interrupts, the compare channels, and the transfers of the CF host, in this order.
-/
namespace Digic.Machine

open Bus

variable {κ δ : Type} [Cf.AtaDrive δ]

/-- Moves the time base and services deferred interrupts. The tick's own interrupt waits again for
the period that its timer is set to. -/
def advanceTime (s : Machine κ δ) : Machine κ δ :=
  let time := s.time.advance
  let rearm := time.timers.reload s.model.osTimer >>> 8
  let (interrupts, events) := s.interrupts.pass s.model.timerInterrupt rearm
  { s with interrupts, time }.tellEvents events

/-- Latches the compare channels and asks for their interrupt if one of them matches. -/
def matchChannels (s : Machine κ δ) : Machine κ δ :=
  let fires := s.time.fires
  let s := { s with time := s.time.latch }
  if fires then s.request s.model.hptimerInterrupt 0 else s

/-- A pass of the CF host. What it gives is asked for when the pass is over. -/
def passCf : EStateM Fault (Machine κ δ) Unit := do
  let ids ← actCfBench (Cf.pass (← get).model)
  modify fun s => ids.foldl (fun s id => s.request id 0) s

/-- One tick. Time stands still while the processor is halted. -/
def tick : EStateM Fault (Machine κ δ) Unit := do
  if (← get).cpu.halted then return
  modify fun s => s.advanceTime.matchChannels
  passCf

/-- So many ticks, up to the first fault. -/
def ticks : Nat → EStateM Fault (Machine κ δ) Unit
  | 0 => return
  | n + 1 => do
    tick
    ticks n

/-- Begins to tick in the background, unless that was done before. -/
def startTicker (s : Machine κ δ) : Machine κ δ :=
  if s.tickerRunning then s
  else { s with tickerRunning := true }.tell (.tickerStarted (max s.model.tickPeriod 1))

def stopTicker (s : Machine κ δ) : Machine κ δ :=
  if s.tickerRunning then { s with tickerRunning := false }.tell .tickerStopped else s

end Digic.Machine
