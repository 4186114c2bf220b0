import Digic.Proofs.Machine.Devices
/-!
# Parts of a machine

Devices reach the rest of the machine through notices and requests for interrupts only. A part that
these do not reach is changed by no device but its own, and by the steps of a tick only as far as
they name it.
-/
namespace Digic

open Bus

namespace Machine

variable {κ δ ρ : Type} {part : Machine κ δ → ρ}

/-- A part of the machine that notices and requests do not reach. -/
structure Untold (part : Machine κ δ → ρ) : Prop where
  tell : ∀ (s : Machine κ δ) (n : Log.Notice), part (s.tell n) = part s
  interrupts : ∀ (s : Machine κ δ) (c : Interrupt.Controller),
    part { s with interrupts := c } = part s

/-- A part of the machine that is not reached by what devices leave for the rest of it. -/
structure Apart (part : Machine κ δ → ρ) : Prop where
  tell : ∀ (s : Machine κ δ) (n : Log.Notice), part (s.tell n) = part s
  interrupts : ∀ (s : Machine κ δ) (c : Interrupt.Controller),
    part { s with interrupts := c } = part s
  limiter : ∀ (s : Machine κ δ) (l : Limiter), part { s with limiter := l } = part s

theorem Apart.untold (h : Apart part) : Untold part := ⟨h.tell, h.interrupts⟩

theorem Apart.noteUnclaimed (h : Apart part) (s : Machine κ δ) (addr : UInt32)
    (direction : Log.Direction) (value : UInt32) :
    part (s.noteUnclaimed addr direction value) = part s := by
  unfold Machine.noteUnclaimed
  dsimp only
  split
  · exact (h.tell _ _).trans (h.limiter s _)
  · exact h.limiter s _

namespace Untold

theorem tellEvents (h : Untold part) (s : Machine κ δ) (events : List Interrupt.Event) :
    part (s.tellEvents events) = part s := by
  induction events generalizing s with
  | nil => rfl
  | cons e events ih => exact (ih (s.tell (.interrupt e))).trans (h.tell s _)

theorem request (h : Untold part) (s : Machine κ δ) (id delay : UInt32) :
    part (s.request id delay) = part s :=
  (h.tellEvents _ _).trans (h.interrupts s _)

theorem foldl_request (h : Untold part) (s : Machine κ δ) (ids : List UInt32) :
    part (ids.foldl (fun s id => s.request id 0) s) = part s := by
  induction ids generalizing s with
  | nil => rfl
  | cons id ids ih => exact (ih (s.request id 0)).trans (h.request s id 0)

theorem foldl_absorb (h : Untold part) (s : Machine κ δ) (effects : List Effect) :
    part (effects.foldl absorb s) = part s := by
  induction effects generalizing s with
  | nil => rfl
  | cons e effects ih =>
    refine (ih (s.absorb e)).trans ?_
    cases e with
    | note n => exact h.tell s n
    | request id delay => exact h.request s id delay

/-- The part after a device has acted is what the device made of it. -/
theorem act (h : Untold part) {σ α : Type} (get : Machine κ δ → σ)
    (set : Machine κ δ → σ → Machine κ δ) (a : Action σ α) (s : Machine κ δ) :
    part (stateAfter (act get set a) s) =
      part (set s (stateAfter a ⟨get s, #[]⟩).device) := by
  rw [stateAfter_act]
  exact h.foldl_absorb _ _

/-- The transfers of the CF host change memory and the drive. -/
theorem passCf [Cf.AtaDrive δ] (h : Untold part)
    (hcf : ∀ (s : Machine κ δ) (b : Cf.Bench δ),
      part { s with cf := b.toHost, cpu := { s.cpu with memory := b.memory } } = part s)
    (s : Machine κ δ) : part (stateAfter passCf s) = part s := by
  obtain ⟨ids, -, hafter⟩ := s.exists_passCf
  rw [hafter]
  exact (h.foldl_request _ ids).trans ((h.act _ _ _ s).trans (hcf s _))

end Untold

theorem apart_time : Apart (fun s : Machine κ δ => s.time) :=
  ⟨fun _ n => by cases n <;> rfl, fun _ _ => rfl, fun _ _ => rfl⟩

theorem time_advanceTime (s : Machine κ δ) : s.advanceTime.time = s.time.advance := by
  rw [advanceTime]
  generalize s.interrupts.pass s.model.timerInterrupt
    (s.time.advance.timers.reload s.model.osTimer >>> 8) = result
  exact apart_time.untold.tellEvents _ _

theorem time_matchChannels (s : Machine κ δ) : s.matchChannels.time = s.time.latch := by
  unfold matchChannels
  dsimp only
  split
  · exact apart_time.untold.request _ _ _
  · rfl

/-- A tick moves the time base, unless the processor is halted. -/
theorem time_tick [Cf.AtaDrive δ] (s : Machine κ δ) :
    (stateAfter tick s).time = if s.cpu.halted then s.time else s.time.advance.latch := by
  by_cases hhalted : s.cpu.halted
  · rw [tick, stateAfter_get_bind, if_pos hhalted, if_pos hhalted]
    rfl
  · rw [tick, stateAfter_get_bind, if_neg hhalted, if_neg hhalted, stateAfter_modify_bind]
    have hcf := apart_time.untold.passCf (fun _ _ => rfl) s.advanceTime.matchChannels
    rw [hcf, time_matchChannels, time_advanceTime]

namespace Untold

theorem advanceTime (h : Untold part)
    (htime : ∀ (s : Machine κ δ) (t : Timer.Timebase), part { s with time := t } = part s)
    (s : Machine κ δ) : part s.advanceTime = part s := by
  rw [Machine.advanceTime]
  generalize s.interrupts.pass s.model.timerInterrupt
    (s.time.advance.timers.reload s.model.osTimer >>> 8) = result
  have hset : part { s with interrupts := result.1, time := s.time.advance } = part s :=
    (htime { s with interrupts := result.1 } s.time.advance).trans (h.interrupts s result.1)
  exact (h.tellEvents _ _).trans hset

theorem matchChannels (h : Untold part)
    (htime : ∀ (s : Machine κ δ) (t : Timer.Timebase), part { s with time := t } = part s)
    (s : Machine κ δ) : part s.matchChannels = part s := by
  unfold Machine.matchChannels
  dsimp only
  split
  · exact (h.request _ _ _).trans (htime s _)
  · exact htime s _

/-- A tick changes nothing else that notices and requests do not reach. -/
theorem tick [Cf.AtaDrive δ] (h : Untold part)
    (htime : ∀ (s : Machine κ δ) (t : Timer.Timebase), part { s with time := t } = part s)
    (hcf : ∀ (s : Machine κ δ) (b : Cf.Bench δ),
      part { s with cf := b.toHost, cpu := { s.cpu with memory := b.memory } } = part s)
    (s : Machine κ δ) : part (stateAfter tick s) = part s := by
  by_cases hhalted : s.cpu.halted
  · rw [Machine.tick, stateAfter_get_bind, if_pos hhalted]
    rfl
  · rw [Machine.tick, stateAfter_get_bind, if_neg hhalted, stateAfter_modify_bind, h.passCf hcf,
      h.matchChannels htime, h.advanceTime htime]

end Untold

end Machine

end Digic
