import Digic.Proofs.Machine.Parts
/-!
# Requests in a tick

The journal tells of every request for an interrupt. A tick makes few: one for the compare channels
if the clock comes to show what one of them waits for, however many do, and those of the CF host.
The pass over the deferred interrupts serves requests that were made before.
-/
namespace Digic

open Bus

def Interrupt.Event.request? : Interrupt.Event → Option UInt32
  | .delivered id | .deferred id | .unknownRequest id => some id
  | _ => none

namespace Machine

variable {κ δ : Type}

/-- The lines that the journal tells of as asked for, in order. -/
def requests (s : Machine κ δ) : List UInt32 := s.events.filterMap Interrupt.Event.request?

theorem requests_tell (s : Machine κ δ) (n : Log.Notice) :
    (s.tell n).requests = s.requests ++ n.event?.toList.filterMap Interrupt.Event.request? := by
  rw [requests, events_tell, List.filterMap_append, requests]

theorem requests_tellEvents (s : Machine κ δ) (events : List Interrupt.Event) :
    (s.tellEvents events).requests =
      s.requests ++ events.filterMap Interrupt.Event.request? := by
  rw [requests, events_tellEvents, List.filterMap_append, requests]

/-- A request is told of once. -/
theorem requests_request (s : Machine κ δ) (id delay : UInt32) :
    (s.request id delay).requests = s.requests ++ [id] := by
  have hevents : (s.interrupts.request id delay).2.filterMap Interrupt.Event.request? = [id] := by
    unfold Interrupt.Controller.request
    split
    · dsimp only
      split <;> rfl
    · rfl
  have htold := requests_tellEvents { s with interrupts := (s.interrupts.request id delay).1 }
    (s.interrupts.request id delay).2
  rw [hevents] at htold
  exact htold

theorem requests_foldl_request (s : Machine κ δ) (ids : List UInt32) :
    (ids.foldl (fun s id => s.request id 0) s).requests = s.requests ++ ids := by
  induction ids generalizing s with
  | nil => exact (List.append_nil _).symm
  | cons id ids ih => rw [List.foldl_cons, ih, requests_request, List.append_assoc]; rfl

theorem requests_foldl_absorb (s : Machine κ δ) {effects : List Effect}
    (h : ∀ e ∈ effects, e.Silent) : (effects.foldl absorb s).requests = s.requests := by
  induction effects generalizing s with
  | nil => rfl
  | cons e effects ih =>
    obtain ⟨hfirst, hrest⟩ := List.forall_mem_cons.1 h
    rw [List.foldl_cons, ih _ hrest]
    cases e with
    | note n =>
      have hnone : n.event? = none := hfirst
      exact (s.requests_tell n).trans (by simp [hnone])
    | request id delay => exact hfirst.elim

/-- A pass services requests that were made before, and makes none. -/
theorem requests_visitAll (c : Interrupt.Controller) (timer rearm : UInt32) (ids : List UInt32) :
    (c.visitAll timer rearm ids).2.filterMap Interrupt.Event.request? = [] := by
  induction ids generalizing c with
  | nil => rfl
  | cons id ids ih =>
    have hvisit : (c.visit timer rearm id).2.filterMap Interrupt.Event.request? = [] := by
      unfold Interrupt.Controller.visit
      split
      · rfl
      · dsimp only
        split <;> rfl
    rw [Interrupt.Controller.visitAll_cons]
    simp [hvisit, ih]

theorem requests_advanceTime (s : Machine κ δ) : s.advanceTime.requests = s.requests := by
  have hpass := requests_visitAll s.interrupts s.model.timerInterrupt
    (s.time.advance.timers.reload s.model.osTimer >>> 8)
    (Interrupt.Controller.passOrder s.model.timerInterrupt)
  rw [advanceTime]
  rw [← Interrupt.Controller.pass] at hpass
  generalize s.interrupts.pass s.model.timerInterrupt
    (s.time.advance.timers.reload s.model.osTimer >>> 8) = result at hpass ⊢
  have htold := requests_tellEvents
    { s with interrupts := result.1, time := s.time.advance } result.2
  rw [hpass, List.append_nil] at htold
  exact htold

theorem requests_matchChannels (s : Machine κ δ) :
    s.matchChannels.requests =
      s.requests ++ if s.time.fires then [s.model.hptimerInterrupt] else [] := by
  unfold matchChannels
  dsimp only
  split
  · exact requests_request _ _ 0
  · exact (List.append_nil _).symm

/-- A pass of the CF host asks for the interrupts of its completions only. -/
theorem requests_passCf [Cf.AtaDrive δ] (s : Machine κ δ) :
    ∃ ids : List UInt32,
      (∀ id ∈ ids, id = s.model.cfDriverInterrupt ∨ id = s.model.cfDmaInterrupt) ∧
      (stateAfter passCf s).requests = s.requests ++ ids := by
  have hsilent := Cf.leaves_pass (P := Effect.Silent) (δ := δ) (fun _ _ _ => rfl) s.model
    ⟨⟨s.cf, s.cpu.memory⟩, #[]⟩ (by simp)
  have htransfers : (stateAfter (actCfBench (Cf.pass s.model)) s).requests = s.requests := by
    rw [actCfBench, stateAfter_act, requests_foldl_absorb _ fun e he =>
      hsilent e (Array.mem_toList_iff.1 he)]
    rfl
  obtain ⟨ids, hids, hafter⟩ := s.exists_passCf
  refine ⟨ids, hids, ?_⟩
  rw [hafter, requests_foldl_request, htransfers]

theorem apart_model : Apart (fun s : Machine κ δ => s.model) :=
  ⟨model_tell, fun _ _ => rfl, fun _ _ => rfl⟩

/-- A tick asks for the interrupt of the channels once if the clock comes to show a value that a
channel waits for, and for interrupts of the CF host. -/
theorem requests_tick [Cf.AtaDrive δ] (s : Machine κ δ) (h : s.cpu.halted = false) :
    ∃ ids : List UInt32,
      (∀ id ∈ ids, id = s.model.cfDriverInterrupt ∨ id = s.model.cfDmaInterrupt) ∧
      (stateAfter tick s).requests =
        s.requests ++ (if s.time.advance.fires then [s.model.hptimerInterrupt] else []) ++ ids := by
  have hadvance : s.advanceTime.model = s.model := apart_model.untold.advanceTime (fun _ _ => rfl) s
  have hmatch : s.advanceTime.matchChannels.model = s.model :=
    (apart_model.untold.matchChannels (fun _ _ => rfl) s.advanceTime).trans hadvance
  obtain ⟨ids, hids, hrequests⟩ := s.advanceTime.matchChannels.requests_passCf
  rw [hmatch] at hids
  refine ⟨ids, hids, ?_⟩
  rw [tick, stateAfter_get_bind, if_neg (by simp [h]), stateAfter_modify_bind, hrequests,
    requests_matchChannels, requests_advanceTime, time_advanceTime, hadvance]

end Machine

end Digic
