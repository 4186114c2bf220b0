import Digic.Proofs.Interrupt.Period
import Digic.Proofs.Machine.Asked
/-!
# The tick of the operating system

Starting its timer asks for the line of the tick, and from then on each delivery arms the line
again. Between the ticks nothing but a request moves a countdown. So the line is delivered at fixed
intervals, as long as firmware serves it in time and nothing else is asked for.
-/
namespace Digic.Machine

open Bus Interrupt

variable {κ δ : Type}

/-- The ticks that the timer of the operating system is set to. -/
def tickDelay (s : Machine κ δ) : UInt32 := s.time.timers.reload s.model.osTimer >>> 8

/-- The tick can be started: its line exists and is enabled, nothing is in service, no other line
waits, and its timer is set to one tick at least. -/
structure TickReady (s : Machine κ δ) : Prop where
  exists_line : 1 ≤ s.model.timerInterrupt ∧ s.model.timerInterrupt ≤ 0x1FF
  alone : s.interrupts.Alone s.model.timerInterrupt
  pos : 1 ≤ s.tickDelay

/-- A write to the control register of the timer of the operating system that starts it. -/
structure StartsTick (s : Machine κ δ) (addr value : UInt32) : Prop where
  claimed : ∃ h : Handler.Entry, Handler.find? s.handlers addr = some h ∧ h.kind = .timers ∧
    Timer.timerOf? h.param addr = some s.model.osTimer
  control : Timer.Register.ofAddress addr = .control
  start : value &&& 1 ≠ 0

theorem interrupts_request (s : Machine κ δ) (id delay : UInt32) :
    (s.request id delay).interrupts = (s.interrupts.request id delay).1 :=
  interrupts_tellEvents _ _

theorem events_request (s : Machine κ δ) (id delay : UInt32) :
    (s.request id delay).events = s.events ++ (s.interrupts.request id delay).2 :=
  events_tellEvents { s with interrupts := (s.interrupts.request id delay).1 } _

/-- If no line waits but that of the tick, a tick is its turn. -/
theorem advanceTime_of_others_idle {s : Machine κ δ}
    (hexists : 1 ≤ s.model.timerInterrupt ∧ s.model.timerInterrupt ≤ 0x1FF)
    (hothers : ∀ id, id ≠ s.model.timerInterrupt → s.interrupts.scheduled id = 0) :
    let visit := s.interrupts.visit s.model.timerInterrupt s.tickDelay s.model.timerInterrupt
    s.advanceTime =
      { s with interrupts := visit.1, time := s.time.advance }.tellEvents visit.2 := by
  obtain ⟨hzero, hlt⟩ := Controller.exists_line_iff.1 hexists
  have hdelay : s.time.advance.timers.reload s.model.osTimer >>> 8 = s.tickDelay := by
    rw [tickDelay, ← Timer.Bank.reload_advance s.time.timers]
    rfl
  have hpass := Controller.pass_of_others_idle hzero hlt hothers s.tickDelay
  rw [advanceTime, hdelay, hpass]

theorem eq_tick_of_isTick {s : Machine κ δ} {c : Change κ δ} (h : (s.moveOf c).isTick = true) :
    c = .step .tick ∧ s.cpu.halted = false := by
  unfold moveOf at h
  split at h
  case h_1 =>
    split at h
    case isTrue => cases h
    case isFalse hrunning => exact ⟨rfl, Bool.eq_false_iff.2 hrunning⟩
  case h_2 =>
    split at h
    · split at h <;> cases h
    · cases h
  case h_3 => cases h

/-- When `n` ticks are over since the start, the line of the tick waits for the next beat, and no
other line waits. -/
structure Ticking (r : UInt32) (n : Nat) (s : Machine κ δ) : Prop where
  exists_line : 1 ≤ s.model.timerInterrupt ∧ s.model.timerInterrupt ≤ 0x1FF
  pos : 1 ≤ r
  others : ∀ id, id ≠ s.model.timerInterrupt → s.interrupts.scheduled id = 0
  ahead : Ahead r.toNat n (s.interrupts.scheduled s.model.timerInterrupt).toNat

namespace Ticking

variable {r : UInt32} {n : Nat} {s : Machine κ δ}

theorem scheduled_eq_one_iff (h : s.Ticking r n) :
    s.interrupts.scheduled s.model.timerInterrupt = 1 ↔ Beat r.toNat (n + 1) := by
  rw [h.ahead.beat_succ_iff, ← UInt32.toNat_inj, UInt32.toNat_one]

/-- Between the ticks the line goes on waiting. -/
theorem rests (h : s.Ticking r n) {s' : Machine κ δ} (hrests : s.Rests s')
    (hmodel : s'.model = s.model) : s'.Ticking r n where
  exists_line := hmodel.symm ▸ h.exists_line
  pos := h.pos
  others := by
    intro id hne
    rw [hrests.scheduled]
    exact h.others id (hmodel ▸ hne)
  ahead := by
    rw [hmodel, hrests.scheduled]
    exact h.ahead

end Ticking

section Run

variable [Sd.SdCard κ] [Cf.AtaDrive δ]

/-- A property of each change of a list in the state in which it happens. -/
def Along (P : Machine κ δ → Change κ δ → Prop) (s : Machine κ δ) : List (Change κ δ) → Prop
  | [] => True
  | c :: changes => P s c ∧ (s.change c).Along P changes

/-- A change leaves the tick alone: it asks for no line that exists, and if it is a tick, firmware
has acknowledged the last delivery and enabled the line again, and the timer is set to `r` ticks. -/
structure Undisturbed (r : UInt32) (s : Machine κ δ) (c : Change κ δ) : Prop where
  unasked : ∀ id ∈ s.askedBy c, lineCount ≤ id.toNat
  served : (s.moveOf c).isTick → s.interrupts.active? = none ∧
    s.interrupts.isEnabled s.model.timerInterrupt
  kept : (s.moveOf c).isTick → s.tickDelay = r

theorem model_change (s : Machine κ δ) (c : Change κ δ) : (s.change c).model = s.model :=
  congrArg Prod.fst (s.fixed_change c)

theorem change_start {s : Machine κ δ} {addr value : UInt32} (h : s.StartsTick addr value) :
    ∃ (t : Timer.Timebase) (n : Log.Notice), n.event? = none ∧
      s.change (.step (.access addr .write value)) =
        ({ s with time := t }.request s.model.timerInterrupt s.tickDelay).tell n := by
  obtain ⟨e, hfind, hkind, htimer⟩ := h.claimed
  obtain ⟨n, hn, hwrite⟩ := Timer.write_start (c := s.context e.toWindow) hkind htimer h.control
    h.start s.time
  refine ⟨{ s.time with timers := s.time.timers.start s.model.osTimer }, n, hn, ?_⟩
  change stateAfter (access addr .write value) s = _
  rw [stateAfter_access, hfind]
  dsimp only
  rw [writeDevice, stateAfter_get_bind, hkind]
  dsimp only [Handler.Kind.device]
  rw [actTime, stateAfter_act, stateAfter, hwrite]
  rfl

theorem ticking_start {s : Machine κ δ} (hready : s.TickReady) {addr value : UInt32}
    (hstart : s.StartsTick addr value) :
    s.deliveredBy (.step (.access addr .write value)) = [] ∧
      (s.change (.step (.access addr .write value))).Ticking s.tickDelay 0 := by
  obtain ⟨t, n, hn, hchange⟩ := change_start hstart
  obtain ⟨-, hlt⟩ := Controller.exists_line_iff.1 hready.exists_line
  obtain ⟨hdeferred, hcountdown⟩ := Controller.request_of_delay hlt hready.alone.enabled hready.pos
  have hinterrupts : (s.change (.step (.access addr .write value))).interrupts =
      (s.interrupts.request s.model.timerInterrupt s.tickDelay).1 := by
    rw [hchange, interrupts_tell, interrupts_request]
  have hevents : (s.change (.step (.access addr .write value))).events =
      s.events ++ [.deferred s.model.timerInterrupt] := by
    rw [hchange, events_tell, hn, events_request, hdeferred]
    exact List.append_nil _
  have hmodel := s.model_change (.step (.access addr .write value))
  refine ⟨?_, ⟨?_, hready.pos, ?_, ?_⟩⟩
  · have hnone : deliveries [.deferred s.model.timerInterrupt] = [] := rfl
    rw [deliveredBy, hevents, deliveries_append, hnone, List.append_nil, List.drop_length]
  · rw [hmodel]
    exact hready.exists_line
  · intro id hne
    rw [hmodel] at hne
    rw [hinterrupts, Controller.scheduled, Controller.line_request_of_ne _ hne]
    exact hready.alone.others id hne
  · rw [hmodel, hinterrupts, hcountdown]
    exact .start (UInt32.le_iff_toNat_le.1 hready.pos)

namespace Ticking

variable {r : UInt32} {n : Nat} {s : Machine κ δ}

theorem tick (h : s.Ticking r n) (hrunning : s.cpu.halted = false)
    (hc : Undisturbed r s (.step .tick)) :
    (s.change (.step .tick)).Ticking r (n + 1) ∧
      s.deliveredBy (.step .tick) =
        if s.interrupts.scheduled s.model.timerInterrupt = 1 then [s.model.timerInterrupt]
        else [] := by
  have hmove : (s.moveOf (.step .tick)).isTick = true := by
    simp [moveOf, hrunning, Timer.Move.isTick]
  obtain ⟨hfree, henabled⟩ := hc.served hmove
  have halone : s.interrupts.Alone s.model.timerInterrupt := ⟨h.others, hfree, henabled⟩
  obtain ⟨hdelivers, -⟩ := Controller.visit_of_alone halone s.model.timerInterrupt r
  have hadvance := advanceTime_of_others_idle h.exists_line h.others
  rw [hc.kept hmove] at hadvance
  obtain ⟨ids, hids⟩ := s.asks_tick hrunning
  have hasked : s.askedBy (.step .tick) = ids := by
    have hrequests : (s.change (.step .tick)).requests = s.requests ++ ids :=
      hids.requests.trans (by rw [requests_advanceTime])
    rw [askedBy, hrequests, List.drop_left]
  -- What the tick asks for after the turn of the line does not exist.
  obtain ⟨hinterrupts, hevents⟩ := hids.spares (hasked ▸ hc.unasked)
  rw [hadvance, interrupts_tellEvents] at hinterrupts
  rw [hadvance, events_tellEvents, deliveries_append, hdelivers] at hevents
  have hinterrupts' : (s.change (.step .tick)).interrupts =
      (s.interrupts.visit s.model.timerInterrupt r s.model.timerInterrupt).1 := hinterrupts
  have hmodel := s.model_change (.step .tick)
  refine ⟨⟨?_, h.pos, ?_, ?_⟩, ?_⟩
  · exact hmodel.symm ▸ h.exists_line
  · intro id hne
    rw [hmodel] at hne
    rw [hinterrupts', Controller.scheduled, Controller.line_visit_of_ne _ hne]
    exact h.others id hne
  · rw [hmodel, hinterrupts']
    exact Controller.ahead_visit halone h.pos h.ahead
  · exact (congrArg (List.drop _) hevents).trans List.drop_left

/-- Whatever happens that leaves the tick alone, its line waits for the next beat, and it is
delivered by a tick that is one. -/
theorem change (h : s.Ticking r n) {c : Change κ δ} (hc : Undisturbed r s c) :
    (s.change c).Ticking r (n + if (s.moveOf c).isTick then 1 else 0) ∧
      ((s.moveOf c).isTick ∧ Beat r.toNat (n + 1) →
        s.deliveredBy c = [s.model.timerInterrupt]) ∧
      (¬ ((s.moveOf c).isTick ∧ Beat r.toNat (n + 1)) → s.deliveredBy c = []) := by
  by_cases hmove : (s.moveOf c).isTick
  · obtain ⟨rfl, hrunning⟩ := eq_tick_of_isTick hmove
    obtain ⟨hticking, hdelivered⟩ := h.tick hrunning hc
    rw [if_pos hmove, hdelivered, ← h.scheduled_eq_one_iff]
    exact ⟨hticking, fun hbeat => if_pos hbeat.2,
      fun hbeat => if_neg fun hone => hbeat ⟨hmove, hone⟩⟩
  · have hrests := s.rests_change (Bool.eq_false_iff.2 hmove) hc.unasked
    rw [if_neg hmove]
    exact ⟨h.rests hrests (s.model_change c), fun hbeat => absurd hbeat.1 hmove,
      fun _ => hrests.deliveredBy⟩

theorem along {changes : List (Change κ δ)} (h : s.Ticking r n)
    (hcourse : s.Along (Undisturbed r) changes) {before after : List (Change κ δ)}
    {c : Change κ δ} (hsplit : changes = before ++ c :: after) :
    let now := s.after before
    let due := (now.moveOf c).isTick ∧
      Beat r.toNat (n + (s.moves before).countP Timer.Move.isTick + 1)
    (due → now.deliveredBy c = [s.model.timerInterrupt]) ∧ (¬ due → now.deliveredBy c = []) := by
  induction before generalizing s n changes with
  | nil =>
    subst hsplit
    exact (h.change hcourse.1).2
  | cons b before ih =>
    subst hsplit
    have hfirst := (h.change hcourse.1).1
    have hrest := ih hfirst hcourse.2 rfl
    have hcount : n + (if (s.moveOf b).isTick then 1 else 0) +
        ((s.change b).moves before).countP Timer.Move.isTick =
        n + (s.moves (b :: before)).countP Timer.Move.isTick := by
      rw [moves, List.countP_cons]
      omega
    rw [hcount, s.model_change b] at hrest
    exact hrest

end Ticking

/-- A tick in which only the line of the tick has its turn. -/
def tickAlone (s : Machine κ δ) : Machine κ δ :=
  let visit := s.interrupts.visit s.model.timerInterrupt s.tickDelay s.model.timerInterrupt
  stateAfter passCf
    ({ s with interrupts := visit.1, time := s.time.advance }.tellEvents visit.2).matchChannels

namespace Ticking

variable {r : UInt32} {n : Nat} {s : Machine κ δ}

/-- As no other line waits, the turns of the others can be left out. -/
theorem change_tick (h : s.Ticking r n) (hrunning : s.cpu.halted = false) :
    s.change (.step .tick) = s.tickAlone := by
  have hadvance := advanceTime_of_others_idle h.exists_line h.others
  change stateAfter Machine.tick s = _
  rw [Machine.tick, stateAfter_get_bind, if_neg (by simp [hrunning]), stateAfter_modify_bind,
    hadvance]
  rfl

theorem between (h : s.Ticking r n) {c : Change κ δ} (hmove : (s.moveOf c).isTick = false)
    (hrequests : (s.change c).requests = s.requests) :
    Undisturbed r s c ∧ (s.change c).Ticking r n := by
  have hc : Undisturbed r s c :=
    ⟨by simp [askedBy, hrequests], by simp [hmove], by simp [hmove]⟩
  exact ⟨hc, h.rests (s.rests_change hmove hc.unasked) (s.model_change c)⟩

theorem next (h : s.Ticking r n) (hrunning : s.cpu.halted = false)
    (hrequests : s.tickAlone.requests = s.requests) (hfree : s.interrupts.active? = none)
    (henabled : s.interrupts.isEnabled s.model.timerInterrupt) (hdelay : s.tickDelay = r) :
    s.change (.step .tick) = s.tickAlone ∧ Undisturbed r s (.step .tick) ∧
      s.tickAlone.Ticking r (n + 1) := by
  have hchange := h.change_tick hrunning
  have hc : Undisturbed r s (.step .tick) :=
    ⟨by simp [askedBy, hchange, hrequests], fun _ => ⟨hfree, henabled⟩, fun _ => hdelay⟩
  exact ⟨hchange, hc, hchange ▸ (h.tick hrunning hc).1⟩

end Ticking

/-- The tick recurs with a fixed period. Let its timer be set to `r` ticks when it is started. As
long as no line is asked for, firmware serves each delivery before the next tick, and the timer stays
set to `r`, the line of the tick is delivered in tick `r` from the start, and then in every tick that
is a multiple of the period later. The period is one tick less than `r`, but at least one. Nothing
else is delivered, neither by other ticks nor in between. -/
theorem tick_recurs {s : Machine κ δ} (hready : s.TickReady) {addr value : UInt32}
    (hstart : s.StartsTick addr value) {changes : List (Change κ δ)}
    (hcourse : (s.change (.step (.access addr .write value))).Along (Undisturbed s.tickDelay)
      changes) :
    let started := s.change (.step (.access addr .write value))
    s.deliveredBy (.step (.access addr .write value)) = [] ∧
      ∀ before c after, changes = before ++ c :: after →
        let now := started.after before
        let ticks := (started.moves before).countP Timer.Move.isTick
        let due := (now.moveOf c).isTick ∧
          ∃ k, ticks + 1 = s.tickDelay.toNat + max 1 (s.tickDelay.toNat - 1) * k
        (due → now.deliveredBy c = [s.model.timerInterrupt]) ∧
          (¬ due → now.deliveredBy c = []) := by
  intro started
  obtain ⟨hnone, hticking⟩ := ticking_start hready hstart
  refine ⟨hnone, fun before c after hsplit => ?_⟩
  have halong := hticking.along hcourse hsplit
  rw [s.model_change, Nat.zero_add] at halong
  exact halong

/-- A timer that is set to two ticks delivers in the second one and, once served, in the third. -/
theorem tick_recurs_served :
    let s : Machine Empty Empty := (ofModel .standard).after
      [.step (.access 0xC0201010 .write 0x0A), .step (.access 0xC0210208 .write 0x200)]
    let started := s.change (.step (.access 0xC0210200 .write 1))
    let served : List (Change Empty Empty) := [.step .tick, .step .tick,
      .step (.access 0xC0201000 .read 0), .step (.access 0xC0201010 .write 0x0A)]
    s.TickReady ∧ s.StartsTick 0xC0210200 1 ∧
      started.Along (Undisturbed s.tickDelay) (served ++ [.step .tick]) ∧
      started.deliveredBy (.step .tick) = [] ∧
      (started.after [.step .tick]).deliveredBy (.step .tick) = [0x0A] ∧
      (started.after served).deliveredBy (.step .tick) = [0x0A] := by
  intro s started served
  have hidle (id : UInt32) : s.interrupts.scheduled id = 0 := by
    have henabled : s.interrupts =
        Controller.new.setLine 0x0A { Controller.new.line 0x0A with enabled := true } := rfl
    rw [henabled, Controller.scheduled_setLine_enabled, Controller.scheduled, Controller.line_new]
    rfl
  have hready : s.TickReady :=
    ⟨by decide, ⟨fun id _ => hidle id, by decide +kernel, by decide +kernel⟩, by decide +kernel⟩
  have hstart : s.StartsTick 0xC0210200 1 :=
    ⟨⟨⟨⟨"TIMER", 0xC0210000, 0xC0210FFF⟩, .timers, 0⟩, by decide +kernel, rfl, rfl⟩, rfl, by decide⟩
  have hdelay : s.tickDelay = 2 := by decide +kernel
  have hstarted : started.Ticking 2 0 := hdelay ▸ (ticking_start hready hstart).2
  obtain ⟨hfirst, hundisturbed₀, hticking₁⟩ := hstarted.next (by decide +kernel)
    (by decide +kernel) (by decide +kernel) (by decide +kernel) (by decide +kernel)
  obtain ⟨hsecond, hundisturbed₁, hticking₂⟩ := hticking₁.next (by decide +kernel)
    (by decide +kernel) (by decide +kernel) (by decide +kernel) (by decide +kernel)
  obtain ⟨hundisturbed₂, hticking₃⟩ := hticking₂.between
    (c := .step (.access 0xC0201000 .read 0)) rfl (by decide +kernel)
  obtain ⟨hundisturbed₃, hticking₄⟩ := hticking₃.between
    (c := .step (.access 0xC0201010 .write 0x0A)) (by decide +kernel) (by decide +kernel)
  obtain ⟨-, hundisturbed₄, -⟩ := hticking₄.next (by decide +kernel)
    (by decide +kernel) (by decide +kernel) (by decide +kernel) (by decide +kernel)
  have hcourse : started.Along (Undisturbed 2) (served ++ [.step .tick]) := by
    simp only [served, List.cons_append, List.nil_append, Along, hfirst, hsecond]
    exact ⟨hundisturbed₀, hundisturbed₁, hundisturbed₂, hundisturbed₃, hundisturbed₄, trivial⟩
  have hone : (started.moves [.step .tick]).countP Timer.Move.isTick = 1 := by decide +kernel
  have htwo : (started.moves served).countP Timer.Move.isTick = 2 := by
    simp only [served, moves, hfirst, hsecond]
    decide +kernel
  have hlive₁ : ((started.after [.step .tick]).moveOf (.step .tick)).isTick = true := by
    rw [after_cons, hfirst]
    decide +kernel
  have hlive₂ : ((started.after served).moveOf (.step .tick)).isTick = true := by
    simp only [served, after_cons, hfirst, hsecond]
    decide +kernel
  obtain ⟨-, hall⟩ := tick_recurs hready hstart (hdelay ▸ hcourse)
  rw [hdelay] at hall ⊢
  refine ⟨hready, hstart, hcourse, ?_, ?_, ?_⟩
  · refine (hall [] _ _ rfl).2 ?_
    rintro ⟨-, k, hk⟩
    have hfar : 1 = 2 + max 1 (2 - 1) * k := hk
    omega
  · exact (hall [.step .tick] _ _ rfl).1 ⟨hlive₁, 0, congrArg (· + 1) hone⟩
  · exact (hall served _ _ rfl).1 ⟨hlive₂, 1, congrArg (· + 1) htwo⟩

end Run

end Digic.Machine
