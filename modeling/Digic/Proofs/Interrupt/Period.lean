import Digic.Proofs.Interrupt.Pass
/-!
# The period of the tick

A pass that delivers the line of the timer gives it its countdown again, and takes the first pass
off it at once. So the first delivery comes after as many passes as the timer says, and each later
one after one pass less.
-/
namespace Digic.Interrupt

/-- The passes that deliver the line of a timer with the countdown `r`, counted from its start: the
first comes after `r` passes, and there is one less from each to the next, but at least one. -/
def Beat (r n : Nat) : Prop := ∃ k, n = r + max 1 (r - 1) * k

/-- When `n` passes are over, `left` passes are left with the next beat. -/
structure Ahead (r n left : Nat) : Prop where
  pos : 1 ≤ left
  beat : Beat r (n + left)
  none : ∀ m, 1 ≤ m → m < left → ¬ Beat r (n + m)

namespace Ahead

variable {r n left : Nat}

theorem start (hr : 1 ≤ r) : Ahead r 0 r where
  pos := hr
  beat := ⟨0, by omega⟩
  none := by
    rintro m - hlt ⟨k, hk⟩
    omega

/-- The next pass is a beat if it is the only one left. -/
theorem beat_succ_iff (h : Ahead r n left) : Beat r (n + 1) ↔ left = 1 := by
  constructor
  · intro hbeat
    by_contra hne
    have hpos := h.pos
    exact h.none 1 (Nat.le_refl 1) (by omega) hbeat
  · rintro rfl
    exact h.beat

theorem succ (h : Ahead r n left) (hmany : 1 < left) : Ahead r (n + 1) (left - 1) where
  pos := by omega
  beat := by
    have hbeat := h.beat
    rwa [show n + left = n + 1 + (left - 1) by omega] at hbeat
  none := by
    intro m hm hlt
    have hnone := h.none (m + 1) (by omega) (by omega)
    rwa [show n + (m + 1) = n + 1 + m by omega] at hnone

/-- After a beat, a whole period is left. -/
theorem again (h : Ahead r n 1) : Ahead r (n + 1) (max 1 (r - 1)) := by
  obtain ⟨k, hk⟩ := h.beat
  refine ⟨Nat.le_max_left 1 _, ⟨k + 1, ?_⟩, ?_⟩
  · rw [hk, Nat.mul_succ, Nat.add_assoc]
  · rintro m hm hlt ⟨later, hlater⟩
    -- Two beats lie a multiple of the period apart.
    have happart : max 1 (r - 1) * k + m = max 1 (r - 1) * later := by omega
    have hdvd : max 1 (r - 1) ∣ m :=
      (Nat.dvd_add_right (Nat.dvd_mul_right _ k)).1 (happart ▸ Nat.dvd_mul_right _ later)
    exact absurd (Nat.le_of_dvd hm hdvd) (Nat.not_le_of_lt hlt)

end Ahead

namespace Controller

variable {c : Controller} {timer rearm line : UInt32} {ids : List UInt32}

/-- A request with a delay is not delivered at once, and an enabled line waits for all of it. -/
theorem request_of_delay (hlt : line.toNat < lineCount) (henabled : c.isEnabled line)
    {delay : UInt32} (hdelay : 1 ≤ delay) :
    (c.request line delay).2 = [.deferred line] ∧
      (c.request line delay).1.scheduled line = delay := by
  have hpos : 1 ≤ delay.toNat := UInt32.le_iff_toNat_le.1 hdelay
  have hnot : ¬ c.Admits line delay := by
    rintro ⟨rfl, -⟩
    exact absurd hpos (by decide)
  have hevents : (c.request line delay).2 = [.deferred line] := by
    rw [request_of_not_admits hlt hnot]
  have hwaits : line ∉ deliveries (c.request line delay).2 := by
    rw [hevents]
    exact List.not_mem_nil
  have hcountdown := scheduled_request hlt hwaits
  rw [passesAsked, if_pos henabled] at hcountdown
  refine ⟨hevents, UInt32.toNat_inj.1 ?_⟩
  omega

theorem visitAll_of_idle (h : ∀ id ∈ ids, c.scheduled id = 0) :
    c.visitAll timer rearm ids = (c, []) := by
  induction ids with
  | nil => rfl
  | cons id ids ih =>
    obtain ⟨hid, hids⟩ := List.forall_mem_cons.1 h
    have hdue : ¬ c.isDue id := by
      intro hdue
      rw [(isDue_iff.1 hdue).1] at hid
      exact absurd hid (by decide)
    have hfew : ¬ 1 < (c.line id).countdown := by
      intro hmany
      rw [scheduled] at hid
      rw [hid] at hmany
      exact absurd hmany (by decide)
    have hvisit : c.visit timer rearm id = (c, []) := by rw [visit_of_not_isDue hdue, if_neg hfew]
    rw [visitAll_cons, hvisit, ih hids]
    rfl

/-- If no other line waits, a pass is the turn of the line of the timer. -/
theorem pass_of_others_idle (hzero : line ≠ 0) (hlt : line.toNat < lineCount)
    (hothers : ∀ id, id ≠ line → c.scheduled id = 0) (rearm : UInt32) :
    c.pass line rearm = c.visit line rearm line := by
  have hfirst : c.visitAll line rearm (linesDescending.filter (· ≠ line)) = (c, []) :=
    visitAll_of_idle fun id hid => hothers id (by simpa using (List.mem_filter.1 hid).2)
  rw [pass, passOrder, if_pos ⟨hzero, hlt⟩, visitAll_append, hfirst, visitAll_cons]
  exact Prod.ext rfl (List.append_nil _)

/-- Nothing stands in the way of a line: no other line waits, nothing is in service, and the line is
enabled. -/
structure Alone (c : Controller) (line : UInt32) : Prop where
  others : ∀ id, id ≠ line → c.scheduled id = 0
  free : c.active? = none
  enabled : c.isEnabled line

/-- The turn of a line that is alone delivers it if its countdown has come to one. -/
theorem visit_of_alone (h : c.Alone line) (timer rearm : UInt32) :
    deliveries (c.visit timer rearm line).2 = (if c.scheduled line = 1 then [line] else []) ∧
      (c.visit timer rearm line).1.line line =
        if c.scheduled line = 1 then served timer rearm line else (c.line line).elapse := by
  by_cases hone : c.scheduled line = 1
  · have hdue : c.isDue line := isDue_iff.2 ⟨hone, h.enabled, h.free⟩
    rw [visit_of_isDue hdue, if_pos hone, if_pos hone]
    exact ⟨rfl, line_setLine_self c _ (lt_of_isDue hdue)⟩
  · have hdue : ¬ c.isDue line := fun hdue => hone (isDue_iff.1 hdue).1
    rw [(active_visit_of_not_isDue hdue timer rearm).2, if_neg hone, if_neg hone]
    exact ⟨rfl, line_visit_self hdue timer rearm⟩

/-- Armed again with its countdown, the line has the period left. -/
theorem toNat_countdown_served (timer : UInt32) (hr : 1 ≤ rearm) :
    (served timer rearm timer).countdown.toNat = max 1 (rearm.toNat - 1) := by
  have hpos : 1 ≤ rearm.toNat := UInt32.le_iff_toNat_le.1 hr
  rw [served, if_pos rfl]
  dsimp only
  split
  case isTrue hmany =>
    have hmany' : 1 < rearm.toNat := UInt32.lt_iff_toNat_lt.1 hmany
    rw [toNat_sub_one hmany]
    omega
  case isFalse hfew =>
    have hfew' : ¬ 1 < rearm.toNat := fun hlt => hfew (UInt32.lt_iff_toNat_lt.2 hlt)
    omega

/-- What its turn leaves of the countdown of a line is left with the beat after the next pass. -/
theorem ahead_visit (h : c.Alone line) (hr : 1 ≤ rearm) {n : Nat}
    (hahead : Ahead rearm.toNat n (c.scheduled line).toNat) :
    Ahead rearm.toNat (n + 1) ((c.visit line rearm line).1.scheduled line).toNat := by
  rw [scheduled, (visit_of_alone h line rearm).2]
  by_cases hone : c.scheduled line = 1
  · rw [hone, UInt32.toNat_one] at hahead
    rw [if_pos hone, toNat_countdown_served line hr]
    exact hahead.again
  · have hmany : 1 < (c.line line).countdown := by
      have hpos := hahead.pos
      rw [← UInt32.toNat_inj, UInt32.toNat_one] at hone
      rw [UInt32.lt_iff_toNat_lt, UInt32.toNat_one]
      exact Nat.lt_of_le_of_ne hpos (Ne.symm hone)
    rw [if_neg hone, Line.countdown_elapse, if_pos hmany, toNat_sub_one hmany]
    exact hahead.succ (UInt32.lt_iff_toNat_lt.1 hmany)

end Controller

end Digic.Interrupt
