import Digic.Proofs.Interrupt.Operation
/-!
# No request is lost, and none is invented

A request for a line waits in the line's countdown until the line is taken into service. For every
line but that of the tick's own interrupt the books balance: what was delivered and what still waits
was asked for, and what was asked for was delivered or still waits.
-/
namespace Digic.Interrupt

def Operation.asksFor (id : UInt32) : Operation → Bool
  | .request other _ => other == id
  | _ => false

namespace Controller

variable {timer rearm id : UInt32}

/-- How many requests of a line wait: they merge into one. -/
def waiting (c : Controller) (id : UInt32) : Nat := if 0 < c.scheduled id then 1 else 0

theorem waiting_pos_iff (c : Controller) : 0 < c.waiting id ↔ 0 < c.scheduled id := by
  unfold waiting
  split <;> simp [*]

theorem waiting_le_one (c : Controller) : c.waiting id ≤ 1 := by
  unfold waiting
  split <;> decide

theorem waiting_congr {c c' : Controller} (h : c'.line id = c.line id) :
    c'.waiting id = c.waiting id := by
  rw [waiting, waiting, scheduled, scheduled, h]

theorem waiting_idle {c : Controller} (h : c.line id = .idle) : c.waiting id = 0 := by
  rw [waiting, scheduled, h]
  rfl

theorem line_new (id : UInt32) : Controller.new.line id = .idle := by
  unfold line new
  cases h : (Vector.replicate lineCount Line.idle)[id.toNat]? with
  | none => rfl
  | some l => simpa using (Vector.getElem?_eq_some_iff.1 h).2.symm

theorem waiting_new : Controller.new.waiting id = 0 := waiting_idle (line_new id)

/-- A countdown above one is still above zero after a pass. -/
theorem countdown_sub_one_pos {n : UInt32} (h : 1 < n) : 0 < n - 1 := by
  have hn : (n - 1).toNat = n.toNat - 1 := UInt32.toNat_sub_of_le _ _ (UInt32.le_of_lt h)
  have h1 : 1 < n.toNat := UInt32.lt_iff_toNat_lt.1 h
  apply UInt32.lt_iff_toNat_lt.2
  rw [hn, UInt32.toNat_zero]
  omega

/-- A line's own turn in a pass delivers a waiting request or leaves it waiting. -/
theorem waiting_visit_self (c : Controller) (hid : id ≠ timer) :
    (c.visit timer rearm id).1.waiting id + (deliveries (c.visit timer rearm id).2).count id =
      c.waiting id := by
  by_cases h : c.isDue id
  · have hone : c.waiting id = 1 := by
      rw [waiting, scheduled, countdown_of_isDue h]
      rfl
    have hidle : (c.setLine id .idle).waiting id = 0 :=
      waiting_idle (line_setLine_self c .idle (lt_of_isDue h))
    rw [visit_of_isDue h, served_of_ne hid, hone]
    change (c.setLine id .idle).waiting id + _ = 1
    simp [hidle, deliveries, Event.delivery?]
  · rw [visit_of_not_isDue h]
    split
    case isTrue hs =>
      have hpos : 0 < (c.line id).countdown := UInt32.lt_trans (by decide) hs
      have hline := line_setLine_self c { c.line id with countdown := (c.line id).countdown - 1 }
        (lt_of_countdown_pos hpos)
      simp [waiting, scheduled, hline, hpos, countdown_sub_one_pos hs]
    case isFalse => rfl

/-- The turn of another line does not concern a line. -/
theorem waiting_visit_of_ne (c : Controller) {other : UInt32} (h : id ≠ other) :
    (c.visit timer rearm other).1.waiting id + (deliveries (c.visit timer rearm other).2).count id =
      c.waiting id := by
  have hcount : (deliveries (c.visit timer rearm other).2).count id = 0 := by
    by_cases hd : c.isDue other
    · simp [visit_of_isDue hd, deliveries, Event.delivery?, h.symm]
    · rw [visit_of_not_isDue hd]
      split <;> rfl
  rw [hcount, waiting_congr (line_visit_of_ne c h timer rearm), Nat.add_zero]

theorem waiting_visitAll (c : Controller) (hid : id ≠ timer) (ids : List UInt32) :
    (c.visitAll timer rearm ids).1.waiting id +
        (deliveries (c.visitAll timer rearm ids).2).count id = c.waiting id := by
  induction ids generalizing c with
  | nil => rfl
  | cons other ids ih =>
    have hfirst : (c.visit timer rearm other).1.waiting id +
        (deliveries (c.visit timer rearm other).2).count id = c.waiting id := by
      by_cases h : id = other
      · subst h
        exact waiting_visit_self c hid
      · exact waiting_visit_of_ne c h
    have hothers := ih (c.visit timer rearm other).1
    rw [visitAll_cons, deliveries_append, List.count_append]
    simp only
    omega

theorem waiting_setLine {c : Controller} {other : UInt32} {l : Line}
    (h : l.countdown = (c.line other).countdown) :
    (c.setLine other l).waiting id = c.waiting id := by
  by_cases hid : id = other
  · subst hid
    by_cases hlt : id.toNat < lineCount
    · rw [waiting, waiting, scheduled, scheduled, line_setLine_self c l hlt, h]
    · apply waiting_congr
      rw [line_of_le _ (Nat.le_of_not_lt hlt), line_of_le _ (Nat.le_of_not_lt hlt)]
  · exact waiting_congr (line_setLine_of_ne c l hid)

/-- A request of another line does not concern a line. -/
theorem waiting_request_of_ne (c : Controller) {other : UInt32} (h : id ≠ other)
    (delay : UInt32) :
    (c.request other delay).1.waiting id + (deliveries (c.request other delay).2).count id =
      c.waiting id := by
  by_cases hlt : other.toNat < lineCount
  · by_cases ha : c.Admits other delay
    · rw [request_of_admits hlt ha]
      change (c.setLine other _).waiting id + _ = _
      rw [waiting_congr (line_setLine_of_ne c _ h)]
      simp [deliveries, Event.delivery?, h.symm]
    · rw [request_of_not_admits hlt ha, waiting_congr (line_setLine_of_ne c _ h)]
      rfl
  · rw [request_of_le c (Nat.le_of_not_lt hlt)]
    rfl

/-- What does not ask for a line delivers a waiting request of it or leaves it waiting. -/
theorem waiting_operate (c : Controller) (hid : id ≠ timer) {op : Operation}
    (hop : op.asksFor id = false) :
    (c.operate timer op).1.waiting id + (deliveries (c.operate timer op).2).count id =
      c.waiting id := by
  cases op with
  | enable other =>
    rw [operate, enable]
    split
    · exact waiting_setLine rfl
    · rfl
  | disable other =>
    have hline : (c.setLine other { c.line other with enabled := false }).waiting id =
        c.waiting id := waiting_setLine rfl
    rw [operate, disable]
    split <;> exact hline
  | request other delay =>
    have hne : id ≠ other := by
      rintro rfl
      simp [Operation.asksFor] at hop
    exact waiting_request_of_ne c hne delay
  | acknowledge shift => rfl
  | dismiss => rfl
  | pass rearm =>
    rw [operate, pass]
    exact waiting_visitAll c hid _

/-- A request for a line is delivered at once or waits, and one that waited before still does. -/
theorem waiting_request (c : Controller) (hlt : id.toNat < lineCount) (delay : UInt32) :
    c.waiting id ≤ (c.request id delay).1.waiting id ∧
      1 ≤ (c.request id delay).1.waiting id + (deliveries (c.request id delay).2).count id ∧
      (c.request id delay).1.waiting id + (deliveries (c.request id delay).2).count id ≤
        c.waiting id + 1 := by
  have hone : c.waiting id ≤ 1 := c.waiting_le_one
  by_cases ha : c.Admits id delay
  · have hkept : (c.setLine id { c.line id with enabled := false }).waiting id = c.waiting id :=
      waiting_setLine rfl
    rw [request_of_admits hlt ha]
    change c.waiting id ≤ (c.setLine id _).waiting id ∧ 1 ≤ (c.setLine id _).waiting id + _ ∧
      (c.setLine id _).waiting id + _ ≤ _
    rw [hkept]
    simp [deliveries, Event.delivery?]
  · have hwaits : (c.setLine id { c.line id with countdown := c.delayOf id delay }).waiting id =
        1 := by
      rw [waiting, scheduled, line_setLine_self c _ hlt]
      exact if_pos (c.delayOf_pos id delay)
    rw [request_of_not_admits hlt ha, hwaits]
    exact ⟨hone, Nat.le_refl 1, Nat.le_add_left 1 _⟩

theorem exists_request_of_asksFor {op : Operation} (h : op.asksFor id = true) :
    ∃ delay, op = .request id delay := by
  cases op with
  | request other delay => exact ⟨delay, by rw [eq_of_beq h]⟩
  | enable other => exact Bool.noConfusion h
  | disable other => exact Bool.noConfusion h
  | acknowledge shift => exact Bool.noConfusion h
  | dismiss => exact Bool.noConfusion h
  | pass rearm => exact Bool.noConfusion h

/-- A request that waits is delivered in a history or waits still. -/
theorem waiting_le_run (c : Controller) (hlt : id.toNat < lineCount) (hid : id ≠ timer)
    (ops : List Operation) :
    c.waiting id ≤
      (c.run timer ops).1.waiting id + (deliveries (c.run timer ops).2).count id := by
  induction ops generalizing c with
  | nil => exact Nat.le_refl _
  | cons op ops ih =>
    have hfirst : c.waiting id ≤
        (c.operate timer op).1.waiting id + (deliveries (c.operate timer op).2).count id := by
      cases hop : op.asksFor id with
      | false => exact Nat.le_of_eq (waiting_operate c hid hop).symm
      | true =>
        obtain ⟨delay, rfl⟩ := exists_request_of_asksFor hop
        exact Nat.le_add_right_of_le (waiting_request c hlt delay).1
    have hothers := ih (c.operate timer op).1
    rw [run_cons, deliveries_append, List.count_append]
    simp only
    omega

/-- What a history delivers, and what waits after it, waited before or was asked for. -/
theorem run_le_waiting (c : Controller) (hlt : id.toNat < lineCount) (hid : id ≠ timer)
    (ops : List Operation) :
    (c.run timer ops).1.waiting id + (deliveries (c.run timer ops).2).count id ≤
      c.waiting id + ops.countP (Operation.asksFor id) := by
  induction ops generalizing c with
  | nil => exact Nat.le_refl _
  | cons op ops ih =>
    have hothers := ih (c.operate timer op).1
    rw [run_cons, deliveries_append, List.count_append, List.countP_cons]
    cases hop : op.asksFor id with
    | false =>
      have hfirst := waiting_operate c hid hop
      simp only [Bool.false_eq_true, if_false]
      omega
    | true =>
      obtain ⟨delay, rfl⟩ := exists_request_of_asksFor hop
      have hfirst := (waiting_request c hlt delay).2.2
      simp only [operate] at hothers ⊢
      simp only [if_true]
      omega

/-- A request is delivered from then on, or it waits. -/
theorem waiting_run_request (c : Controller) (hlt : id.toNat < lineCount) (hid : id ≠ timer)
    (delay : UInt32) (after : List Operation) :
    0 < (c.run timer (.request id delay :: after)).1.waiting id ∨
      id ∈ deliveries (c.run timer (.request id delay :: after)).2 := by
  have hrequest := (waiting_request c hlt delay).2.1
  have hafter := waiting_le_run (c.request id delay).1 hlt hid after
  rw [run_cons, deliveries_append, ← List.count_pos_iff, List.count_append]
  simp only [operate]
  omega

/-- Beside a request for it, only a pass delivers a line. -/
theorem exists_pass_of_mem_deliveries {c : Controller} {op : Operation}
    (hop : op.asksFor id = false) (h : id ∈ deliveries (c.operate timer op).2) :
    ∃ rearm, op = .pass rearm := by
  cases op with
  | enable other =>
    rw [operate, enable] at h
    split at h <;> simp [deliveries, Event.delivery?] at h
  | disable other =>
    rw [operate, disable] at h
    split at h <;> simp [deliveries, Event.delivery?] at h
  | request other delay =>
    rw [operate, request] at h
    simp only at h
    split at h
    · split at h <;> simp_all [deliveries, Event.delivery?, Operation.asksFor]
    · simp [deliveries, Event.delivery?] at h
  | acknowledge shift => simp [operate, acknowledge, deliveries, Event.delivery?] at h
  | dismiss => simp [operate] at h
  | pass rearm => exact ⟨rearm, rfl⟩

/-- The books of a line that the tick does not use, at any point of any history of a new controller.
Each delivery was asked for, and so was what waits. Each request was delivered since, or it waits.
What waits goes on to wait until a pass takes the line itself into service. -/
theorem requests_balance {timer id : UInt32} (hlt : id.toNat < lineCount) (hid : id ≠ timer)
    (ops : List Operation) :
    let c := (new.run timer ops).1
    (deliveries (new.run timer ops).2).count id + (if 0 < c.scheduled id then 1 else 0) ≤
        ops.countP (Operation.asksFor id) ∧
      (∀ before delay after, ops = before ++ .request id delay :: after →
        0 < c.scheduled id ∨
          id ∈ deliveries ((new.run timer before).1.run timer (.request id delay :: after)).2) ∧
      ∀ op, 0 < c.scheduled id →
        0 < (c.operate timer op).1.scheduled id ∨
          ∃ rearm, op = .pass rearm ∧ id ∈ deliveries (c.operate timer op).2 := by
  intro c
  refine ⟨?_, ?_, ?_⟩
  · have h := run_le_waiting new hlt hid ops
    rw [waiting_new, Nat.zero_add, Nat.add_comm] at h
    exact h
  · intro before delay after hops
    have h := waiting_run_request (new.run timer before).1 hlt hid delay after
    have hc : c = ((new.run timer before).1.run timer (.request id delay :: after)).1 := by
      change (new.run timer ops).1 = _
      rw [hops, run_append]
    rw [waiting_pos_iff, ← hc] at h
    exact h
  · intro op hwaits
    rw [← waiting_pos_iff] at hwaits ⊢
    cases hop : op.asksFor id with
    | true =>
      obtain ⟨delay, rfl⟩ := exists_request_of_asksFor hop
      exact .inl (Nat.lt_of_lt_of_le hwaits (waiting_request c hlt delay).1)
    | false =>
      have h := waiting_operate c hid hop
      by_cases hmem : id ∈ deliveries (c.operate timer op).2
      · obtain ⟨rearm, rfl⟩ := exists_pass_of_mem_deliveries hop hmem
        exact .inr ⟨rearm, rfl, hmem⟩
      · rw [List.count_eq_zero.2 hmem, Nat.add_zero] at h
        exact .inl (h ▸ hwaits)

/-- A request that waits and one that is taken at once do not merge. -/
theorem requests_balance_merged :
    (0x33 : UInt32).toNat < lineCount ∧ (0x33 : UInt32) ≠ 0x0A ∧
      let ops : List Operation := [.request 0x33 0, .enable 0x33, .request 0x33 0]
      (deliveries (new.run 0x0A ops).2).count 0x33 +
          (if 0 < (new.run 0x0A ops).1.scheduled 0x33 then 1 else 0) ≤
        ops.countP (Operation.asksFor 0x33) ∧
      deliveries (new.run 0x0A ops).2 = [0x33] ∧ (new.run 0x0A ops).1.scheduled 0x33 = 1 := by
  have hlt : (0x33 : UInt32).toNat < lineCount := by decide
  have hid : (0x33 : UInt32) ≠ 0x0A := by decide
  exact ⟨hlt, hid, (requests_balance hlt hid _).1, by decide +kernel, by decide +kernel⟩

end Controller

end Digic.Interrupt
