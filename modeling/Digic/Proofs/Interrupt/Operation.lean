import Digic.Interrupt.Controller
/-!
# Histories of the interrupt controller

What firmware, devices and the tick do to the controller, as data, so that a history is a list. Here
are the steps from which everything about histories is derived: what one turn of a line in a pass
and what one operation do to a line.
-/
namespace Digic.Interrupt

inductive Operation where
  | enable (id : UInt32)
  | disable (id : UInt32)
  | request (id delay : UInt32)
  | acknowledge (shift : UInt32)
  | dismiss
  | pass (rearm : UInt32)
  deriving DecidableEq, Repr

/-- The lines that a list of events took into service, in order. -/
def deliveries (events : List Event) : List UInt32 := events.filterMap Event.delivery?

@[simp] theorem deliveries_nil : deliveries [] = [] := rfl

@[simp] theorem deliveries_append (first others : List Event) :
    deliveries (first ++ others) = deliveries first ++ deliveries others := by
  simp [deliveries]

namespace Controller

/-- Does an operation. `timer` is the line of the tick's own interrupt. -/
def operate (timer : UInt32) (c : Controller) : Operation → Controller × List Event
  | .enable id => c.enable id
  | .disable id => c.disable id
  | .request id delay => c.request id delay
  | .acknowledge shift => (c.acknowledge shift).2
  | .dismiss => (c.dismiss, [])
  | .pass rearm => c.pass timer rearm

/-- Does a history, and gives all events of it. -/
def run (timer : UInt32) (c : Controller) : List Operation → Controller × List Event
  | [] => (c, [])
  | op :: ops =>
    let (c, first) := c.operate timer op
    let (c, others) := c.run timer ops
    (c, first ++ others)

@[simp] theorem run_nil (timer : UInt32) (c : Controller) : c.run timer [] = (c, []) := rfl

theorem run_cons (timer : UInt32) (c : Controller) (op : Operation) (ops : List Operation) :
    c.run timer (op :: ops) =
      (((c.operate timer op).1.run timer ops).1,
        (c.operate timer op).2 ++ ((c.operate timer op).1.run timer ops).2) := rfl

theorem run_append (timer : UInt32) (c : Controller) (ops later : List Operation) :
    c.run timer (ops ++ later) =
      (((c.run timer ops).1.run timer later).1,
        (c.run timer ops).2 ++ ((c.run timer ops).1.run timer later).2) := by
  induction ops generalizing c with
  | nil => rfl
  | cons op ops ih => simp only [List.cons_append, run_cons, ih, List.append_assoc]

@[simp] theorem active_setLine (c : Controller) (id : UInt32) (l : Line) :
    (c.setLine id l).active = c.active := rfl

theorem line_setLine_of_ne (c : Controller) {id other : UInt32} (l : Line) (h : other ≠ id) :
    (c.setLine id l).line other = c.line other := by
  have hn : id.toNat ≠ other.toNat := fun e => h (UInt32.toNat_inj.1 e).symm
  simp [line, setLine, hn]

theorem line_setLine_self (c : Controller) {id : UInt32} (l : Line) (h : id.toNat < lineCount) :
    (c.setLine id l).line id = l := by
  rw [line_setLine c id id l h, if_pos rfl]

/-- A line that is not there never waits. -/
theorem line_of_le (c : Controller) {id : UInt32} (h : lineCount ≤ id.toNat) :
    c.line id = .idle := by
  simp [line, h]

/-- Only a line that is there can wait. -/
theorem lt_of_countdown_pos {c : Controller} {id : UInt32} (h : 0 < (c.line id).countdown) :
    id.toNat < lineCount := by
  apply Nat.lt_of_not_le
  intro hn
  rw [line_of_le c hn] at h
  exact absurd h (by decide)

theorem countdown_of_isDue {c : Controller} {id : UInt32} (h : c.isDue id) :
    (c.line id).countdown = 1 := by
  simp only [isDue, Bool.and_eq_true, beq_iff_eq] at h
  exact h.1.1

/-- Only a line that is there can be due. -/
theorem lt_of_isDue {c : Controller} {id : UInt32} (h : c.isDue id) : id.toNat < lineCount := by
  apply lt_of_countdown_pos (c := c)
  rw [countdown_of_isDue h]
  decide

def Admits (c : Controller) (id delay : UInt32) : Prop :=
  delay = 0 ∧ (c.line id).enabled ∧ c.active = 0

instance (c : Controller) (id delay : UInt32) : Decidable (c.Admits id delay) :=
  inferInstanceAs (Decidable (_ ∧ _ ∧ _))

def delayOf (c : Controller) (id delay : UInt32) : UInt32 :=
  max (if (c.line id).enabled then delay else 1) 1

theorem request_of_le (c : Controller) {id : UInt32} (h : lineCount ≤ id.toNat)
    (delay : UInt32) : c.request id delay = (c, [.unknownRequest id]) := by
  rw [request, if_neg (Nat.not_lt_of_le h)]

theorem request_of_admits {c : Controller} {id delay : UInt32} (hlt : id.toNat < lineCount)
    (h : c.Admits id delay) :
    c.request id delay =
      ({ c.setLine id { c.line id with enabled := false } with active := id },
        [.delivered id]) := by
  rw [request, if_pos hlt]
  exact if_pos h

theorem request_of_not_admits {c : Controller} {id delay : UInt32} (hlt : id.toNat < lineCount)
    (h : ¬ c.Admits id delay) :
    c.request id delay =
      (c.setLine id { c.line id with countdown := c.delayOf id delay }, [.deferred id]) := by
  rw [request, if_pos hlt]
  exact if_neg h

theorem delayOf_pos (c : Controller) (id delay : UInt32) : 0 < c.delayOf id delay := by
  have h : ∀ n : UInt32, 0 < max n 1 := by
    intro n
    by_cases hn : n ≤ 1
    · rw [show max n 1 = 1 from if_pos hn]
      decide
    · rw [show max n 1 = n from if_neg hn]
      exact UInt32.lt_trans (by decide) (UInt32.not_le.1 hn)
  exact h _

/-- What a line is left with that a pass takes into service. -/
def served (timer rearm id : UInt32) : Line :=
  let again := if id = timer then rearm else 0
  ⟨false, if 1 < again then again - 1 else again⟩

theorem served_of_ne {timer id : UInt32} (h : id ≠ timer) (rearm : UInt32) :
    served timer rearm id = .idle := by
  simp [served, h, Line.idle]

theorem visit_of_isDue {c : Controller} {id : UInt32} (h : c.isDue id) (timer rearm : UInt32) :
    c.visit timer rearm id =
      ({ c.setLine id (served timer rearm id) with active := id }, [.serviced id]) := by
  simp [visit, h, served]

theorem visit_of_not_isDue {c : Controller} {id : UInt32} (h : ¬ c.isDue id)
    (timer rearm : UInt32) :
    c.visit timer rearm id =
      if 1 < (c.line id).countdown then
        (c.setLine id { c.line id with countdown := (c.line id).countdown - 1 }, [])
      else (c, []) := by
  simp [visit, h]

/-- The turn of one line leaves the others as they are. -/
theorem line_visit_of_ne (c : Controller) {id other : UInt32} (h : other ≠ id)
    (timer rearm : UInt32) : (c.visit timer rearm id).1.line other = c.line other := by
  by_cases hd : c.isDue id
  · rw [visit_of_isDue hd]
    exact line_setLine_of_ne c _ h
  · rw [visit_of_not_isDue hd]
    split
    · exact line_setLine_of_ne c _ h
    · rfl

theorem visitAll_cons (timer rearm : UInt32) (c : Controller) (id : UInt32)
    (ids : List UInt32) :
    c.visitAll timer rearm (id :: ids) =
      (((c.visit timer rearm id).1.visitAll timer rearm ids).1,
        (c.visit timer rearm id).2 ++ ((c.visit timer rearm id).1.visitAll timer rearm ids).2) :=
  rfl

end Controller

end Digic.Interrupt
