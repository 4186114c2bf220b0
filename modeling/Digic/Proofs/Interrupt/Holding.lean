import Digic.Proofs.Interrupt.Pass
/-!
# A line that is in service

A request that finds its line enabled and nothing in service takes the line into service at once. It
then stays there, whatever else is asked for, until it is acknowledged, disabled or dropped, and the
processor's line is not raised again.

Line zero is an exception. Its number stands for none, so that a request for it raises the
processor's line and takes nothing into service.
-/
namespace Digic.Interrupt

/-- Whether an operation leaves a line in service that is there. -/
def Operation.spares (id : UInt32) : Operation → Bool
  | .disable other => other != id
  | .acknowledge _ | .dismiss => false
  | .enable _ | .request .. | .pass _ => true

theorem foldl_take_of_isSilent (cpu : Cpu) {events : List Event} (h : ∀ e ∈ events, e.IsSilent) :
    events.foldl Cpu.take cpu = cpu := by
  induction events with
  | nil => rfl
  | cons e events ih =>
    obtain ⟨hfirst, hothers⟩ := List.forall_mem_cons.1 h
    rw [List.foldl_cons, hfirst.take, ih hothers]

namespace Controller

variable {c : Controller} {id timer : UInt32}

/-- Does operations, each of them with the line of the tick's own interrupt at that time. -/
def operateAll (c : Controller) : List (UInt32 × Operation) → Controller × List Event
  | [] => (c, [])
  | (timer, op) :: history =>
    let (c, first) := c.operate timer op
    let (c, others) := c.operateAll history
    (c, first ++ others)

theorem operateAll_cons (c : Controller) (timer : UInt32) (op : Operation)
    (history : List (UInt32 × Operation)) :
    c.operateAll ((timer, op) :: history) =
      (((c.operate timer op).1.operateAll history).1,
        (c.operate timer op).2 ++ ((c.operate timer op).1.operateAll history).2) := rfl

/-- While a line is in service, an operation that spares it neither takes it out of service nor moves
the processor's line. -/
theorem operate_of_spares (hbusy : c.active ≠ 0) {op : Operation} (hop : op.spares c.active)
    (timer : UInt32) :
    (c.operate timer op).1.active = c.active ∧ ∀ e ∈ (c.operate timer op).2, e.IsSilent := by
  cases op with
  | enable other => exact c.active_enable other
  | disable other =>
    have hother : ¬ (c.active ≠ 0 ∧ c.active = other) := by
      rintro ⟨-, rfl⟩
      simp [Operation.spares] at hop
    simp [operate, disable, hother]
  | request other delay =>
    exact active_request_of_not_admits fun h => hbusy h.2.2.2
  | acknowledge shift => cases hop
  | dismiss => cases hop
  | pass rearm =>
    obtain ⟨hactive, hnone⟩ := visitAll_of_active hbusy timer rearm (passOrder timer)
    rw [operate, pass, hnone]
    exact ⟨hactive, by simp⟩

/-- A line stays in service as long as all operations spare it. -/
theorem operateAll_of_spares (hbusy : c.active ≠ 0) {history : List (UInt32 × Operation)}
    (h : ∀ step ∈ history, step.2.spares c.active) :
    (c.operateAll history).1.active = c.active ∧
      ∀ e ∈ (c.operateAll history).2, e.IsSilent := by
  induction history generalizing c with
  | nil => exact ⟨rfl, by simp [operateAll]⟩
  | cons step history ih =>
    obtain ⟨timer, op⟩ := step
    obtain ⟨hop, hhistory⟩ := List.forall_mem_cons.1 h
    obtain ⟨hactive, hsilent⟩ := operate_of_spares hbusy hop timer
    obtain ⟨hothers, hall⟩ := ih (c := (c.operate timer op).1) (hactive ▸ hbusy)
      (hactive.symm ▸ hhistory)
    rw [operateAll_cons]
    refine ⟨hothers.trans hactive, fun e he => ?_⟩
    exact (List.mem_append.1 he).elim (hsilent e) (hall e)

/-- A request without a delay, for a line that is enabled while nothing is in service, raises the
processor's line once and disables the line. Unless it is line zero, the line is in service then. It
stays there, and the processor's line is left alone, through any later operations that spare it. -/
theorem request_holds_service (hlt : id.toNat < lineCount) (henabled : c.isEnabled id)
    (hfree : c.active? = none) :
    let served := c.request id 0
    (∀ cpu : Cpu, served.2.foldl Cpu.take cpu =
        { cpu with line := true, raises := cpu.raises + 1 }) ∧
      served.1.isEnabled id = false ∧
      served.1.active? = (if id = 0 then none else some id) ∧
      (id ≠ 0 → ∀ history : List (UInt32 × Operation), (∀ step ∈ history, step.2.spares id) →
        (served.1.operateAll history).1.active? = some id ∧
          ∀ cpu : Cpu, (served.1.operateAll history).2.foldl Cpu.take cpu = cpu) := by
  intro served
  have hadmits : c.Admits id 0 := ⟨rfl, henabled, active?_eq_none.1 hfree⟩
  have hserved : served = ({ c.setLine id { c.line id with enabled := false } with active := id },
      [.delivered id]) := request_of_admits hlt hadmits
  have hactive : served.1.active = id := by rw [hserved]
  refine ⟨fun cpu => ?_, ?_, ?_, fun hid history hspares => ?_⟩
  · rw [hserved]
    rfl
  · rw [hserved]
    exact congrArg Line.enabled (line_setLine_self c _ hlt)
  · rw [active?, hactive]
  · have hbusy : served.1.active ≠ 0 := hactive.symm ▸ hid
    obtain ⟨hsame, hsilent⟩ := operateAll_of_spares hbusy (hactive.symm ▸ hspares)
    refine ⟨?_, fun cpu => foldl_take_of_isSilent cpu hsilent⟩
    rw [active?, hsame, hactive, if_neg hid]

/-- The last line stays in service although it is enabled and asked for again, and another one is
due in the passes. -/
theorem request_holds_service_last :
    let c := (new.enable 0x1FF).1
    let served := c.request 0x1FF 0
    let history : List (UInt32 × Operation) := [(0x0A, .enable 0x1FF), (0x0A, .request 0x1FF 0),
      (0x0A, .enable 0x10), (0x0A, .request 0x10 0), (0x0A, .pass 10), (0x1FF, .pass 0),
      (0x0A, .disable 0x10)]
    (0x1FF : UInt32).toNat < lineCount ∧ c.isEnabled 0x1FF ∧ c.active? = none ∧
      (∀ step ∈ history, step.2.spares 0x1FF) ∧ served.1.active? = some 0x1FF ∧
      (served.1.operateAll history).1.active? = some 0x1FF := by
  intro c served history
  have hlt : (0x1FF : UInt32).toNat < lineCount := by decide
  have henabled : c.isEnabled 0x1FF := by decide +kernel
  have hfree : c.active? = none := rfl
  have hspares : ∀ step ∈ history, step.2.spares 0x1FF := by decide
  obtain ⟨-, -, hactive, hholds⟩ := request_holds_service hlt henabled hfree
  exact ⟨hlt, henabled, hfree, hspares, hactive, (hholds (by decide) history hspares).1⟩

/-- A request for line zero leaves nothing in service, so that another one raises the processor's
line again. -/
theorem line_zero_not_in_service :
    let c := (new.enable 0).1
    let served := c.request 0 0
    let history : List (UInt32 × Operation) := [(0x0A, .enable 0), (0x0A, .request 0 0)]
    (0 : UInt32).toNat < lineCount ∧ c.isEnabled 0 ∧ c.active? = none ∧
      (∀ step ∈ history, step.2.spares 0) ∧ served.1.active? = none ∧
      ((served.1.operateAll history).2.foldl Cpu.take (served.2.foldl Cpu.take .new)).raises =
        2 := by
  decide +kernel

end Controller

end Digic.Interrupt
