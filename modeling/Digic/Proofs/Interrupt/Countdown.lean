import Digic.Proofs.Interrupt.Delivery
import Digic.Proofs.Interrupt.Requests
import Mathlib.Data.List.Nodup
import Mathlib.Data.List.TakeWhile
/-!
# When a request that waits is delivered

The countdown of a line loses one in each pass and stops at one. The line is taken into service in
the first pass from then on that finds it enabled, and finds nothing else in service when it comes
to the line.
-/
namespace Digic.Interrupt

def Operation.isPass : Operation → Bool
  | .pass _ => true
  | _ => false

def passCount (ops : List Operation) : Nat := ops.countP Operation.isPass

@[simp] theorem passCount_nil : passCount [] = 0 := rfl

theorem passCount_cons (op : Operation) (ops : List Operation) :
    passCount (op :: ops) = passCount ops + if op.isPass then 1 else 0 := List.countP_cons

namespace Controller

variable {timer rearm id : UInt32}

/-- The controller when a pass comes to a line. -/
def atTurn (c : Controller) (timer rearm id : UInt32) : Controller :=
  (c.visitAll timer rearm ((passOrder timer).takeWhile (· ≠ id))).1

theorem mem_linesDescending {id : UInt32} :
    id ∈ linesDescending ↔ id ≠ 0 ∧ id.toNat < lineCount := by
  simp only [linesDescending, List.mem_map, List.mem_reverse, List.mem_range'_1, lineCount]
  constructor
  · rintro ⟨n, hn, rfl⟩
    have hval : n.toUInt32.toNat = n := by
      simp only [Nat.toUInt32, UInt32.toNat_ofNat']
      omega
    refine ⟨fun hzero => ?_, by omega⟩
    rw [hzero, UInt32.toNat_zero] at hval
    omega
  · rintro ⟨hne, hlt⟩
    have hpos : id.toNat ≠ 0 := fun h => hne (UInt32.toNat_inj.1 h)
    exact ⟨id.toNat, by omega, UInt32.ofNat_toNat⟩

theorem nodup_linesDescending : linesDescending.Nodup := by
  rw [linesDescending, List.map_reverse, List.nodup_reverse]
  refine List.Nodup.map_on ?_ List.nodup_range'
  intro m hm n hn h
  rw [List.mem_range'_1] at hm hn
  have hval := congrArg UInt32.toNat h
  simp only [Nat.toUInt32, UInt32.toNat_ofNat', lineCount] at hval hm hn
  omega

/-- A pass comes to each line but the timer's once, and what stands before it is what comes before
its turn. -/
theorem passOrder_split (hzero : id ≠ 0) (hlt : id.toNat < lineCount) (hid : id ≠ timer) :
    ∃ later, passOrder timer = (passOrder timer).takeWhile (· ≠ id) ++ id :: later ∧
      id ∉ later := by
  have hmem : id ∈ linesDescending.filter (· ≠ timer) :=
    List.mem_filter.2 ⟨mem_linesDescending.2 ⟨hzero, hlt⟩, by simpa using hid⟩
  obtain ⟨before, after, hsplit⟩ := List.append_of_mem hmem
  have hnodup : (before ++ id :: after).Nodup :=
    hsplit ▸ nodup_linesDescending.filter _
  obtain ⟨hbefore, hafter⟩ : id ∉ before ∧ id ∉ after := by
    rw [List.nodup_middle, List.nodup_cons, List.mem_append, not_or] at hnodup
    exact hnodup.1
  refine ⟨after ++ if timer ≠ 0 ∧ timer.toNat < lineCount then [timer] else [], ?_, ?_⟩
  · have htake : (passOrder timer).takeWhile (· ≠ id) = before := by
      rw [passOrder, hsplit, List.append_assoc, List.takeWhile_append_of_pos]
      · simp
      · intro other hother
        simpa using fun h : other = id => hbefore (h ▸ hother)
    rw [htake, passOrder, hsplit, List.append_assoc, List.cons_append]
  · rw [List.mem_append, not_or]
    refine ⟨hafter, ?_⟩
    split <;> simp [hid]

theorem visitAll_append (c : Controller) (timer rearm : UInt32) (ids later : List UInt32) :
    c.visitAll timer rearm (ids ++ later) =
      (((c.visitAll timer rearm ids).1.visitAll timer rearm later).1,
        (c.visitAll timer rearm ids).2 ++
          ((c.visitAll timer rearm ids).1.visitAll timer rearm later).2) := by
  induction ids generalizing c with
  | nil => rfl
  | cons id ids ih => simp only [List.cons_append, visitAll_cons, ih, List.append_assoc]

/-- The turns of other lines do not concern a line. -/
theorem visitAll_of_not_mem (c : Controller) (timer rearm : UInt32) {ids : List UInt32}
    (h : id ∉ ids) :
    (c.visitAll timer rearm ids).1.line id = c.line id ∧
      id ∉ deliveries (c.visitAll timer rearm ids).2 := by
  induction ids generalizing c with
  | nil => exact ⟨rfl, by simp [visitAll]⟩
  | cons other ids ih =>
    obtain ⟨hne, hids⟩ : id ≠ other ∧ id ∉ ids := by simpa using h
    obtain ⟨hline, hnone⟩ := ih (c.visit timer rearm other).1 hids
    have hvisit : id ∉ deliveries (c.visit timer rearm other).2 := by
      by_cases hd : c.isDue other
      · simp [visit_of_isDue hd, deliveries, Event.delivery?, hne]
      · simp [(active_visit_of_not_isDue hd timer rearm).2]
    rw [visitAll_cons, deliveries_append, List.mem_append, not_or]
    exact ⟨hline.trans (line_visit_of_ne c hne timer rearm), hvisit, hnone⟩

theorem line_atTurn (c : Controller) (timer rearm id : UInt32) :
    (c.atTurn timer rearm id).line id = c.line id := by
  refine (visitAll_of_not_mem c timer rearm fun h => ?_).1
  simpa using List.mem_takeWhile_imp h

/-- At its own turn a line is delivered if it is due. -/
theorem mem_deliveries_visit_iff (c : Controller) (timer rearm : UInt32) :
    id ∈ deliveries (c.visit timer rearm id).2 ↔ c.isDue id := by
  by_cases hd : c.isDue id
  · simp [visit_of_isDue hd, deliveries, Event.delivery?, hd]
  · simp [(active_visit_of_not_isDue hd timer rearm).2, hd]

/-- What a pass does to a line is what it does at the line's own turn. -/
theorem pass_eq_visit (c : Controller) (rearm : UInt32) (hzero : id ≠ 0)
    (hlt : id.toNat < lineCount) (hid : id ≠ timer) :
    (c.pass timer rearm).1.line id =
        ((c.atTurn timer rearm id).visit timer rearm id).1.line id ∧
      (id ∈ deliveries (c.pass timer rearm).2 ↔ (c.atTurn timer rearm id).isDue id) := by
  obtain ⟨later, hsplit, hlater⟩ := passOrder_split hzero hlt hid
  have hbefore : id ∉ (passOrder timer).takeWhile (· ≠ id) := fun h => by
    simpa using List.mem_takeWhile_imp h
  have hnone := (visitAll_of_not_mem c timer rearm hbefore).2
  obtain ⟨hline, hrest⟩ := visitAll_of_not_mem
    ((c.atTurn timer rearm id).visit timer rearm id).1 timer rearm hlater
  have hpass : c.pass timer rearm = c.visitAll timer rearm
      ((passOrder timer).takeWhile (· ≠ id) ++ id :: later) := by rw [pass, ← hsplit]
  rw [hpass, visitAll_append, visitAll_cons]
  refine ⟨hline, ?_⟩
  rw [deliveries_append, deliveries_append, List.mem_append, List.mem_append,
    ← mem_deliveries_visit_iff _ timer rearm]
  exact ⟨fun h => (h.resolve_left hnone).resolve_right hrest, fun h => .inr (.inl h)⟩

theorem isDue_iff {c : Controller} :
    c.isDue id ↔ c.scheduled id = 1 ∧ c.isEnabled id ∧ c.active? = none := by
  simp [isDue, scheduled, isEnabled, active?, and_assoc]

/-- A line is taken into service if its countdown has come to one, it is enabled, and nothing is in
service at its turn. -/
theorem mem_deliveries_pass_iff (c : Controller) (rearm : UInt32) (hzero : id ≠ 0)
    (hlt : id.toNat < lineCount) (hid : id ≠ timer) :
    id ∈ deliveries (c.pass timer rearm).2 ↔
      c.scheduled id = 1 ∧ (c.atTurn timer rearm id).isEnabled id ∧
        (c.atTurn timer rearm id).active? = none := by
  rw [(pass_eq_visit c rearm hzero hlt hid).2, isDue_iff, scheduled, line_atTurn, scheduled]

theorem toNat_sub_one {n : UInt32} (h : 1 < n) : (n - 1).toNat = n.toNat - 1 :=
  UInt32.toNat_sub_of_le _ _ (UInt32.le_of_lt h)

/-- A turn that does not deliver a waiting line takes one from its countdown, down to one. -/
theorem scheduled_visit {c : Controller} (timer rearm : UInt32) (hwaits : 0 < c.scheduled id)
    (h : ¬ c.isDue id) :
    ((c.visit timer rearm id).1.scheduled id).toNat = max 1 ((c.scheduled id).toNat - 1) := by
  have hpos : 0 < (c.scheduled id).toNat := UInt32.lt_iff_toNat_lt.1 hwaits
  rw [visit_of_not_isDue h]
  split
  case isTrue hmany =>
    have hone : 1 < (c.scheduled id).toNat := UInt32.lt_iff_toNat_lt.1 hmany
    rw [scheduled, line_setLine_self c _ (lt_of_countdown_pos hwaits), toNat_sub_one hmany]
    change (c.scheduled id).toNat - 1 = _
    omega
  case isFalse hfew =>
    have hone : (c.scheduled id).toNat ≤ 1 := UInt32.le_iff_toNat_le.1 (UInt32.not_lt.1 hfew)
    change (c.scheduled id).toNat = _
    omega

theorem scheduled_setLine_enabled (c : Controller) (other : UInt32) (b : Bool) :
    (c.setLine other { c.line other with enabled := b }).scheduled id = c.scheduled id := by
  by_cases hid : id = other
  · subst hid
    by_cases hlt : id.toNat < lineCount
    · rw [scheduled, line_setLine_self c _ hlt, scheduled]
    · rw [scheduled, scheduled, line_of_le _ (Nat.le_of_not_lt hlt),
        line_of_le _ (Nat.le_of_not_lt hlt)]
  · rw [scheduled, line_setLine_of_ne c _ hid, scheduled]

/-- A request of another line leaves a line as it is. -/
theorem line_request_of_ne (c : Controller) {other : UInt32} (h : id ≠ other) (delay : UInt32) :
    (c.request other delay).1.line id = c.line id := by
  rw [request]
  split
  · dsimp only
    split
    · exact line_setLine_of_ne c _ h
    · exact line_setLine_of_ne c _ h
  · rfl

/-- Between passes a line that is not asked for keeps its countdown. -/
theorem scheduled_operate_of_not_pass (c : Controller) {op : Operation}
    (hop : op.asksFor id = false) (hpass : op.isPass = false) :
    (c.operate timer op).1.scheduled id = c.scheduled id := by
  cases op with
  | enable other =>
    rw [operate, enable]
    split
    · exact scheduled_setLine_enabled c other true
    · rfl
  | disable other =>
    have hline : (c.setLine other { c.line other with enabled := false }).scheduled id =
        c.scheduled id := scheduled_setLine_enabled c other false
    rw [operate, disable, ← hline]
    split <;> rfl
  | request other delay =>
    have hne : id ≠ other := by
      rintro rfl
      simp [Operation.asksFor] at hop
    rw [operate, scheduled, line_request_of_ne c hne, scheduled]
  | acknowledge shift => rfl
  | dismiss => rfl
  | pass rearm => cases hpass

/-- What does not ask for a waiting line and does not deliver it takes one from its countdown if it
is a pass, and nothing otherwise. -/
theorem scheduled_operate {c : Controller} (hzero : id ≠ 0) (hid : id ≠ timer)
    (hwaits : 0 < c.scheduled id) {op : Operation} (hop : op.asksFor id = false)
    (hnot : id ∉ deliveries (c.operate timer op).2) :
    ((c.operate timer op).1.scheduled id).toNat =
      max 1 ((c.scheduled id).toNat - if op.isPass then 1 else 0) := by
  cases hpass : op.isPass with
  | false =>
    have hpos : 0 < (c.scheduled id).toNat := UInt32.lt_iff_toNat_lt.1 hwaits
    rw [scheduled_operate_of_not_pass c hop hpass, if_neg Bool.false_ne_true]
    omega
  | true =>
    obtain ⟨rearm, rfl⟩ : ∃ rearm, op = .pass rearm := by
      cases op with
      | pass rearm => exact ⟨rearm, rfl⟩
      | _ => cases hpass
    obtain ⟨hline, hdelivers⟩ := pass_eq_visit c rearm hzero (lt_of_countdown_pos hwaits) hid
    have hturn : (c.atTurn timer rearm id).scheduled id = c.scheduled id := by
      rw [scheduled, line_atTurn, scheduled]
    have hvisit := scheduled_visit timer rearm (hturn.symm ▸ hwaits)
      fun hdue => hnot (hdelivers.2 hdue)
    rw [hturn] at hvisit
    rw [if_pos rfl, operate, scheduled, hline]
    exact hvisit

/-- Whatever does not ask for a line delivers it only as a pass that finds it due. -/
theorem mem_deliveries_operate_iff (c : Controller) (hzero : id ≠ 0) (hlt : id.toNat < lineCount)
    (hid : id ≠ timer) {op : Operation} (hop : op.asksFor id = false) :
    id ∈ deliveries (c.operate timer op).2 ↔
      ∃ rearm, op = .pass rearm ∧ c.scheduled id = 1 ∧
        (c.atTurn timer rearm id).isEnabled id ∧ (c.atTurn timer rearm id).active? = none := by
  constructor
  · intro hmem
    obtain ⟨rearm, rfl⟩ := exists_pass_of_mem_deliveries hop hmem
    exact ⟨rearm, rfl, (mem_deliveries_pass_iff c rearm hzero hlt hid).1 hmem⟩
  · rintro ⟨rearm, rfl, hdue⟩
    exact (mem_deliveries_pass_iff c rearm hzero hlt hid).2 hdue

section Waiting

variable {c : Controller} {left : Nat} {ops : List Operation}

/-- As long as the line is not delivered, its countdown is what the passes have left of it. -/
theorem scheduled_run (hzero : id ≠ 0) (hid : id ≠ timer)
    (hwaits : (c.scheduled id).toNat = max 1 left) (hops : ∀ op ∈ ops, op.asksFor id = false)
    (hnot : id ∉ deliveries (c.run timer ops).2) :
    ((c.run timer ops).1.scheduled id).toNat = max 1 (left - passCount ops) := by
  induction ops generalizing c left with
  | nil => simpa using hwaits
  | cons op ops ih =>
    rw [run_cons, deliveries_append, List.mem_append, not_or] at hnot
    have hpos : 0 < c.scheduled id := by
      rw [UInt32.lt_iff_toNat_lt, UInt32.toNat_zero]
      omega
    have hfirst := scheduled_operate hzero hid hpos (hops op List.mem_cons_self) hnot.1
    have hleft : ((c.operate timer op).1.scheduled id).toNat =
        max 1 (left - if op.isPass then 1 else 0) := by omega
    have hrest := ih hleft (fun o ho => hops o (List.mem_cons_of_mem op ho)) hnot.2
    rw [run_cons, passCount_cons]
    simp only
    omega

/-- The line is not delivered before its countdown is through. -/
theorem not_mem_deliveries_run (hzero : id ≠ 0) (hid : id ≠ timer)
    (hwaits : (c.scheduled id).toNat = max 1 left) (hops : ∀ op ∈ ops, op.asksFor id = false)
    (hearly : passCount ops < left) : id ∉ deliveries (c.run timer ops).2 := by
  induction ops generalizing c left with
  | nil => simp
  | cons op ops ih =>
    have hpos : 0 < c.scheduled id := by
      rw [UInt32.lt_iff_toNat_lt, UInt32.toNat_zero]
      omega
    have hop := hops op List.mem_cons_self
    rw [passCount_cons] at hearly
    have hfirst : id ∉ deliveries (c.operate timer op).2 := by
      intro hmem
      obtain ⟨rearm, rfl, hone, -⟩ := (mem_deliveries_operate_iff c hzero
        (lt_of_countdown_pos hpos) hid hop).1 hmem
      rw [hone, UInt32.toNat_one] at hwaits
      rw [Operation.isPass, if_pos rfl] at hearly
      omega
    have hleft := scheduled_operate hzero hid hpos hop hfirst
    rw [run_cons, deliveries_append, List.mem_append, not_or]
    have hwaits' : ((c.operate timer op).1.scheduled id).toNat =
        max 1 (left - if op.isPass then 1 else 0) := by omega
    exact ⟨hfirst, ih hwaits' (fun o ho => hops o (List.mem_cons_of_mem op ho)) (by omega)⟩

/-- A line that waits and is not asked for again is delivered once at most. -/
theorem count_deliveries_run_le (hid : id ≠ timer) (hops : ∀ op ∈ ops, op.asksFor id = false) :
    (deliveries (c.run timer ops).2).count id ≤ 1 := by
  have hone : c.waiting id ≤ 1 := c.waiting_le_one
  have hbalance : (c.run timer ops).1.waiting id + (deliveries (c.run timer ops).2).count id =
      c.waiting id := by
    clear hone
    induction ops generalizing c with
    | nil => rfl
    | cons op ops ih =>
      have hfirst := waiting_operate c hid (hops op List.mem_cons_self)
      have hrest := ih (c := (c.operate timer op).1) fun o ho => hops o (List.mem_cons_of_mem op ho)
      rw [run_cons, deliveries_append, List.count_append]
      simp only
      omega
  omega

end Waiting

/-- The passes from which on a request is due, counted from the request. -/
def passesAsked (c : Controller) (id delay : UInt32) : Nat :=
  if c.isEnabled id then max delay.toNat 1 else 1

/-- A request that is not delivered at once waits for as many passes as it asks for. -/
theorem scheduled_request {c : Controller} {delay : UInt32} (hlt : id.toNat < lineCount)
    (hwaits : id ∉ deliveries (c.request id delay).2) :
    ((c.request id delay).1.scheduled id).toNat = max 1 (c.passesAsked id delay) := by
  have hnot : ¬ c.Admits id delay := by
    intro hadmits
    rw [request_of_admits hlt hadmits] at hwaits
    simp [deliveries, Event.delivery?] at hwaits
  have hmax (n : UInt32) : (max n 1).toNat = max n.toNat 1 := by
    change (if n ≤ 1 then 1 else n).toNat = if n.toNat ≤ 1 then 1 else n.toNat
    simp only [UInt32.le_iff_toNat_le, UInt32.toNat_one]
    split <;> rfl
  rw [request_of_not_admits hlt hnot, scheduled, line_setLine_self c _ hlt, passesAsked, isEnabled]
  simp only [delayOf, hmax]
  by_cases henabled : (c.line id).enabled
  · rw [if_pos henabled, if_pos henabled]
    omega
  · rw [if_neg henabled, if_neg henabled]
    rfl

/-- A request that has to wait is in time, whatever happens to the controller from then on but
another request of the line. Until the line is delivered, its countdown is what the passes have left
of the delay, but at least one. The line is not delivered in fewer passes than that. In the next
pass it is delivered if and only if the delay is over by then, the line is enabled, and nothing is
in service when the pass comes to it. It is not delivered again. -/
theorem delivered_when_due {timer id : UInt32} (hzero : id ≠ 0) (hlt : id.toNat < lineCount)
    (hid : id ≠ timer) {c : Controller} {delay : UInt32}
    (hwaits : id ∉ deliveries (c.request id delay).2) {ops : List Operation}
    (hops : ∀ op ∈ ops, op.asksFor id = false) :
    let due := c.passesAsked id delay
    let s := ((c.request id delay).1.run timer ops).1
    let given := deliveries ((c.request id delay).1.run timer ops).2
    (id ∉ given → (s.scheduled id).toNat = max 1 (due - passCount ops)) ∧
      (id ∈ given → due ≤ passCount ops) ∧
      (id ∉ given → ∀ op : Operation, op.asksFor id = false →
        (id ∈ deliveries (s.operate timer op).2 ↔
          ∃ rearm, op = .pass rearm ∧ due ≤ passCount ops + 1 ∧
            (s.atTurn timer rearm id).isEnabled id ∧ (s.atTurn timer rearm id).active? = none)) ∧
      given.count id ≤ 1 := by
  intro due s given
  have hasked : ((c.request id delay).1.scheduled id).toNat = max 1 due :=
    scheduled_request hlt hwaits
  have hcountdown : id ∉ given → (s.scheduled id).toNat = max 1 (due - passCount ops) :=
    scheduled_run hzero hid hasked hops
  refine ⟨hcountdown, ?_, ?_, count_deliveries_run_le hid hops⟩
  · intro hmem
    apply Nat.le_of_not_lt
    intro hearly
    exact not_mem_deliveries_run hzero hid hasked hops hearly hmem
  · intro hnot op hop
    have hone : s.scheduled id = 1 ↔ due ≤ passCount ops + 1 := by
      have h := hcountdown hnot
      rw [← UInt32.toNat_inj, UInt32.toNat_one]
      omega
    rw [mem_deliveries_operate_iff s hzero hlt hid hop]
    simp only [hone]

/-- A line that was disabled in between is delivered in the pass that its delay names. -/
theorem delivered_when_due_third :
    let c := (new.enable 0x1FF).1
    let ops : List Operation :=
      [.pass 0, .disable 0x1FF, .pass 0] ++ [.acknowledge 0, .enable 0x1FF]
    (0x1FF : UInt32) ≠ 0 ∧ (0x1FF : UInt32).toNat < lineCount ∧ (0x1FF : UInt32) ≠ 0x0A ∧
      0x1FF ∉ deliveries (c.request 0x1FF 3).2 ∧ (∀ op ∈ ops, op.asksFor 0x1FF = false) ∧
      0x1FF ∉ deliveries ((c.request 0x1FF 3).1.run 0x0A ops).2 ∧
      (((c.request 0x1FF 3).1.run 0x0A ops).1.scheduled 0x1FF).toNat = 1 ∧
      0x1FF ∈ deliveries (((c.request 0x1FF 3).1.run 0x0A ops).1.operate 0x0A (.pass 0)).2 := by
  intro c ops
  have hzero : (0x1FF : UInt32) ≠ 0 := by decide
  have hlt : (0x1FF : UInt32).toNat < lineCount := by decide
  have hid : (0x1FF : UInt32) ≠ 0x0A := by decide
  have hwaits : 0x1FF ∉ deliveries (c.request 0x1FF 3).2 := by decide +kernel
  have hops : ∀ op ∈ ops, op.asksFor 0x1FF = false := by decide
  have hdue : c.passesAsked 0x1FF 3 = 3 := by decide +kernel
  have hpasses : passCount ops = 2 := by decide
  obtain ⟨hcountdown, hearly, hnext, -⟩ := delivered_when_due hzero hlt hid hwaits hops
  rw [hdue, hpasses] at hcountdown hearly hnext
  have hnot : 0x1FF ∉ deliveries ((c.request 0x1FF 3).1.run 0x0A ops).2 :=
    fun hmem => absurd (hearly hmem) (by decide)
  refine ⟨hzero, hlt, hid, hwaits, hops, hnot, hcountdown hnot, ?_⟩
  refine (hnext hnot (.pass 0) rfl).2 ⟨0, rfl, by decide, ?_⟩
  -- The last line is the first of each pass, so that its turn finds the controller as it is.
  have hfirst : (passOrder 0x0A).takeWhile (· ≠ 0x1FF) = [] := by decide +kernel
  have hturn (d : Controller) : d.atTurn 0x0A 0 0x1FF = d := by rw [atTurn, hfirst, visitAll]
  have hready (d : Controller) :
      (d.run 0x0A [.acknowledge 0, .enable 0x1FF]).1.isEnabled 0x1FF ∧
        (d.run 0x0A [.acknowledge 0, .enable 0x1FF]).1.active? = none := by
    simp only [run_cons, run_nil, operate, acknowledge, enable, if_pos hlt, isEnabled,
      line_setLine_self _ _ hlt, active?, active_setLine, if_true, and_self]
  have hsplit := congrArg Prod.fst (run_append 0x0A (c.request 0x1FF 3).1
    [.pass 0, .disable 0x1FF, .pass 0] [.acknowledge 0, .enable 0x1FF])
  rw [hturn, hsplit]
  exact hready ((c.request 0x1FF 3).1.run 0x0A [.pass 0, .disable 0x1FF, .pass 0]).1

end Controller

end Digic.Interrupt
