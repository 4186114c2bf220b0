import Digic.Machine.State
import Digic.Proofs.Interrupt.Operation
/-!
# What takes a line into service, and what drops it

A request or a pass takes one line into service or none, and only when nothing is in service. To
disable several lines drops the line in service once, if it is among them.
-/
namespace Digic.Interrupt

/-- An event that moves nothing outside of the controller. -/
def Event.IsSilent (e : Event) : Prop := e.delivery? = none ∧ e ≠ .released

/-- A silent event leaves the processor as it is. -/
theorem Event.IsSilent.take {e : Event} (h : e.IsSilent) (cpu : Cpu) : cpu.take e = cpu := by
  cases e with
  | delivered id => cases h.1
  | serviced id => cases h.1
  | released => exact absurd rfl h.2
  | deferred id => rfl
  | unknownRequest id => rfl
  | unknownEnable id => rfl

namespace Controller

/-- From one state of the controller to another, with the events of the way, nothing goes out of
service, and a line comes into service only when there is none. -/
inductive Takes (c c' : Controller) (events : List Event) : Prop where
  | nothing : c'.active = c.active → (∀ e ∈ events, e.IsSilent) → Takes c c' events
  | line (id : UInt32) : c.active = 0 → id ≠ 0 → id.toNat < lineCount → c'.active = id →
    events = [.delivered id] ∨ events = [.serviced id] → Takes c c' events

/-- A request that is not admitted leaves alone what is in service. -/
theorem active_request_of_not_admits {c : Controller} {id delay : UInt32}
    (h : ¬ (id.toNat < lineCount ∧ c.Admits id delay)) :
    (c.request id delay).1.active = c.active ∧ ∀ e ∈ (c.request id delay).2, e.IsSilent := by
  by_cases hlt : id.toNat < lineCount
  · rw [request_of_not_admits hlt fun ha => h ⟨hlt, ha⟩]
    exact ⟨rfl, by simp [Event.IsSilent, Event.delivery?]⟩
  · rw [request_of_le c (Nat.le_of_not_lt hlt)]
    exact ⟨rfl, by simp [Event.IsSilent, Event.delivery?]⟩

theorem takes_request (c : Controller) {id : UInt32} (hid : id ≠ 0) (delay : UInt32) :
    c.Takes (c.request id delay).1 (c.request id delay).2 := by
  by_cases h : id.toNat < lineCount ∧ c.Admits id delay
  · obtain ⟨hlt, ha⟩ := h
    rw [request_of_admits hlt ha]
    exact .line id ha.2.2 hid hlt rfl (.inl rfl)
  · obtain ⟨hactive, hsilent⟩ := active_request_of_not_admits h
    exact .nothing hactive hsilent

theorem active_visit_of_not_isDue {c : Controller} {id : UInt32} (h : ¬ c.isDue id)
    (timer rearm : UInt32) :
    (c.visit timer rearm id).1.active = c.active ∧ (c.visit timer rearm id).2 = [] := by
  rw [visit_of_not_isDue h]
  split <;> exact ⟨rfl, rfl⟩

/-- While something is in service no line is due. -/
theorem not_isDue_of_active {c : Controller} (h : c.active ≠ 0) (id : UInt32) :
    ¬ c.isDue id := by
  simp [isDue, h]

theorem active_eq_zero_of_isDue {c : Controller} {id : UInt32} (h : c.isDue id) :
    c.active = 0 := by
  simp only [isDue, Bool.and_eq_true, beq_iff_eq] at h
  exact h.2

theorem visitAll_of_active {c : Controller} (h : c.active ≠ 0) (timer rearm : UInt32)
    (ids : List UInt32) :
    (c.visitAll timer rearm ids).1.active = c.active ∧ (c.visitAll timer rearm ids).2 = [] := by
  induction ids generalizing c with
  | nil => exact ⟨rfl, rfl⟩
  | cons id ids ih =>
    obtain ⟨hactive, hnone⟩ := active_visit_of_not_isDue (not_isDue_of_active h id) timer rearm
    obtain ⟨hothers, hnil⟩ := ih (c := (c.visit timer rearm id).1) (hactive ▸ h)
    exact ⟨hothers.trans hactive, by rw [visitAll_cons, hnone, hnil]; rfl⟩

theorem takes_visitAll (c : Controller) (timer rearm : UInt32) {ids : List UInt32}
    (hids : ∀ id ∈ ids, id ≠ 0) :
    c.Takes (c.visitAll timer rearm ids).1 (c.visitAll timer rearm ids).2 := by
  induction ids generalizing c with
  | nil => exact .nothing rfl (by simp [visitAll])
  | cons id ids ih =>
    by_cases hd : c.isDue id
    · have hid : id ≠ 0 := hids id List.mem_cons_self
      have hvisit : (c.visit timer rearm id).1.active = id ∧
          (c.visit timer rearm id).2 = [.serviced id] := by
        rw [visit_of_isDue hd]
        exact ⟨rfl, rfl⟩
      obtain ⟨hothers, hnil⟩ := visitAll_of_active (hvisit.1.symm ▸ hid) timer rearm ids
      refine .line id (active_eq_zero_of_isDue hd) hid (lt_of_isDue hd) ?_ (.inr ?_)
      · exact hothers.trans hvisit.1
      · rw [visitAll_cons, hvisit.2, hnil]
        rfl
    · obtain ⟨hactive, hnone⟩ := active_visit_of_not_isDue hd timer rearm
      have hevents : (c.visitAll timer rearm (id :: ids)).2 =
          ((c.visit timer rearm id).1.visitAll timer rearm ids).2 := by
        rw [visitAll_cons, hnone]
        rfl
      rw [hevents]
      cases ih (c.visit timer rearm id).1 fun i hi => hids i (List.mem_cons_of_mem id hi) with
      | nothing hsame hsilent => exact .nothing (hsame.trans hactive) hsilent
      | line other hfree hne hlt hline hone =>
        exact .line other (hactive ▸ hfree) hne hlt hline hone

/-- A pass comes to no line zero. -/
theorem ne_zero_of_mem_passOrder {timer id : UInt32} (h : id ∈ passOrder timer) : id ≠ 0 := by
  rcases List.mem_append.1 h with h | h
  · obtain ⟨n, hn, rfl⟩ := List.mem_map.1 (List.mem_filter.1 h).1
    rw [List.mem_reverse, List.mem_range'_1] at hn
    have hlt : n < 512 := by
      simp only [lineCount] at hn
      omega
    intro hzero
    have hval := congrArg UInt32.toNat hzero
    simp only [Nat.toUInt32, UInt32.toNat_ofNat', UInt32.toNat_zero] at hval
    omega
  · split at h
    case isTrue ht => exact List.mem_singleton.1 h ▸ ht.1
    case isFalse => cases h

theorem takes_pass (c : Controller) (timer rearm : UInt32) :
    c.Takes (c.pass timer rearm).1 (c.pass timer rearm).2 :=
  takes_visitAll c timer rearm fun _ h => ne_zero_of_mem_passOrder h

/-- To enable a line leaves alone what is in service. -/
theorem active_enable (c : Controller) (id : UInt32) :
    (c.enable id).1.active = c.active ∧ ∀ e ∈ (c.enable id).2, e.IsSilent := by
  rw [enable]
  split
  · exact ⟨rfl, by simp⟩
  · exact ⟨rfl, by simp [Event.IsSilent, Event.delivery?]⟩

theorem takes_run_enable (timer : UInt32) (ids : List UInt32) (c : Controller) :
    c.Takes (c.run timer (ids.map .enable)).1 (c.run timer (ids.map .enable)).2 := by
  suffices h : (c.run timer (ids.map .enable)).1.active = c.active ∧
      ∀ e ∈ (c.run timer (ids.map .enable)).2, e.IsSilent from .nothing h.1 h.2
  induction ids generalizing c with
  | nil => exact ⟨rfl, by simp⟩
  | cons id ids ih =>
    obtain ⟨hactive, hsilent⟩ := c.active_enable id
    obtain ⟨hothers, hall⟩ := ih (c.enable id).1
    rw [List.map_cons, run_cons]
    refine ⟨hothers.trans hactive, fun e he => ?_⟩
    exact (List.mem_append.1 he).elim (hsilent e) (hall e)

theorem run_disable_of_not_mem (timer : UInt32) {ids : List UInt32} {c : Controller}
    (h : c.active = 0 ∨ c.active ∉ ids) :
    (c.run timer (ids.map .disable)).1.active = c.active ∧
      (c.run timer (ids.map .disable)).2 = [] := by
  induction ids generalizing c with
  | nil => exact ⟨rfl, rfl⟩
  | cons id ids ih =>
    have hfirst : ¬ (c.active ≠ 0 ∧ c.active = id) := by
      rintro ⟨hne, heq⟩
      exact h.elim hne fun hmem => hmem (heq ▸ List.mem_cons_self)
    have hdisable : (c.disable id).1.active = c.active ∧ (c.disable id).2 = [] := by
      simp [disable, hfirst]
    have hrest : (c.disable id).1.active = 0 ∨ (c.disable id).1.active ∉ ids := by
      rw [hdisable.1]
      exact h.imp_right fun hmem hin => hmem (List.mem_cons_of_mem id hin)
    obtain ⟨hactive, hnil⟩ := ih hrest
    rw [List.map_cons, run_cons]
    refine ⟨hactive.trans hdisable.1, ?_⟩
    simp [operate, hdisable.2, hnil]

theorem run_disable_of_mem (timer : UInt32) {ids : List UInt32} {c : Controller}
    (hbusy : c.active ≠ 0) (h : c.active ∈ ids) :
    (c.run timer (ids.map .disable)).1.active = 0 ∧
      (c.run timer (ids.map .disable)).2 = [.released] := by
  induction ids generalizing c with
  | nil => cases h
  | cons id ids ih =>
    rw [List.map_cons, run_cons]
    by_cases hid : c.active = id
    · have hdisable : (c.disable id).1.active = 0 ∧ (c.disable id).2 = [.released] := by
        simp [disable, hid ▸ hbusy, hid]
      have hfree : (c.disable id).1.active = 0 ∨ (c.disable id).1.active ∉ ids := .inl hdisable.1
      obtain ⟨hactive, hnil⟩ := run_disable_of_not_mem timer hfree
      refine ⟨hactive.trans hdisable.1, ?_⟩
      simp [operate, hdisable.2, hnil]
    · have hdisable : (c.disable id).1.active = c.active ∧ (c.disable id).2 = [] := by
        simp [disable, hid]
      have hmem : c.active ∈ ids := (List.mem_cons.1 h).resolve_left hid
      obtain ⟨hactive, hone⟩ := ih (c := (c.disable id).1) (hdisable.1 ▸ hbusy)
        (hdisable.1 ▸ hmem)
      exact ⟨hactive, by simp [operate, hdisable.2, hone]⟩

end Controller

end Digic.Interrupt
