import Digic.Proofs.Machine.InService
/-!
# Every delivery is reported once

A line that was delivered stays in service until firmware asks for it, disables it, or resets the
controller. What firmware is told over a run are the lines whose service ended by its asking, each
once and in the order of their delivery.
-/
namespace Digic

open Interrupt

namespace Machine

inductive Ending where
  /-- Firmware asked for the line in service. -/
  | reported
  /-- Firmware disabled the line. -/
  | disabled
  /-- Firmware wrote to the reset register. -/
  | reset
  /-- Anything else ended it. -/
  | lost
  /-- It has not ended. -/
  | lasting
  deriving DecidableEq, Repr

variable {κ δ : Type} [Sd.SdCard κ] [Cf.AtaDrive δ]

def endingAt (s : Machine κ δ) (st : Step κ δ) : Ending :=
  match st.role s.handlers with
  | .reason _ => .reported
  | .disables lines => if s.interrupts.active ∈ lines then .disabled else .lost
  | .resets => .reset
  | .other => .lost

/-- The ending of the present service, which the first step brings that changes what is in
service. -/
def ending (s : Machine κ δ) : List (Step κ δ) → Ending
  | [] => .lasting
  | st :: steps =>
    if (s.step st).interrupts.active? = s.interrupts.active? then (s.step st).ending steps
    else s.endingAt st

def delivered (s : Machine κ δ) (st : Step κ δ) : List UInt32 :=
  (deliveries (s.step st).events).drop (deliveries s.events).length

/-- The lines that a run delivers, in order, and how their services end. -/
def services (s : Machine κ δ) : List (Step κ δ) → List (UInt32 × Ending)
  | [] => []
  | st :: steps =>
    (s.delivered st).map (fun id => (id, (s.step st).ending steps)) ++ (s.step st).services steps

/-- The line that a step tells firmware of. -/
def report? (s : Machine κ δ) (st : Step κ δ) : Option UInt32 :=
  match st.role s.handlers, s.answer? st with
  | .reason factor, some value => if value = 0 then none else some (value / factor)
  | _, _ => none

def reports (s : Machine κ δ) : List (Step κ δ) → List UInt32
  | [] => []
  | st :: steps => (s.report? st).toList ++ (s.step st).reports steps

def pending (s : Machine κ δ) (steps : List (Step κ δ)) : List (UInt32 × Ending) :=
  s.interrupts.active?.toList.map fun id => (id, s.ending steps)

def ended (s : Machine κ δ) (st : Step κ δ) : List (UInt32 × Ending) :=
  if (s.step st).interrupts.active? = s.interrupts.active? then []
  else s.interrupts.active?.toList.map fun id => (id, s.endingAt st)

end Machine

/-- A step delivers nothing and keeps the service or ends it, or else it delivers a line while
nothing is in service. -/
theorem Service.Moves.balance {v w : Service} {role : Machine.Role} (h : v.Moves role w) :
    w.delivered = v.delivered ∧ (w.active = v.active ∨ w.active = 0) ∨
      v.active = 0 ∧ w.active ≠ 0 ∧ w.delivered = v.delivered ++ [w.active] := by
  cases h with
  | acknowledges factor => exact .inl ⟨rfl, .inr rfl⟩
  | drops hbusy hmem => exact .inl ⟨rfl, .inr rfl⟩
  | spares hfree => exact .inl ⟨rfl, .inl rfl⟩
  | dismisses => exact .inl ⟨rfl, .inr rfl⟩
  | delivers hdelivers =>
    cases hdelivers with
    | nothing => exact .inl ⟨rfl, .inl rfl⟩
    | line id hfree hne hlt => exact .inr ⟨hfree, hne, rfl⟩

namespace Machine

variable {κ δ : Type} [Sd.SdCard κ] [Cf.AtaDrive δ]

theorem active?_congr {c c' : Controller} (h : c'.active = c.active) : c'.active? = c.active? := by
  rw [Controller.active?, Controller.active?, h]

theorem active?_eq_none {c : Controller} (h : c.active = 0) : c.active? = none := if_pos h

theorem active?_eq_some {c : Controller} (h : c.active ≠ 0) : c.active? = some c.active := if_neg h

/-- A step ends the present service or hands it on, together with what it delivers. -/
theorem pending_append_services {s : Machine κ δ} (hnonzero : s.model.InterruptsNonzero)
    {st : Step κ δ} (hproper : st.Proper) (steps : List (Step κ δ)) :
    s.pending (st :: steps) ++ s.services (st :: steps) =
      s.ended st ++ ((s.step st).pending steps ++ (s.step st).services steps) := by
  have hmoves := (moves_step hnonzero hproper).service
  rw [services, pending, pending, ended, ending]
  rcases hmoves.balance with ⟨hnone, hactive⟩ | ⟨hfree, hbusy, hone⟩
  · have hdelivered : s.delivered st = [] := by
      rw [delivered, List.drop_eq_nil_iff]
      exact Nat.le_of_eq (congrArg List.length hnone)
    rw [hdelivered]
    by_cases hsame : (s.step st).interrupts.active? = s.interrupts.active?
    · simp [hsame]
    · have hended : (s.step st).interrupts.active? = none := by
        refine active?_eq_none (hactive.resolve_left fun h => hsame ?_)
        exact active?_congr h
      have hbusy : s.interrupts.active? ≠ none := fun h => hsame (hended.trans h.symm)
      simp [hended, hbusy.symm]
  · have hdelivered : s.delivered st = [(s.step st).interrupts.active] := by
      have hone' : deliveries (s.step st).events =
          deliveries s.events ++ [(s.step st).interrupts.active] := hone
      rw [delivered, hone', List.drop_left]
    have hidle : s.interrupts.active? = none := active?_eq_none hfree
    have hactive : (s.step st).interrupts.active? = some (s.step st).interrupts.active :=
      active?_eq_some hbusy
    simp [hdelivered, hidle, hactive]

theorem factor_of_accessRole {kind : Handler.Kind} {addr value factor : UInt32}
    {direction : Log.Direction} (h : accessRole kind addr direction value = .reason factor) :
    factor = 1 ∨ factor = 4 := by
  obtain ⟨rfl, rfl, -⟩ := readValue_of_accessRole h
  rw [accessRole] at h
  split at h
  · cases h
    exact .inl rfl
  · split at h
    · cases h
      exact .inr rfl
    · cases h

omit [Sd.SdCard κ] [Cf.AtaDrive δ] in
theorem factor_of_role {st : Step κ δ} {table : List Handler.Entry} {factor : UInt32}
    (h : st.role table = .reason factor) : factor = 1 ∨ factor = 4 := by
  cases st with
  | access addr direction value =>
    rw [Step.role] at h
    cases hfind : Handler.find? table addr with
    | none =>
      rw [hfind] at h
      cases h
    | some e =>
      rw [hfind] at h
      exact factor_of_accessRole h
  | tick => cases h
  | request id delay => cases h
  | attachCard card => cases h
  | attachDrive drive => cases h
  | execute memory pc halted => cases h

/-- Neither factor brings a line out of range. -/
theorem mul_factor {id factor : UInt32} (hlt : id.toNat < lineCount)
    (h : factor = 1 ∨ factor = 4) : id * factor / factor = id ∧ (id * factor = 0 ↔ id = 0) := by
  have hlt' : id.toNat < 512 := hlt
  rw [← UInt32.toNat_inj, ← UInt32.toNat_inj, ← UInt32.toNat_inj]
  rcases h with rfl | rfl
  · simp
  · have hmul : (id * 4).toNat = id.toNat * 4 := by
      rw [UInt32.toNat_mul]
      exact Nat.mod_eq_of_lt (show id.toNat * 4 < 4294967296 by omega)
    rw [UInt32.toNat_div, hmul, show (4 : UInt32).toNat = 4 from rfl]
    constructor
    · omega
    · rw [UInt32.toNat_zero]
      omega

/-- Whether the service neither lasts nor was ended by a mask or a reset. -/
def Ending.remains (e : Ending) : Bool := e ≠ .disabled ∧ e ≠ .reset ∧ e ≠ .lasting

theorem ended_of_idle {s : Machine κ δ} (h : s.interrupts.active = 0) (st : Step κ δ) :
    s.ended st = [] := by
  rw [ended, active?_eq_none h]
  split <;> rfl

theorem ended_of_same {s : Machine κ δ} {st : Step κ δ}
    (h : (s.step st).interrupts.active = s.interrupts.active) : s.ended st = [] :=
  if_pos (active?_congr h)

theorem ended_of_busy {s : Machine κ δ} {st : Step κ δ} (hbusy : s.interrupts.active ≠ 0)
    (h : (s.step st).interrupts.active = 0) :
    s.ended st = [(s.interrupts.active, s.endingAt st)] := by
  rw [ended, active?_eq_none h, active?_eq_some hbusy]
  rfl

/-- A step that does not ask is told nothing. -/
theorem report?_of_role_ne {s : Machine κ δ} {st : Step κ δ} {role : Role}
    (hrole : st.role s.handlers = role) (h : ∀ factor, role ≠ .reason factor) :
    s.report? st = none := by
  rw [report?, hrole]
  cases role with
  | reason factor => exact absurd rfl (h factor)
  | disables lines => rfl
  | resets => rfl
  | other => rfl

/-- A step that asks tells of the line in service. -/
theorem report?_of_role_reason {s : Machine κ δ} (hsound : s.service.Sound) {st : Step κ δ}
    {factor : UInt32} (h : st.role s.handlers = .reason factor) :
    s.report? st = s.interrupts.active? := by
  obtain ⟨hdiv, hzero⟩ := mul_factor hsound.exists_line (factor_of_role h)
  have hdiv' : s.interrupts.active * factor / factor = s.interrupts.active := hdiv
  have hzero' : s.interrupts.active * factor = 0 ↔ s.interrupts.active = 0 := hzero
  rw [report?, h, answer?_of_role_reason h, Controller.active?]
  simp only [hdiv', hzero']

/-- What a step tells firmware of is the service that it ends, unless it ends it by a mask or a
reset. -/
theorem ended_remains {s : Machine κ δ} (hnonzero : s.model.InterruptsNonzero)
    (hsound : s.service.Sound) {st : Step κ δ} (hproper : st.Proper) :
    ((s.ended st).filter (·.2.remains)).map (·.1) = (s.report? st).toList ∧
      (s.ended st).filter (·.2 = .lasting) = [] := by
  have hmoves := (moves_step hnonzero hproper).service
  generalize hrole : st.role s.handlers = role at hmoves
  generalize hw : (s.step st).service = w at hmoves
  have hactive : (s.step st).interrupts.active = w.active := congrArg Service.active hw
  cases hmoves with
  | acknowledges factor =>
    rw [report?_of_role_reason hsound hrole]
    by_cases hbusy : s.interrupts.active = 0
    · simp [ended_of_idle hbusy, active?_eq_none hbusy]
    · have hending : s.endingAt st = .reported := by rw [endingAt, hrole]
      simp [ended_of_busy hbusy hactive, active?_eq_some hbusy, hending, Ending.remains]
  | drops hbusy hmem =>
    have hending : s.endingAt st = .disabled := by
      rw [endingAt, hrole]
      exact if_pos hmem
    have hreport : s.report? st = none := report?_of_role_ne hrole (by simp)
    simp [ended_of_busy hbusy hactive, hending, hreport, Ending.remains]
  | spares hfree =>
    have hreport : s.report? st = none := report?_of_role_ne hrole (by simp)
    simp [ended_of_same hactive, hreport]
  | dismisses =>
    have hreport : s.report? st = none := report?_of_role_ne hrole (by simp)
    by_cases hbusy : s.interrupts.active = 0
    · simp [ended_of_idle hbusy, hreport]
    · have hending : s.endingAt st = .reset := by rw [endingAt, hrole]
      simp [ended_of_busy hbusy hactive, hending, hreport, Ending.remains]
  | delivers hdelivers =>
    have hreport : s.report? st = none := report?_of_role_ne hrole (by simp)
    have hended : s.ended st = [] := by
      cases hdelivers with
      | nothing => exact ended_of_same hactive
      | line id hfree hne hlt => exact ended_of_idle hfree st
    simp [hended, hreport]

/-- Over a run the present service and all further ones balance with what firmware is told and with
what is in service at the end. -/
theorem reports_balance {s : Machine κ δ} (hnonzero : s.model.InterruptsNonzero)
    (hsound : s.service.Sound) {steps : List (Step κ δ)} (hproper : ∀ st ∈ steps, st.Proper) :
    ((s.pending steps ++ s.services steps).filter (·.2.remains)).map (·.1) = s.reports steps ∧
      ((s.pending steps ++ s.services steps).filter (·.2 = .lasting)).map (·.1) =
        (s.run steps).interrupts.active?.toList := by
  induction steps generalizing s with
  | nil =>
    rw [services, pending, ending, List.append_nil, run_nil]
    cases s.interrupts.active? with
    | none => exact ⟨rfl, rfl⟩
    | some id => exact ⟨rfl, rfl⟩
  | cons st steps ih =>
    have hst := hproper st List.mem_cons_self
    have hmoves := moves_step hnonzero hst
    obtain ⟨hreport, hnone⟩ := ended_remains hnonzero hsound hst
    obtain ⟨hreports, hlasting⟩ := ih (s := s.step st) (hmoves.model ▸ hnonzero)
      (hmoves.service.sound hsound)
      fun later hlater => hproper later (List.mem_cons_of_mem st hlater)
    rw [pending_append_services hnonzero hst, List.filter_append (s.ended st),
      List.filter_append (s.ended st), List.map_append, hreport, hreports, hnone, List.nil_append,
      hlasting]
    exact ⟨rfl, rfl⟩

/-- The services of a run are its deliveries. -/
theorem map_services {s : Machine κ δ} (hnonzero : s.model.InterruptsNonzero)
    {steps : List (Step κ δ)} (hproper : ∀ st ∈ steps, st.Proper) :
    deliveries s.events ++ (s.services steps).map (·.1) = deliveries (s.run steps).events := by
  induction steps generalizing s with
  | nil => exact List.append_nil _
  | cons st steps ih =>
    have hst := hproper st List.mem_cons_self
    have hmoves := moves_step hnonzero hst
    have hothers := ih (s := s.step st) (hmoves.model ▸ hnonzero)
      fun later hlater => hproper later (List.mem_cons_of_mem st hlater)
    have hfirst : deliveries s.events ++ s.delivered st = deliveries (s.step st).events := by
      rw [delivered]
      rcases hmoves.service.balance with ⟨hsame, -⟩ | ⟨-, -, hone⟩
      · have hsame' : deliveries (s.step st).events = deliveries s.events := hsame
        rw [hsame', List.drop_length, List.append_nil]
      · have hone' : deliveries (s.step st).events =
            deliveries s.events ++ [(s.step st).interrupts.active] := hone
        rw [hone', List.drop_left]
    rw [services, List.map_append, List.map_map, ← List.append_assoc, run_cons, ← hothers, ← hfirst]
    congr 2
    exact List.map_id _

/-- List the lines that a run of a new machine delivers. Without those whose service a mask or a
reset ended, and without the one still in service, they are what firmware was told by asking, in
order and each as often as it was delivered. -/
theorem deliveries_reported_once {m : Model} (hnonzero : m.InterruptsNonzero) {s₀ : Machine κ δ}
    (hnew : assemble m = .ok s₀) {steps : List (Step κ δ)} (hproper : ∀ st ∈ steps, st.Proper) :
    (s₀.services steps).map (·.1) = deliveries (s₀.run steps).events ∧
      ((s₀.services steps).filter (·.2.remains)).map (·.1) = s₀.reports steps ∧
      ((s₀.services steps).filter (·.2 = .lasting)).map (·.1) =
        (s₀.run steps).interrupts.active?.toList := by
  obtain ⟨hmodel, -, hservice⟩ := of_assemble hnew
  have hidle : s₀.interrupts.active = 0 := congrArg Service.active hservice
  have hevents : deliveries s₀.events = [] := congrArg Service.delivered hservice
  have hpending : s₀.pending steps = [] := by
    rw [pending, active?_eq_none hidle]
    rfl
  have hmap := map_services (s := s₀) (hmodel ▸ hnonzero) hproper
  have hbalance := reports_balance (s := s₀) (hmodel ▸ hnonzero)
    (Service.sound_of_active_eq_zero hidle) hproper
  rw [hevents, List.nil_append] at hmap
  rw [hpending, List.nil_append] at hbalance
  exact ⟨hmap, hbalance⟩

/-- Of three deliveries one is reported, one is masked and one lasts. -/
theorem deliveries_reported_once_masked :
    let s₀ : Machine Empty Empty := (ofModel .standard).tell
      (.assembled "DIGIC5" 5 0x01000000 0x00800000)
    let steps : List (Step Empty Empty) :=
      [.access 0xC0201010 .write 0x33, .access 0xC0200018 .write 0x2, .request 0x33 0,
        .access 0xD4011004 .read 0, .request 0x09 0, .access 0xC020001C .write 0x2,
        .access 0xC0201010 .write 0x33, .request 0x33 0]
    Model.standard.InterruptsNonzero ∧ assemble .standard = .ok s₀ ∧
      (∀ st ∈ steps, st.Proper) ∧
      s₀.services steps = [(0x33, .reported), (0x09, .disabled), (0x33, .lasting)] ∧
      s₀.reports steps = [0x33] := by
  intro s₀ steps
  have hnonzero : Model.standard.InterruptsNonzero := by decide
  have hnew : assemble .standard = .ok s₀ := rfl
  have hproper : ∀ st ∈ steps, st.Proper := by simp [steps, Step.Proper]
  have hservices : s₀.services steps =
      [(0x33, .reported), (0x09, .disabled), (0x33, .lasting)] := by
    decide +kernel
  have hreports := (deliveries_reported_once hnonzero hnew hproper).2.1
  rw [hservices] at hreports
  exact ⟨hnonzero, hnew, hproper, hservices, hreports.symm⟩

end Machine

end Digic
