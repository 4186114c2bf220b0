import Digic.Proofs.Bus.Effects
import Digic.Sd.Host
/-!
# Commands and reports

What a command leaves behind follows from the host before it and from what the card says. A report of
its completion leaves the host alone.
-/
namespace Digic.Sd

open Bus

theorem Status.bits_set_and (s : Status) (bit mask : UInt32) :
    (s.set bit).bits &&& mask = (s.bits &&& mask) ||| (bit &&& mask) := by
  apply UInt32.toBitVec_inj.1
  apply BitVec.eq_of_getLsbD_eq
  intro i _
  simp only [set, UInt32.toBitVec_and, UInt32.toBitVec_or, BitVec.getLsbD_and, BitVec.getLsbD_or,
    Bool.and_or_distrib_right]

theorem Status.ok_set_dataBit (s : Status) : (s.set dataBit).ok = s.ok := by
  have hbit : dataBit &&& okBit = 0 := by decide
  rw [ok, bits_set_and, hbit, UInt32.or_zero, ok]

theorem Status.error_set_dataBit (s : Status) : (s.set dataBit).error = s.error := by
  have hbit : dataBit &&& errorBit = 0 := by decide
  rw [error, bits_set_and, hbit, UInt32.or_zero, error]

theorem Status.dataAvailable_set_dataBit (s : Status) : (s.set dataBit).dataAvailable = true := by
  have hbit : dataBit &&& dataBit = dataBit := by decide
  have hne : dataBit ≠ 0 := by decide
  rw [dataAvailable, bits_set_and, hbit, bne_iff_ne]
  intro hzero
  exact hne (UInt32.or_eq_zero_iff.1 hzero).2

theorem expectsNothing_iff (flags : UInt32) :
    expectsNothing flags = true ↔ flags = 0x01 ∨ flags = 0x11 := by
  rw [expectsNothing, Bool.or_eq_true, beq_iff_eq, beq_iff_eq]

theorem responseWords_eq_none_iff (r : Response) : responseWords r = none ↔ r = .nothing := by
  cases r <;> simp [responseWords]

def fulfils (flags : UInt32) : Except CardError Response → Bool
  | .error _ => false
  | .ok response => expectsNothing flags || response != .nothing

theorem fulfils_iff {flags : UInt32} {reply : Except CardError Response} :
    fulfils flags reply = true ↔
      ∃ r, reply = .ok r ∧ (flags = 0x01 ∨ flags = 0x11 ∨ r ≠ .nothing) := by
  cases reply with
  | error e => simp [fulfils]
  | ok r => simp [fulfils, expectsNothing_iff, or_assoc]

def responseAfter (flags : UInt32) (old : Vector UInt32 4) :
    Except CardError Response → Vector UInt32 4
  | .error _ => old
  | .ok response => if expectsNothing flags then old else (responseWords response).getD old

section Command

variable {κ : Type} [SdCard κ]

/-- What the card says to the command in the command registers. -/
def Host.reply (h : Host κ) : Except CardError Response :=
  match h.card with
  | none => .error .noCard
  | some card => (SdCard.command card h.request).1

def Host.asked (h : Host κ) : Option κ := h.card.map fun card => (SdCard.command card h.request).2

def Host.complaints (h : Host κ) : Array Effect :=
  match h.reply with
  | .error e => #[.note (.sdCommandFailed h.request.command e)]
  | .ok _ => #[]

def Bench.replied (b : Bench κ) : Bench κ :=
  { b with
    card := b.asked
    response := responseAfter b.commandFlags b.response b.reply
    status := b.status.set
      (if fulfils b.commandFlags b.reply then Status.okBit else Status.errorBit) }

theorem askCard_apply (a : Acting (Bench κ)) :
    askCard a = .ok a.device.reply ⟨{ a.device with card := a.device.asked }, a.effects⟩ := by
  unfold askCard Host.reply Host.asked
  rw [bind_of_ok (Action.device_apply a)]
  obtain ⟨b, effects⟩ := a
  obtain ⟨⟨card, _⟩, _⟩ := b
  cases card <;> rfl

theorem sendCommand_apply (a : Acting (Bench κ)) :
    sendCommand a = .ok () ⟨a.device.replied, a.effects ++ a.device.complaints⟩ := by
  unfold sendCommand Bench.replied Host.complaints
  rw [bind_of_ok (Action.device_apply a), bind_of_ok (askCard_apply a)]
  cases a.device.reply with
  | error e => rfl
  | ok response =>
    by_cases hexpects : expectsNothing a.device.commandFlags = true
    · simp only [fulfils, responseAfter, hexpects, Bool.true_or, if_true]
      rfl
    · simp only [fulfils, responseAfter, hexpects, Bool.false_or]
      cases response <;> rfl

end Command

section Report

variable {κ : Type}

/-- What a report ends in if a number is missing, and what it asks for. -/
def Host.report (model : Model) (h : Host κ) : Option Fault × Array Effect :=
  if h.reportable then
    if model.sdDriverInterrupt = 0 then (some .noSdInterrupt, #[])
    else if h.dmaEnabled then
      if model.sdDmaInterrupt = 0 then
        (some .noSdDmaInterrupt, #[.request model.sdDriverInterrupt 0])
      else (none, #[.request model.sdDriverInterrupt 0, .request model.sdDmaInterrupt 0])
    else (none, #[.request model.sdDriverInterrupt 0])
  else (none, #[])

theorem reportCompletion_eq (model : Model) (a : Acting (Bench κ)) :
    reportCompletion model a = match a.device.report model with
      | (none, effects) => .ok () ⟨a.device, a.effects ++ effects⟩
      | (some fault, effects) => .error fault ⟨a.device, a.effects ++ effects⟩ := by
  unfold reportCompletion Host.report
  rw [bind_of_ok (Action.device_apply a)]
  by_cases hreportable : a.device.reportable = true
  · rw [if_pos hreportable, if_pos hreportable]
    by_cases hdriver : model.sdDriverInterrupt = 0
    · rw [if_pos hdriver, Action.bind_apply, Action.require_refuses (not_not_intro hdriver)]
      rfl
    rw [if_neg hdriver, bind_of_ok (Action.require_apply hdriver _ a)]
    by_cases henabled : a.device.dmaEnabled = true
    · rw [if_pos henabled, if_pos henabled]
      change (Action.require _ _ >>= fun _ => _) _ = _
      by_cases hdma : model.sdDmaInterrupt = 0
      · rw [if_pos hdma, Action.bind_apply, Action.require_refuses (not_not_intro hdma)]
        rfl
      · rw [if_neg hdma, bind_of_ok (Action.require_apply hdma _ _)]
        rfl
    · rw [if_neg henabled, if_neg henabled]
      rfl
  · rw [if_neg hreportable, if_neg hreportable]
    rfl

theorem Host.report_of_unreportable (model : Model) {h : Host κ} (hnot : h.reportable = false) :
    h.report model = (none, #[]) := by
  rw [report, hnot]
  rfl

theorem Host.unreportable_of_error {h : Host κ} (herror : h.status.error = true) :
    h.reportable = false := by
  simp [reportable, herror]

theorem reportCompletion_of_unreportable (model : Model) {a : Acting (Bench κ)}
    (h : a.device.reportable = false) : reportCompletion model a = .ok () a := by
  rw [reportCompletion_eq, Host.report_of_unreportable model h]
  rfl

/-- A report is due and the model has no number for an interrupt that it asks for. -/
def Host.Unnumbered (model : Model) (h : Host κ) : Prop :=
  h.reportable = true ∧
    (model.sdDriverInterrupt = 0 ∨ h.dmaEnabled = true ∧ model.sdDmaInterrupt = 0)

theorem Host.report_fst_eq_none_iff (model : Model) (h : Host κ) :
    (h.report model).1 = none ↔ ¬ h.Unnumbered model := by
  unfold report Unnumbered
  cases h.reportable
  · simp
  by_cases hdriver : model.sdDriverInterrupt = 0
  · simp [hdriver]
  cases h.dmaEnabled
  · simp [hdriver]
  by_cases hdma : model.sdDmaInterrupt = 0 <;> simp [hdriver, hdma]

def completion (model : Model) (h : Host κ) : Array Effect :=
  if h.reportable then
    if h.dmaEnabled then #[.request model.sdDriverInterrupt 0, .request model.sdDmaInterrupt 0]
    else #[.request model.sdDriverInterrupt 0]
  else #[]

theorem reportCompletion_apply {model : Model} (hdriver : model.sdDriverInterrupt ≠ 0)
    (hdma : model.sdDmaInterrupt ≠ 0) (a : Acting (Bench κ)) :
    reportCompletion model a =
      .ok () ⟨a.device, a.effects ++ completion model a.device.toHost⟩ := by
  have hreport : a.device.report model = (none, completion model a.device.toHost) := by
    unfold Host.report completion
    rw [if_neg hdriver, if_neg hdma]
    split
    · split <;> rfl
    · rfl
  rw [reportCompletion_eq, hreport]

end Report

end Digic.Sd
