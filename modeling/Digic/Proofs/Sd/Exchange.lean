import Digic.Proofs.Sd.Packing
import Digic.Proofs.Sd.Record
import Digic.Proofs.Sd.WriteOnce
/-!
# Commands and what becomes of them

Firmware spells a command in two registers and sets it off with its flags. What the card says then
stands in the status, and its response, if one is expected, in four registers.
-/
namespace Digic.Sd

open Bus

variable {κ : Type} [SdCard κ]

def Write.commandTrace (w : Write) : Effect :=
  .note (.access ⟨w.window.name, w.pc, w.addr, .write, w.value, "Command flags?"⟩)

theorem Write.perform_command (model : Model) {w : Write}
    (htarget : w.target = .host .commandFlags) (b : Bench κ) :
    w.perform model ⟨b, #[]⟩ = match (b.executed w.value).report model with
      | (none, requests) =>
        .ok () ⟨b.executed w.value, (b.complaints ++ requests).push w.commandTrace⟩
      | (some fault, requests) => .error fault ⟨b.executed w.value, b.complaints ++ requests⟩ := by
  rw [w.perform_commandFlags model htarget, startCommand_eq, reportCompletion_eq]
  simp only [Array.empty_append]
  obtain ⟨fault | fault, requests⟩ := (b.executed w.value).report model <;> rfl

def Write.tells (model : Model) (w : Write) (b : Bench κ) : Array Effect :=
  let report := (b.executed w.value).report model
  b.complaints ++ report.2 ++ if report.1.isNone then #[w.commandTrace] else #[]

theorem Write.stateAfter_command (model : Model) {w : Write}
    (htarget : w.target = .host .commandFlags) (b : Bench κ) :
    stateAfter (w.perform model) ⟨b, #[]⟩ = ⟨b.executed w.value, w.tells model b⟩ := by
  rw [stateAfter, w.perform_command model htarget, tells]
  obtain ⟨fault | fault, requests⟩ := (b.executed w.value).report model <;> rfl

theorem Write.ends_well_iff (model : Model) {w : Write}
    (htarget : w.target = .host .commandFlags) (b : Bench κ) :
    (∃ a, w.perform model ⟨b, #[]⟩ = .ok () a) ↔ ¬ (b.executed w.value).Unnumbered model := by
  rw [← Host.report_fst_eq_none_iff, w.perform_command model htarget]
  obtain ⟨fault | fault, requests⟩ := (b.executed w.value).report model <;> simp

/-- Where there is nothing to report, nothing is asked for. -/
theorem Write.no_request_of_unreportable (model : Model) (w : Write) {b : Bench κ}
    (hnot : (b.executed w.value).reportable = false) (id delay : UInt32) :
    Effect.request id delay ∉ w.tells model b := by
  rw [tells, Host.report_of_unreportable model hnot, Host.complaints, commandTrace]
  cases b.reply <;> simp

/-- After an error nothing is asked for. -/
theorem Write.no_request_of_error (model : Model) (w : Write) {b : Bench κ}
    (herror : (b.executed w.value).status.error = true) (id delay : UInt32) :
    Effect.request id delay ∉ w.tells model b :=
  w.no_request_of_unreportable model (Host.unreportable_of_error herror) id delay

theorem Write.refusal_told (model : Model) (w : Write) {b : Bench κ} {e : CardError}
    (hreply : b.reply = .error e) :
    .note (.sdCommandFailed b.request.command e) ∈ w.tells model b := by
  rw [tells, Host.complaints, hreply]
  obtain ⟨fault | fault, requests⟩ := (b.executed w.value).report model <;> simp

theorem Write.tells_recorded (model : Model) (w : Write) (b : Bench κ) :
    w.tells model b.recorded = w.tells model b := by
  have hcomplaints : b.complaints = b.recorded.complaints := by
    rw [← Bench.complaints_unrecorded, Bench.unrecorded_recorded]
  rw [tells, tells, ← b.executed_recorded, hcomplaints, Bench.report_unrecorded]

/-- How a command with the given flags ended. `b` is the bench before it, and `a` is what it left
behind with the card on record. -/
structure Exchanged (flags : UInt32) (b : Bench κ) (a : Acting (Bench (Recorded κ))) : Prop where
  /-- The card, if there is one, is put one command. -/
  commands : a.device.commands = (b.card.map fun _ => b.request).toList
  /-- A command that the card refuses, or that has no card to go to, is told of. -/
  refused : ∀ e, b.reply = .error e → .note (.sdCommandFailed b.request.command e) ∈ a.effects
  error : a.device.status.error = !a.device.status.ok
  ok : a.device.status.ok = true ↔
    ∃ r, b.reply = .ok r ∧ (flags = 0x01 ∨ flags = 0x11 ∨ r ≠ .nothing)
  kept : a.device.status.ok = false ∨ flags = 0x01 ∨ flags = 0x11 →
    a.device.response = b.response
  short : ∀ bytes, b.reply = .ok (.short bytes) → flags ≠ 0x01 → flags ≠ 0x11 →
    a.device.response = #v[
        bigEndian (bytes.get 1) (bytes.get 2) (bytes.get 3) 0,
        bigEndian 0 0 0 (bytes.get 0), 0, 0] ∧
      shortPayload a.device.response = bytes
  long : ∀ bytes, b.reply = .ok (.long bytes) → flags ≠ 0x01 → flags ≠ 0x11 →
    a.device.response = #v[
        bigEndian (bytes.get 12) (bytes.get 13) (bytes.get 14) (bytes.get 15),
        bigEndian (bytes.get 8) (bytes.get 9) (bytes.get 10) (bytes.get 11),
        bigEndian (bytes.get 4) (bytes.get 5) (bytes.get 6) (bytes.get 7),
        bigEndian (bytes.get 0) (bytes.get 1) (bytes.get 2) (bytes.get 3)] ∧
      longPayload a.device.response = bytes
  quiet : a.device.status.error = true → ∀ id delay, Effect.request id delay ∉ a.effects

theorem responseAfter_eq_of_kept {flags : UInt32} {old : Vector UInt32 4}
    {reply : Except CardError Response}
    (h : fulfils flags reply = false ∨ flags = 0x01 ∨ flags = 0x11) :
    responseAfter flags old reply = old := by
  rw [← expectsNothing_iff] at h
  cases reply with
  | error e => rfl
  | ok r =>
    rw [responseAfter]
    split
    case isTrue => rfl
    case isFalse hexpects =>
      have hnothing : r = .nothing := by simpa [fulfils, hexpects] using h
      rw [hnothing]
      rfl

theorem responseAfter_eq_of_words {flags : UInt32} (h : ¬ (flags = 0x01 ∨ flags = 0x11))
    (old : Vector UInt32 4) {r : Response} {words : Vector UInt32 4}
    (hwords : responseWords r = some words) : responseAfter flags old (.ok r) = words := by
  rw [responseAfter, if_neg (by rwa [expectsNothing_iff]), hwords]
  rfl

theorem Write.exchanged (model : Model) (w : Write) (b : Bench κ) :
    Exchanged w.value b ⟨b.recorded.executed w.value, w.tells model b.recorded⟩ := by
  obtain ⟨hresponse, hok, herror⟩ := b.recorded.executed_keeps w.value
  rw [b.reply_recorded] at hresponse hok herror
  constructor
  case commands =>
    rw [Bench.commands_executed, Bench.commands_recorded, List.nil_append, Bench.recorded,
      Option.map_map]
    rfl
  case refused =>
    intro e he
    rw [w.tells_recorded]
    exact w.refusal_told model he
  case error => exact herror.trans (by rw [hok])
  case ok => exact (Bool.eq_iff_iff.1 hok).trans fulfils_iff
  case kept =>
    intro hkept
    rw [hok] at hkept
    exact hresponse.trans (responseAfter_eq_of_kept hkept)
  case short =>
    intro bytes hbytes hplain hother
    rw [hbytes, responseAfter_eq_of_words (not_or.2 ⟨hplain, hother⟩) _ rfl] at hresponse
    exact ⟨hresponse, shortPayload_of_responseWords (congrArg some hresponse).symm⟩
  case long =>
    intro bytes hbytes hplain hother
    rw [hbytes, responseAfter_eq_of_words (not_or.2 ⟨hplain, hother⟩) _ rfl] at hresponse
    exact ⟨hresponse, longPayload_of_responseWords (congrArg some hresponse).symm⟩
  case quiet => exact fun he => w.no_request_of_error model he

/-- Whatever the registers hold and whatever card there is, new flags put one command to it, the one
that the registers spell, and it ends as `Exchanged` says. All this is so with or without the
record, and it ends in no fault unless a report is due for which the model has no number. -/
theorem command_exchanged (model : Model) {w : Write} (htarget : w.target = .host .commandFlags)
    (b : Bench κ) :
    let a := stateAfter (w.perform model) ⟨b.recorded, #[]⟩
    Exchanged w.value b a ∧
    (∀ r, b.Spells r → b.request = r) ∧
    stateAfter (w.perform model) ⟨b, #[]⟩ = ⟨a.device.unrecorded, a.effects⟩ ∧
    ((∃ a', w.perform model ⟨b, #[]⟩ = .ok () a') ↔ ¬ a.device.Unnumbered model) := by
  intro a
  have hafter : a = ⟨b.recorded.executed w.value, w.tells model b.recorded⟩ :=
    w.stateAfter_command model htarget b.recorded
  have hplain : (b.recorded.executed w.value).unrecorded = b.executed w.value := by
    rw [← Bench.executed_unrecorded, Bench.unrecorded_recorded]
  have hunnumbered : (b.recorded.executed w.value).Unnumbered model ↔
      (b.executed w.value).Unnumbered model := by
    rw [← hplain]
    exact Iff.rfl
  rw [hafter, w.stateAfter_command model htarget, w.ends_well_iff model htarget, hplain,
    w.tells_recorded, hunnumbered]
  refine ⟨?_, fun r hr => hr.request_eq, rfl, Iff.rfl⟩
  rw [← w.tells_recorded]
  exact w.exchanged model b

/-- A card that answers whatever it is asked by its identity. -/
structure Plate where
  identity : Vector UInt8 16

instance : SdCard Plate where
  command plate _ := (.ok (.long plate.identity), plate)
  readByte plate := (0, plate)
  writeByte plate _ := plate
  dataReady _ := false

def plateBench : Bench Plate where
  toHost := { (Host.new : Host Plate) with
    card := some ⟨Vector.ofFn fun i => i.val.toUInt8⟩
    commandHigh := 0xABCD4212
    commandLow := 0x345678EF }
  memory := .blank 0

def plateCommand : Write := ⟨⟨"SDIO1", .sdHost, 1⟩, 0, 0xC0C1000C, 0x12⟩

theorem command_exchanged_long :
    let a := stateAfter (plateCommand.perform .standard) ⟨plateBench.recorded, #[]⟩
    plateCommand.target = .host .commandFlags ∧ a.device.commands = [⟨2, 0x12345678⟩] ∧
      a.device.status.ok = true ∧
      longPayload a.device.response = Vector.ofFn fun i => i.val.toUInt8 := by
  intro a
  have htarget : plateCommand.target = .host .commandFlags := rfl
  obtain ⟨hexchanged, hspells, -, -⟩ := command_exchanged .standard htarget plateBench
  have hrequest : plateBench.request = ⟨2, 0x12345678⟩ :=
    hspells ⟨2, 0x12345678⟩ ⟨by decide, by decide, by decide, by decide⟩
  have hreply : plateBench.reply = .ok (.long (Vector.ofFn fun i => i.val.toUInt8)) := rfl
  refine ⟨htarget, ?_, ?_, ?_⟩
  · rw [hexchanged.commands, hrequest]
    rfl
  · exact hexchanged.ok.2 ⟨_, hreply, .inr (.inr nofun)⟩
  · exact (hexchanged.long _ hreply (by decide) (by decide)).2

end Digic.Sd
