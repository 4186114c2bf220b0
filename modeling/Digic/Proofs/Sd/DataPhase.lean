import Digic.Proofs.Sd.Command
import Digic.Sd.Registers
/-!
# Data phases

What the data phases of a read and of a write do, and what a command leaves behind together with its
data. The data phase of a write ends well or is refused at once, and a finished one is not made
again.
-/
namespace Digic.Sd

open Bus

variable {κ : Type} [SdCard κ]

/-- Whether there is something to read: the card has bytes to give, and they were not moved yet. -/
def Host.readDue (h : Host κ) : Bool := !h.status.dataAvailable && h.card.any SdCard.dataReady

def Bench.readOut (b : Bench κ) : Bench κ :=
  match b.card with
  | none => b
  | some card =>
    if b.dmaEnabled then
      let (card, memory) := readWords (b.dmaCount / 4).toNat b.dmaAddr card b.memory
      { b with card := some card, memory, status := b.status.set Status.dataBit }
    else
      { b with card := some (discard (b.transferCount.toNat * b.readBlockSize.toNat) card) }

def Bench.fetched (b : Bench κ) : Bench κ := if b.readDue then b.readOut else b

/-- What the card said to the command stays as it is when bytes are read. -/
theorem Bench.readOut_keeps (b : Bench κ) : b.readOut.response = b.response ∧
    b.readOut.status.ok = b.status.ok ∧ b.readOut.status.error = b.status.error := by
  unfold readOut
  cases b.card with
  | none => exact ⟨rfl, rfl, rfl⟩
  | some card =>
    dsimp only
    split
    · exact ⟨rfl, Status.ok_set_dataBit _, Status.error_set_dataBit _⟩
    · exact ⟨rfl, rfl, rfl⟩

/-- Only bytes that DMA moved are shown as moved. -/
theorem Bench.dataAvailable_readOut {b : Bench κ} (hcard : b.card.isSome)
    (hdue : b.status.dataAvailable = false) : b.readOut.status.dataAvailable = b.dmaEnabled := by
  unfold readOut
  cases h : b.card with
  | none => simp [h] at hcard
  | some card =>
    dsimp only
    split
    case isTrue henabled => exact (Status.dataAvailable_set_dataBit _).trans henabled.symm
    case isFalse hdisabled => exact hdue.trans (Bool.eq_false_iff.2 hdisabled).symm

theorem Bench.fetched_of_due {b : Bench κ} (h : b.readDue = true) : b.fetched = b.readOut :=
  if_pos h

theorem Bench.fetched_of_not_due {b : Bench κ} (h : b.readDue = false) : b.fetched = b :=
  if_neg (by rw [h]; decide)

theorem readData_apply (a : Acting (Bench κ)) :
    readData a = .ok () ⟨a.device.fetched, a.effects⟩ := by
  unfold readData
  rw [bind_of_ok (Action.device_apply a)]
  by_cases hdone : a.device.status.dataAvailable = true
  · rw [if_pos hdone, Bench.fetched_of_not_due (by simp [Host.readDue, hdone])]
    rfl
  rw [if_neg hdone]
  cases hcard : a.device.card with
  | none =>
    rw [Bench.fetched_of_not_due (by simp [Host.readDue, hcard])]
    rfl
  | some card =>
    dsimp only
    by_cases hready : SdCard.dataReady card = true
    · rw [if_neg (by simp [hready]), Bench.fetched_of_due (by simp [Host.readDue, *]),
        Bench.readOut, hcard]
      split <;> rfl
    · rw [if_pos (by simp [hready]), Bench.fetched_of_not_due (by simp [Host.readDue, *])]
      rfl

def Bench.delivered (b : Bench κ) : Bench κ :=
  match b.card with
  | none => b
  | some card =>
    { b with
      card := some (writeWords (b.dmaCount / 4).toNat b.dmaAddr card b.memory)
      status := b.status.set Status.dataBit }

theorem writeData_of_done {a : Acting (Bench κ)} (hdone : a.device.status.dataAvailable = true) :
    writeData a = .ok () a := by
  unfold writeData
  rw [bind_of_ok (Action.device_apply a), if_pos hdone]
  rfl

theorem writeData_of_due {a : Acting (Bench κ)} (hdue : a.device.status.dataAvailable = false)
    (hon : a.device.dmaEnabled = true) :
    writeData a = .ok () ⟨a.device.delivered, a.effects⟩ := by
  unfold writeData Bench.delivered
  rw [bind_of_ok (Action.device_apply a), if_neg (by rw [hdue]; decide),
    bind_of_ok (Action.require_apply hon _ a)]
  cases a.device.card <;> rfl

theorem writeData_of_refused {a : Acting (Bench κ)} (hdue : a.device.status.dataAvailable = false)
    (hoff : a.device.dmaEnabled = false) :
    writeData a =
      .error (.sdWriteWithoutDma a.device.transferCount a.device.writeBlockSize) a := by
  unfold writeData
  rw [bind_of_ok (Action.device_apply a), if_neg (by rw [hdue]; decide), hoff]
  rfl

/-- The bench after a command with new flags, before its data. -/
def Bench.sent (flags : UInt32) (b : Bench κ) : Bench κ :=
  Bench.replied { b with commandFlags := flags, status := .clear }

theorem Bench.status_sent (flags : UInt32) (b : Bench κ) :
    (b.sent flags).status = Status.clear.set
      (if fulfils flags b.reply then Status.okBit else Status.errorBit) := rfl

theorem Bench.ok_sent (flags : UInt32) (b : Bench κ) :
    (b.sent flags).status.ok = fulfils flags b.reply := by
  rw [status_sent]
  cases fulfils flags b.reply <;> decide

theorem Bench.error_sent (flags : UInt32) (b : Bench κ) :
    (b.sent flags).status.error = !fulfils flags b.reply := by
  rw [status_sent]
  cases fulfils flags b.reply <;> decide

theorem Bench.dataAvailable_sent (flags : UInt32) (b : Bench κ) :
    (b.sent flags).status.dataAvailable = false := by
  rw [status_sent]
  cases fulfils flags b.reply <;> decide

def Bench.executed (flags : UInt32) (b : Bench κ) : Bench κ :=
  if flags = readInterruptFlags ∨ flags = readFlags then (b.sent flags).fetched else b.sent flags

theorem Bench.executed_keeps (flags : UInt32) (b : Bench κ) :
    (b.executed flags).response = responseAfter flags b.response b.reply ∧
      (b.executed flags).status.ok = fulfils flags b.reply ∧
      (b.executed flags).status.error = !fulfils flags b.reply := by
  have hsent : (b.sent flags).response = responseAfter flags b.response b.reply := rfl
  have hread := (b.sent flags).readOut_keeps
  rw [hsent, ok_sent, error_sent] at hread
  unfold executed fetched
  split
  · split
    · exact hread
    · exact ⟨hsent, ok_sent flags b, error_sent flags b⟩
  · exact ⟨hsent, ok_sent flags b, error_sent flags b⟩

theorem startCommand_eq (model : Model) (flags : UInt32) (a : Acting (Bench κ)) :
    startCommand model flags a =
      reportCompletion model ⟨a.device.executed flags, a.effects ++ a.device.complaints⟩ := by
  have hsent : sendCommand ⟨{ a.device with commandFlags := flags, status := .clear }, a.effects⟩ =
      .ok () ⟨a.device.sent flags, a.effects ++ a.device.complaints⟩ := sendCommand_apply _
  unfold startCommand Bench.executed
  rw [bind_of_ok (Action.update_apply _ a), bind_of_ok hsent]
  split
  · rw [bind_of_ok (readData_apply _)]
  · rfl

def Bench.answered (b : Bench κ) (card : κ) (words : Vector UInt32 4) : Bench κ :=
  { b with
    card := some (SdCard.command card b.request).2
    response := words
    status := b.status.set Status.okBit }

def Bench.commanded (b : Bench κ) (card : κ) (words : Vector UInt32 4) : Bench κ :=
  Bench.answered { b with commandFlags := writeFlags, status := .clear } card words

/-- A write whose command was accepted has put it to the card, once, and nothing else has happened:
its data phase is still to come. -/
theorem startCommand_of_accepted {model : Model} {a : Acting (Bench κ)}
    (haccepted : (stateAfter (startCommand model writeFlags) a).device.status.ok = true) :
    ∃ card words, a.device.card = some card ∧
      startCommand model writeFlags a = .ok () ⟨a.device.commanded card words, a.effects⟩ := by
  have hexecuted : a.device.executed writeFlags = a.device.sent writeFlags := by
    rw [Bench.executed, if_neg (by decide)]
  -- Until the data has moved there is nothing to report.
  have hreport : (a.device.sent writeFlags).reportable = false := by
    have hflags : (a.device.sent writeFlags).commandFlags = writeFlags := rfl
    simp [Host.reportable, hflags, Bench.dataAvailable_sent]
  have hstart : startCommand model writeFlags a =
      .ok () ⟨a.device.sent writeFlags, a.effects ++ a.device.complaints⟩ := by
    rw [startCommand_eq, hexecuted]
    exact reportCompletion_of_unreportable model hreport
  rw [stateAfter, hstart] at haccepted
  have hfulfilled : fulfils writeFlags a.device.reply = true :=
    (Bench.ok_sent _ _).symm.trans haccepted
  obtain ⟨r, hreply, hresponse⟩ := fulfils_iff.1 hfulfilled
  obtain ⟨words, hwords⟩ : ∃ words, responseWords r = some words := by
    rw [← Option.ne_none_iff_exists']
    intro hnone
    simp [(responseWords_eq_none_iff r).1 hnone, writeFlags] at hresponse
  cases hcard : a.device.card with
  | none => simp [Host.reply, hcard] at hreply
  | some card =>
    have hquiet : a.device.complaints = #[] := by rw [Host.complaints, hreply]
    have hcommanded : a.device.sent writeFlags = a.device.commanded card words := by
      have hasked : a.device.asked = some (SdCard.command card a.device.request).2 := by
        rw [Host.asked, hcard]
        rfl
      have hstored : responseAfter writeFlags a.device.response a.device.reply = words := by
        rw [hreply, responseAfter, if_neg (by decide), hwords]
        rfl
      change { a.device with
        card := a.device.asked
        response := responseAfter writeFlags a.device.response a.device.reply
        commandFlags := writeFlags
        status := Status.clear.set
          (if fulfils writeFlags a.device.reply then Status.okBit else Status.errorBit) } = _
      rw [hasked, hstored, hfulfilled]
      rfl
    exact ⟨card, words, rfl, by rw [hstart, hquiet, Array.append_empty, hcommanded]⟩

end Digic.Sd
