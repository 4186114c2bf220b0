import Digic.Memory.Lemmas
import Digic.Proofs.Sd.Exchange
/-!
# Data of failed commands

A command that failed has no data of its own. Yet the flags of a read alone decide whether a data
phase follows it, and if the card has bytes left from an earlier command, it gives those.
-/
namespace Digic.Sd

open Bus

variable {κ : Type} [SdCard κ]

/-- The data phase of a read follows the command, and the card has bytes to give after it. -/
def Host.Leftover (flags : UInt32) (h : Host κ) : Prop :=
  (flags = readInterruptFlags ∨ flags = readFlags) ∧ h.asked.any SdCard.dataReady = true

theorem Bench.executed_of_leftover {flags : UInt32} {b : Bench κ} (h : b.Leftover flags) :
    b.executed flags = (b.sent flags).readOut := by
  have hdue : (b.sent flags).readDue = true := by
    rw [Host.readDue, dataAvailable_sent]
    exact h.2
  rw [executed, if_pos h.1, fetched_of_due hdue]

theorem Bench.executed_of_no_leftover {flags : UInt32} {b : Bench κ} (h : ¬ b.Leftover flags) :
    b.executed flags = b.sent flags := by
  rw [executed]
  split
  case isFalse => rfl
  case isTrue hread =>
    have hidle : b.asked.any SdCard.dataReady = false :=
      Bool.eq_false_iff.2 fun hready => h ⟨hread, hready⟩
    have hdue : (b.sent flags).readDue = false := by
      rw [Host.readDue, dataAvailable_sent]
      exact hidle
    exact fetched_of_not_due hdue

theorem Bench.leftover_recorded {flags : UInt32} {b : Bench κ} :
    b.recorded.Leftover flags ↔ b.Leftover flags := by
  obtain ⟨⟨card, _⟩, _⟩ := b
  cases card <;> exact Iff.rfl

/-- A card that has bytes to give is there. -/
theorem Bench.isSome_sent_of_leftover {flags : UInt32} {b : Bench κ} (h : b.Leftover flags) :
    (b.sent flags).card.isSome = true := by
  have hready := h.2
  change b.asked.isSome = true
  cases hcard : b.asked with
  | none => simp [hcard] at hready
  | some card => rfl

/-- The card is relieved of all bytes that the host is set to move, and they are shown as moved if
DMA took them into memory. -/
theorem Bench.read_of_leftover {flags : UInt32} {b : Bench κ} (h : b.Leftover flags) :
    (b.recorded.executed flags).given.length =
        (if b.dmaEnabled then 4 * (b.dmaCount.toNat / 4)
          else b.transferCount.toNat * b.readBlockSize.toNat) ∧
      (b.recorded.executed flags).status.dataAvailable = b.dmaEnabled := by
  have hasked := isSome_sent_of_leftover (leftover_recorded.2 h)
  rw [executed_of_leftover (leftover_recorded.2 h)]
  constructor
  · rw [length_given_readOut hasked, given_sent, given_recorded, List.length_nil, Nat.zero_add]
    rfl
  · exact dataAvailable_readOut hasked (dataAvailable_sent _ _)

theorem fulfils_eq_false {flags : UInt32} {reply : Except CardError Response}
    (h : (∃ e, reply = .error e) ∨ reply = .ok .nothing ∧ flags ≠ 0x01 ∧ flags ≠ 0x11) :
    fulfils flags reply = false := by
  rcases h with ⟨e, rfl⟩ | ⟨rfl, hplain, hother⟩
  · rfl
  · simp [fulfils, expectsNothing, hplain, hother]

/-- After a failed command nothing has moved, unless its flags are those of a read and the card has
bytes left: those are then taken from it as if the command had gone well. -/
theorem failed_command_moves (model : Model) {w : Write}
    (htarget : w.target = .host .commandFlags) {b : Bench κ}
    (hfailed : (∃ e, b.reply = .error e) ∨
      b.reply = .ok .nothing ∧ w.value ≠ 0x01 ∧ w.value ≠ 0x11) :
    let a := stateAfter (w.perform model) ⟨b.recorded, #[]⟩
    a.device.status.error = true ∧
    (¬ b.Leftover w.value → a.device.given = [] ∧ a.device.memory = b.memory ∧
      a.device.status.dataAvailable = false) ∧
    (b.Leftover w.value →
      a.device.given.length = (if b.dmaEnabled then 4 * (b.dmaCount.toNat / 4)
        else b.transferCount.toNat * b.readBlockSize.toNat) ∧
      a.device.status.dataAvailable = b.dmaEnabled) := by
  intro a
  have hafter : a.device = b.recorded.executed w.value :=
    congrArg Acting.device (w.stateAfter_command model htarget b.recorded)
  have hreply : b.recorded.reply = b.reply := by
    rw [← Bench.reply_unrecorded, Bench.unrecorded_recorded]
  rw [hafter]
  refine ⟨?_, fun hnone => ?_, Bench.read_of_leftover⟩
  · rw [(Bench.executed_keeps w.value b.recorded).2.2, hreply, fulfils_eq_false hfailed]
    rfl
  · rw [Bench.executed_of_no_leftover (Bench.leftover_recorded.not.2 hnone)]
    exact ⟨(Bench.given_sent _ _).trans b.given_recorded, rfl, Bench.dataAvailable_sent _ _⟩

/-- A card that gives the bytes it has and refuses every command but the one that asks for them. -/
structure Feed where
  bytes : List UInt8

instance : SdCard Feed where
  command feed r :=
    if r.command = 18 then (.ok (.short (Vector.replicate 4 0)), feed)
    else (.error (.illegalCommand r.command), feed)
  readByte feed := (feed.bytes.headD 0, ⟨feed.bytes.tail⟩)
  writeByte feed _ := feed
  dataReady feed := !feed.bytes.isEmpty

def feedBench : Bench Feed where
  toHost := { (Host.new : Host Feed) with
    card := some ⟨[0x55, 0x66, 0x77, 0x88]⟩
    commandHigh := 0x7C00
    dmaEnabled := true
    dmaAddr := 0x2000
    dmaCount := 4 }
  memory := .blank 0

def feedCommand : Write := ⟨⟨"SDIO1", .sdHost, 1⟩, 0, 0xC0C1000C, 0x14⟩

theorem failed_command_moves_leftover :
    let a := stateAfter (feedCommand.perform .standard) ⟨feedBench.recorded, #[]⟩
    feedCommand.target = .host .commandFlags ∧ feedBench.reply = .error (.illegalCommand 60) ∧
      a.device.status.error = true ∧ a.device.given.length = 4 ∧
      a.device.status.dataAvailable = true := by
  intro a
  have htarget : feedCommand.target = .host .commandFlags := rfl
  have hreply : feedBench.reply = .error (.illegalCommand 60) := rfl
  have hleftover : feedBench.Leftover feedCommand.value := ⟨.inl rfl, rfl⟩
  obtain ⟨herror, -, hmoved⟩ := failed_command_moves .standard htarget (.inl ⟨_, hreply⟩)
  obtain ⟨hgiven, hdata⟩ := hmoved hleftover
  exact ⟨htarget, hreply, herror, hgiven, hdata⟩

/-- A command that the card refused takes four bytes from it, moves them into memory and shows them
as moved. -/
theorem refused_command_fills_memory :
    let a := stateAfter (feedCommand.perform .standard) ⟨feedBench.recorded, #[]⟩
    (feedCommand.target = .host .commandFlags ∧ feedBench.reply = .error (.illegalCommand 60) ∧
      a.device.status.error = true) ∧
    a.device.given ≠ [] ∧ a.device.memory.byte 0x2000 ≠ feedBench.memory.byte 0x2000 ∧
      a.device.status.dataAvailable ≠ false := by
  intro a
  have hgiven : a.device.given = [0x55, 0x66, 0x77, 0x88] := rfl
  have hmemory : a.device.memory =
      (Memory.blank 0).writeWord 0x2000 (Memory.wordOfBytes 0x55 0x66 0x77 0x88) := rfl
  refine ⟨⟨rfl, rfl, by decide⟩, ?_, ?_, ?_⟩
  · rw [hgiven]
    decide
  · rw [hmemory, feedBench, Memory.byte_writeWord, Memory.byte_blank]
    decide
  · decide

end Digic.Sd
