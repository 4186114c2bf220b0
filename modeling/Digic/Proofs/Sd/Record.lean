import Digic.Proofs.Sd.DataPhase
/-!
# A card on record

A card can be put on record: the commands that are put to it and the bytes that it gives are written
down, and nothing else is changed.
-/
namespace Digic.Sd

open Bus

/-- A card with what went on so far. -/
structure Recorded (κ : Type) where
  card : κ
  commands : List Request
  given : List UInt8

namespace Recorded

variable {κ : Type}

def fresh (card : κ) : Recorded κ := ⟨card, [], []⟩

instance [SdCard κ] : SdCard (Recorded κ) where
  command r request :=
    let (reply, card) := SdCard.command r.card request
    (reply, { r with card, commands := r.commands ++ [request] })
  readByte r :=
    let (byte, card) := SdCard.readByte r.card
    (byte, { r with card, given := r.given ++ [byte] })
  writeByte r byte := { r with card := SdCard.writeByte r.card byte }
  dataReady r := SdCard.dataReady r.card

variable [SdCard κ]

theorem length_given_readByte (r : Recorded κ) :
    (SdCard.readByte r).2.given.length = r.given.length + 1 := List.length_append

theorem card_discard (n : Nat) (r : Recorded κ) : (discard n r).card = discard n r.card := by
  induction n generalizing r with
  | zero => rfl
  | succ n ih => exact ih _

theorem commands_discard (n : Nat) (r : Recorded κ) : (discard n r).commands = r.commands := by
  induction n generalizing r with
  | zero => rfl
  | succ n ih => exact ih _

/-- Bytes that are forgotten count as given. -/
theorem length_given_discard (n : Nat) (r : Recorded κ) :
    (discard n r).given.length = r.given.length + n := by
  induction n generalizing r with
  | zero => rfl
  | succ n ih =>
    rw [discard, ih, length_given_readByte]
    omega

theorem readWords_card (n : Nat) (addr : UInt32) (r : Recorded κ) (m : Memory) :
    readWords n addr r.card m = ((readWords n addr r m).1.card, (readWords n addr r m).2) := by
  induction n generalizing addr r m with
  | zero => rfl
  | succ n ih =>
    let next (r : Recorded κ) : Recorded κ := (SdCard.readByte r).2
    exact ih (addr + 4) (next (next (next (next r)))) _

theorem commands_readWords (n : Nat) (addr : UInt32) (r : Recorded κ) (m : Memory) :
    (readWords n addr r m).1.commands = r.commands := by
  induction n generalizing addr r m with
  | zero => rfl
  | succ n ih => exact ih _ _ _

theorem length_given_readWords (n : Nat) (addr : UInt32) (r : Recorded κ) (m : Memory) :
    (readWords n addr r m).1.given.length = r.given.length + 4 * n := by
  induction n generalizing addr r m with
  | zero => rfl
  | succ n ih =>
    rw [readWords, ih]
    simp only [length_given_readByte]
    omega

end Recorded

section Host

variable {κ : Type}

def Bench.recorded (b : Bench κ) : Bench (Recorded κ) := { b with card := b.card.map .fresh }

def Bench.unrecorded (b : Bench (Recorded κ)) : Bench κ := { b with card := b.card.map (·.card) }

/-- The commands that were put to the card. -/
def Bench.commands (b : Bench (Recorded κ)) : List Request :=
  match b.card with
  | none => []
  | some r => r.commands

/-- The bytes that the card gave. -/
def Bench.given (b : Bench (Recorded κ)) : List UInt8 :=
  match b.card with
  | none => []
  | some r => r.given

theorem Bench.unrecorded_recorded (b : Bench κ) : b.recorded.unrecorded = b := by
  have hcard : (b.card.map Recorded.fresh).map (·.card) = b.card := by
    cases b.card <;> rfl
  rw [recorded, unrecorded, hcard]

theorem Bench.commands_recorded (b : Bench κ) : b.recorded.commands = [] := by
  obtain ⟨⟨card, _⟩, _⟩ := b
  cases card <;> rfl

theorem Bench.given_recorded (b : Bench κ) : b.recorded.given = [] := by
  obtain ⟨⟨card, _⟩, _⟩ := b
  cases card <;> rfl

theorem Bench.report_unrecorded (model : Model) (b : Bench (Recorded κ)) :
    b.unrecorded.report model = b.report model := rfl

variable [SdCard κ]

theorem Bench.reply_unrecorded (b : Bench (Recorded κ)) : b.unrecorded.reply = b.reply := by
  obtain ⟨⟨card, _⟩, _⟩ := b
  cases card <;> rfl

theorem Bench.reply_recorded (b : Bench κ) : b.recorded.reply = b.reply := by
  rw [← reply_unrecorded, unrecorded_recorded]

theorem Bench.complaints_unrecorded (b : Bench (Recorded κ)) :
    b.unrecorded.complaints = b.complaints := by
  rw [Host.complaints, reply_unrecorded]
  rfl

theorem Bench.sent_unrecorded (flags : UInt32) (b : Bench (Recorded κ)) :
    b.unrecorded.sent flags = (b.sent flags).unrecorded := by
  obtain ⟨⟨card, _⟩, _⟩ := b
  cases card <;> rfl

/-- A command is put to a card once. -/
theorem Bench.commands_sent (flags : UInt32) (b : Bench (Recorded κ)) :
    (b.sent flags).commands = b.commands ++ (b.card.map fun _ => b.request).toList := by
  obtain ⟨⟨card, _⟩, _⟩ := b
  cases card <;> rfl

/-- A command by itself takes no data from a card. -/
theorem Bench.given_sent (flags : UInt32) (b : Bench (Recorded κ)) :
    (b.sent flags).given = b.given := by
  obtain ⟨⟨card, _⟩, _⟩ := b
  cases card <;> rfl

theorem Bench.readDue_unrecorded (b : Bench (Recorded κ)) : b.unrecorded.readDue = b.readDue := by
  obtain ⟨⟨card, _⟩, _⟩ := b
  cases card <;> rfl

theorem Bench.readOut_unrecorded (b : Bench (Recorded κ)) :
    b.unrecorded.readOut = b.readOut.unrecorded := by
  obtain ⟨⟨card, _⟩, _⟩ := b
  cases card with
  | none => rfl
  | some r =>
    dsimp only [unrecorded, readOut, Option.map_some]
    rw [Recorded.readWords_card, ← Recorded.card_discard]
    split <;> rfl

theorem Bench.commands_readOut (b : Bench (Recorded κ)) : b.readOut.commands = b.commands := by
  obtain ⟨⟨card, _⟩, _⟩ := b
  cases card with
  | none => rfl
  | some r =>
    dsimp only [readOut]
    split
    · exact Recorded.commands_readWords _ _ r _
    · exact Recorded.commands_discard _ r

theorem Bench.length_given_readOut {b : Bench (Recorded κ)} (hcard : b.card.isSome) :
    b.readOut.given.length = b.given.length + if b.dmaEnabled then 4 * (b.dmaCount.toNat / 4)
      else b.transferCount.toNat * b.readBlockSize.toNat := by
  obtain ⟨⟨card, _⟩, _⟩ := b
  cases card with
  | none => cases hcard
  | some r =>
    dsimp only [readOut]
    split
    · exact (Recorded.length_given_readWords _ _ r _).trans (by rw [UInt32.toNat_div]; rfl)
    · exact Recorded.length_given_discard _ r

theorem Bench.fetched_unrecorded (b : Bench (Recorded κ)) :
    b.unrecorded.fetched = b.fetched.unrecorded := by
  unfold fetched
  rw [readDue_unrecorded]
  split
  · exact readOut_unrecorded b
  · rfl

theorem Bench.commands_fetched (b : Bench (Recorded κ)) : b.fetched.commands = b.commands := by
  unfold fetched
  split
  · exact commands_readOut b
  · rfl

theorem Bench.executed_unrecorded (flags : UInt32) (b : Bench (Recorded κ)) :
    b.unrecorded.executed flags = (b.executed flags).unrecorded := by
  unfold executed
  split
  · rw [sent_unrecorded, fetched_unrecorded]
  · exact sent_unrecorded flags b

/-- The record changes nothing of what a command leaves behind. -/
theorem Bench.executed_recorded (flags : UInt32) (b : Bench κ) :
    (b.recorded.executed flags).unrecorded = b.executed flags := by
  rw [← executed_unrecorded, unrecorded_recorded]

theorem Bench.commands_executed (flags : UInt32) (b : Bench (Recorded κ)) :
    (b.executed flags).commands = b.commands ++ (b.card.map fun _ => b.request).toList := by
  unfold executed
  split
  · rw [commands_fetched, commands_sent]
  · exact commands_sent flags b

end Host

end Digic.Sd
