import Digic.Proofs.Sd.Leftover
/-!
# Read data in its buffer

A read whose command was accepted takes all data that the host is set to move from the card at once.
With DMA it lies in memory from the address of the buffer on, in the order in which the card gave it,
around the top of memory too. Without DMA it is lost, and nobody is told.
-/
namespace Digic.Sd

open Bus Memory

variable {κ : Type} [SdCard κ]

/-- What four bytes and the bytes behind them leave at a place, seen from the place of the word. -/
theorem byte_writeWord_cons (m : Memory) (addr : UInt32) (b0 b1 b2 b3 : UInt8) {rest : List UInt8}
    (hlength : rest.length + 4 ≤ 2 ^ 32) (x : UInt32) :
    (rest[(x - (addr + 4)).toNat]?).getD ((m.writeWord addr (wordOfBytes b0 b1 b2 b3)).byte x) =
      ((b0 :: b1 :: b2 :: b3 :: rest)[(x - addr).toNat]?).getD (m.byte x) := by
  have hlt : (x - addr).toNat < 2 ^ 32 := (x - addr).toNat_lt
  have hoffset := toNat_sub_add x addr 4
  simp only [UInt32.reduceToNat] at hoffset
  rw [byte_writeWord]
  by_cases hword : (x - addr).toNat < 4
  · -- The rest does not come around to the word again.
    have hfar : rest.length ≤ (x - (addr + 4)).toNat := by omega
    have hbyte := byteOfWord_wordOfBytes (fun k => [b0, b1, b2, b3].getD k 0) hword
    have hcases : (x - addr).toNat = 0 ∨ (x - addr).toNat = 1 ∨ (x - addr).toNat = 2 ∨
        (x - addr).toNat = 3 := by omega
    rw [List.getElem?_eq_none hfar, if_pos hword, Option.getD_none]
    refine hbyte.trans ?_
    rcases hcases with h | h | h | h <;> rw [h] <;> rfl
  · have hback : (x - addr).toNat = (x - (addr + 4)).toNat + 4 := by omega
    rw [if_neg hword, hback]
    rfl

/-- Words that a card gives lie in memory one after the other, and nothing else is changed. -/
theorem Recorded.readWords_stores (n : Nat) (addr : UInt32) (r : Recorded κ) (m : Memory)
    (hlength : 4 * n ≤ 2 ^ 32) :
    ∃ bytes : List UInt8, bytes.length = 4 * n ∧
      (readWords n addr r m).1.given = r.given ++ bytes ∧
      ∀ x, (readWords n addr r m).2.byte x = (bytes[(x - addr).toNat]?).getD (m.byte x) := by
  induction n generalizing addr r m with
  | zero => exact ⟨[], rfl, (List.append_nil _).symm, fun x => rfl⟩
  | succ n ih =>
    let next (r : Recorded κ) : Recorded κ := (SdCard.readByte r).2
    let byte (r : Recorded κ) : UInt8 := (SdCard.readByte r).1
    have hgiven (r : Recorded κ) : (next r).given = r.given ++ [byte r] := rfl
    obtain ⟨rest, hrest, hrun, hbytes⟩ := ih (addr + 4) (next (next (next (next r))))
      (m.writeWord addr (wordOfBytes (byte r) (byte (next r)) (byte (next (next r)))
        (byte (next (next (next r)))))) (by omega)
    refine ⟨byte r :: byte (next r) :: byte (next (next r)) :: byte (next (next (next r))) :: rest,
      ?_, hrun.trans ?_, fun x => ?_⟩
    · simp only [List.length_cons, hrest]
      omega
    · simp only [hgiven, List.append_assoc, List.cons_append, List.nil_append]
    · exact (hbytes x).trans (byte_writeWord_cons m addr _ _ _ _ (by omega) x)

/-- With DMA the bytes lie in memory as they were given. -/
theorem Bench.byte_readOut {b : Bench (Recorded κ)} (hcard : b.card.isSome) (hfresh : b.given = [])
    (hon : b.dmaEnabled = true) (x : UInt32) :
    b.readOut.memory.byte x =
      (b.readOut.given[(x - b.dmaAddr).toNat]?).getD (b.memory.byte x) := by
  have hlength : 4 * (b.dmaCount / 4).toNat ≤ 2 ^ 32 := by
    have hlt := b.dmaCount.toNat_lt
    rw [UInt32.toNat_div]
    simp only [UInt32.reduceToNat]
    omega
  obtain ⟨⟨card, _⟩, memory⟩ := b
  cases card with
  | none => cases hcard
  | some r =>
    obtain ⟨bytes, -, hgiven, hbytes⟩ := r.readWords_stores _ _ memory hlength
    have hnone : r.given = [] := hfresh
    rw [hnone, List.nil_append] at hgiven
    dsimp only [readOut, given] at hon ⊢
    rw [if_pos hon]
    dsimp only
    rw [hgiven]
    exact hbytes x

/-- Without DMA memory stays as it is. -/
theorem Bench.memory_readOut {b : Bench κ} (hoff : b.dmaEnabled = false) :
    b.readOut.memory = b.memory := by
  unfold readOut
  rw [hoff]
  cases b.card <;> rfl

/-- The status after a read is that of its command, and shows the data if DMA moved it. -/
theorem Bench.status_readOut {b : Bench κ} (hcard : b.card.isSome) :
    b.readOut.status = if b.dmaEnabled then b.status.set Status.dataBit else b.status := by
  obtain ⟨card, hcard⟩ := Option.isSome_iff_exists.1 hcard
  unfold readOut
  rw [hcard]
  dsimp only
  split <;> rfl

theorem Bench.status_sent_of_fulfils {flags : UInt32} {b : Bench κ}
    (h : fulfils flags b.reply = true) : (b.sent flags).status = ⟨Status.okBit⟩ := by
  rw [status_sent, if_pos h]
  rfl

omit [SdCard κ] in
/-- Until the data of a read is in memory, its interrupt flags report nothing. -/
theorem Bench.unreportable_of_lost {b : Bench κ} (hdata : b.status.dataAvailable = false)
    (hflags : b.commandFlags = readInterruptFlags) : b.reportable = false := by
  simp [Host.reportable, hdata, hflags]

theorem Bench.commandFlags_readOut (b : Bench κ) : b.readOut.commandFlags = b.commandFlags := by
  unfold readOut
  cases b.card with
  | none => rfl
  | some card =>
    dsimp only
    split <;> rfl

/-- A read whose command the card accepts, and for which it has data, takes exactly as much from it
as the host is set to move. With DMA the bytes then lie in memory from the address of the buffer on,
as they were given, and no other byte is changed. Without DMA no byte of memory is changed, and the
data does not count as moved, so that flags that ask for an interrupt do not get one. -/
theorem read_fills_buffer (model : Model) {w : Write} (htarget : w.target = .host .commandFlags)
    (hflags : w.value = 0x04 ∨ w.value = 0x14) {b : Bench κ}
    (haccepted : (stateAfter (w.perform model) ⟨b, #[]⟩).device.status.ok = true)
    (hready : b.asked.any SdCard.dataReady = true) :
    let a := stateAfter (w.perform model) ⟨b.recorded, #[]⟩
    let given := a.device.given
    stateAfter (w.perform model) ⟨b, #[]⟩ = ⟨a.device.unrecorded, a.effects⟩ ∧
    ((∃ a', w.perform model ⟨b, #[]⟩ = .ok () a') ↔ ¬ a.device.Unnumbered model) ∧
    (b.dmaEnabled = true →
      given.length = 4 * (b.dmaCount.toNat / 4) ∧
      (∀ x, a.device.memory.byte x = (given[(x - b.dmaAddr).toNat]?).getD (b.memory.byte x)) ∧
      a.device.status = ⟨Status.okBit ||| Status.dataBit⟩) ∧
    (b.dmaEnabled = false →
      given.length = b.transferCount.toNat * b.readBlockSize.toNat ∧
      a.device.memory = b.memory ∧
      a.device.status = ⟨Status.okBit⟩ ∧
      (w.value = 0x14 → ∀ id delay, Effect.request id delay ∉ a.effects)) := by
  intro a given
  have hafter : a = ⟨b.recorded.executed w.value, w.tells model b.recorded⟩ :=
    w.stateAfter_command model htarget b.recorded
  have hleftover : b.Leftover w.value := ⟨hflags.symm, hready⟩
  have hexecuted : b.recorded.executed w.value = (b.recorded.sent w.value).readOut :=
    Bench.executed_of_leftover (Bench.leftover_recorded.2 hleftover)
  have hread : a.device = (b.recorded.sent w.value).readOut :=
    (congrArg Acting.device hafter).trans hexecuted
  have hcard : (b.recorded.sent w.value).card.isSome = true :=
    Bench.isSome_sent_of_leftover (Bench.leftover_recorded.2 hleftover)
  have hfresh : (b.recorded.sent w.value).given = [] :=
    (Bench.given_sent _ _).trans b.given_recorded
  have hfulfils : fulfils w.value b.recorded.reply = true := by
    rw [w.stateAfter_command model htarget] at haccepted
    rw [b.reply_recorded, ← (b.executed_keeps w.value).2.1]
    exact haccepted
  have hstatus := Bench.status_readOut hcard
  rw [Bench.status_sent_of_fulfils hfulfils, ← hread] at hstatus
  obtain ⟨hlength, hdata⟩ := Bench.read_of_leftover hleftover
  rw [hexecuted, ← hread] at hlength hdata
  refine ⟨?plain, ?ends, fun hon => ?moved, fun hoff => ?lost⟩
  case plain =>
    rw [hafter, w.stateAfter_command model htarget, b.executed_recorded, w.tells_recorded]
  case ends =>
    rw [hafter, w.ends_well_iff model htarget, ← b.executed_recorded]
    exact Iff.rfl
  case moved =>
    have hbytes := Bench.byte_readOut hcard hfresh hon
    rw [← hread] at hbytes
    exact ⟨hlength.trans (if_pos hon), hbytes, hstatus.trans (if_pos hon)⟩
  case lost =>
    have hdisabled : ¬ b.dmaEnabled = true := Bool.eq_false_iff.1 hoff
    have hmemory : a.device.memory = b.memory := by
      rw [hread]
      exact Bench.memory_readOut hoff
    refine ⟨hlength.trans (if_neg hdisabled), hmemory, hstatus.trans (if_neg hdisabled), ?_⟩
    intro hwants id delay
    have hcommand : a.device.commandFlags = readInterruptFlags := by
      rw [hread, Bench.commandFlags_readOut]
      exact hwants
    have hidle := Bench.unreportable_of_lost (hdata.trans hoff) hcommand
    rw [hafter] at hidle ⊢
    exact w.no_request_of_unreportable model hidle id delay

def wrappingBench : Bench Feed where
  toHost := { (Host.new : Host Feed) with
    card := some ⟨[0x55, 0x66, 0x77, 0x88, 0x99, 0xAA]⟩
    commandHigh := 0x5200
    dmaEnabled := true
    dmaAddr := 0xFFFFFFFE
    dmaCount := 6 }
  memory := .blank 0xA5

theorem read_fills_buffer_wrapping :
    let a := stateAfter (feedCommand.perform .standard) ⟨wrappingBench.recorded, #[]⟩
    feedCommand.target = .host .commandFlags ∧ feedCommand.value = 0x14 ∧
      (stateAfter (feedCommand.perform .standard) ⟨wrappingBench, #[]⟩).device.status.ok = true ∧
      wrappingBench.asked.any SdCard.dataReady = true ∧
      a.device.given = [0x55, 0x66, 0x77, 0x88] ∧
      a.device.memory.byte 0xFFFFFFFF = 0x66 ∧ a.device.memory.byte 0 = 0x77 ∧
      a.device.memory.byte 2 = 0xA5 ∧ a.device.status.dataAvailable = true := by
  intro a
  have htarget : feedCommand.target = .host .commandFlags := rfl
  have haccepted :
      (stateAfter (feedCommand.perform .standard) ⟨wrappingBench, #[]⟩).device.status.ok = true := by
    decide
  have hready : wrappingBench.asked.any SdCard.dataReady = true := rfl
  have hgiven : a.device.given = [0x55, 0x66, 0x77, 0x88] := rfl
  obtain ⟨-, -, hmoved, -⟩ := read_fills_buffer .standard htarget (.inr rfl) haccepted hready
  obtain ⟨-, hbytes, hstatus⟩ := hmoved rfl
  refine ⟨htarget, rfl, haccepted, hready, hgiven, ?_, ?_, ?_, ?_⟩
  · exact hbytes 0xFFFFFFFF
  · exact hbytes 0
  · exact (hbytes 2).trans (Memory.byte_blank 0xA5 2)
  · rw [hstatus]
    decide

end Digic.Sd
