import Digic.Memory.Lemmas
import Digic.Proofs.Sd.DataPhase
/-!
# Data goes to the card once

Once the card has accepted the command of a write, either the start of DMA or interrupt flags that
are not zero set its data in motion, whichever comes first. After that the status shows the data as
moved, and whatever firmware writes to other registers, nothing moves again. The interrupts are
asked for when the data has moved and firmware wants them, in whichever order it said so.
-/
namespace Digic.Sd

open Bus

inductive Target where
  | host (r : Register)
  | dma (r : DmaRegister)

/-- A write to a window of the host. -/
structure Write where
  window : Handler.Window
  pc : UInt32
  addr : UInt32
  value : UInt32

namespace Write

def target (w : Write) : Target :=
  match w.window.kind with
  | .sdDma => .dma (.ofAddress w.addr)
  | _ => .host (.ofAddress w.addr)

/-- Whether a write sets data in motion: the start of DMA, and interrupt flags other than zero. -/
def begins (w : Write) : Bool :=
  match w.target with
  | .dma .start => true
  | .host .interruptFlags => w.value != 0
  | _ => false

variable {κ : Type}

/-- Whether a write gives no command, sets no status and leaves DMA as a host has it. -/
def keeps (w : Write) (h : Host κ) : Bool :=
  match w.target with
  | .host .commandFlags | .host .status => false
  | .host .dmaEnable => (w.value != 0) == h.dmaEnabled
  | .dma .addr => w.value == h.dmaAddr
  | .dma .count => w.value == h.dmaCount
  | .dma .flags => (w.value &&& 1 != 0) == h.dmaEnabled
  | _ => true

variable [SdCard κ]

def perform (model : Model) (w : Write) : Action (Bench κ) Unit :=
  write ⟨w.window, w.pc, model⟩ w.addr w.value

end Write

def performAll {κ : Type} [SdCard κ] (model : Model) : List Write → Action (Bench κ) Unit
  | [] => return
  | w :: rest => do
    w.perform model
    performAll model rest

/-- The bytes that DMA is set to move: whole words, from its address on. -/
def Bench.dueBytes {κ : Type} (b : Bench κ) : List UInt8 :=
  (List.range (4 * (b.dmaCount.toNat / 4))).map fun k => b.memory.byte (b.dmaAddr + k.toUInt32)

section Bytes

variable {κ : Type} [SdCard κ]

theorem writeWords_eq_foldl (n : Nat) (addr : UInt32) (card : κ) (m : Memory) :
    writeWords n addr card m =
      ((List.range (4 * n)).map fun k => m.byte (addr + k.toUInt32)).foldl
        SdCard.writeByte card := by
  induction n generalizing addr card with
  | zero => rfl
  | succ n ih =>
    have hfour : List.range 4 = [0, 1, 2, 3] := rfl
    have hnext : ∀ k : Nat, addr + 4 + k.toUInt32 = addr + (4 + k).toUInt32 := by
      intro k
      have hcast : (4 + k).toUInt32 = 4 + k.toUInt32 := UInt32.ofNat_add 4 k
      rw [hcast, UInt32.add_assoc]
    have hfirst : addr + (0 : Nat).toUInt32 = addr := UInt32.add_zero addr
    rw [writeWords, ih, Nat.mul_add_one, Nat.add_comm, List.range_add, hfour]
    simp only [List.map_append, List.map_map, List.foldl_append, List.map_cons, List.map_nil,
      List.foldl_cons, List.foldl_nil, Function.comp_def, hnext, hfirst]
    rfl

theorem writeWords_eq_dueBytes (b : Bench κ) (card : κ) :
    writeWords (b.dmaCount / 4).toNat b.dmaAddr card b.memory =
      b.dueBytes.foldl SdCard.writeByte card := by
  rw [writeWords_eq_foldl, UInt32.toNat_div]
  rfl

end Bytes

variable {κ : Type} [SdCard κ] {model : Model} {b : Bench κ} {card : κ} {begun : Bool}
  {a : Acting (Bench κ)}

/-- How the host stands between the accepted command and the next one, with the data moved or not.
`b` is the bench as the command left it, `card` its card. -/
structure Underway (b : Bench κ) (card : κ) (begun : Bool) (a : Acting (Bench κ)) : Prop where
  flags : a.device.commandFlags = writeFlags
  enabled : a.device.dmaEnabled = true
  addr : a.device.dmaAddr = b.dmaAddr
  count : a.device.dmaCount = b.dmaCount
  memory : a.device.memory = b.memory
  ok : a.device.status.ok = true
  error : a.device.status.error = false
  data : a.device.status.dataAvailable = begun
  card : a.device.card = some (if begun then b.dueBytes.foldl SdCard.writeByte card else card)
  quiet : begun = false → ∀ id delay, Effect.request id delay ∉ a.effects

/-- Firmware that wants interrupts was given them as soon as the data had moved. -/
structure Reported (model : Model) (b : Bench κ) (card : κ) (begun : Bool)
    (a : Acting (Bench κ)) : Prop extends Underway b card begun a where
  told : begun = true → a.device.interruptFlags ≠ 0 →
    .request model.sdDriverInterrupt 0 ∈ a.effects ∧ .request model.sdDmaInterrupt 0 ∈ a.effects

theorem Underway.writeData (h : Underway b card begun a) :
    ∃ a', Sd.writeData a = .ok () a' ∧ Underway b card true a' := by
  cases begun with
  | true => exact ⟨a, writeData_of_done h.data, h⟩
  | false =>
    have hcard : a.device.card = some card := h.card
    refine ⟨_, writeData_of_due h.data h.enabled, ?_⟩
    have hbytes : a.device.dueBytes = b.dueBytes := by
      rw [Bench.dueBytes, h.addr, h.count, h.memory, Bench.dueBytes]
    rw [Bench.delivered, hcard]
    refine ⟨h.flags, h.enabled, h.addr, h.count, h.memory, ?_, ?_, ?_, ?_, nofun⟩
    · exact (Status.ok_set_dataBit _).trans h.ok
    · exact (Status.error_set_dataBit _).trans h.error
    · exact Status.dataAvailable_set_dataBit _
    · change some (writeWords _ _ card _) = _
      rw [writeWords_eq_dueBytes, hbytes]
      rfl

/-- A report asks for both interrupts, but not before the data has moved. -/
theorem Underway.report (hdriver : model.sdDriverInterrupt ≠ 0) (hdma : model.sdDmaInterrupt ≠ 0)
    (h : Underway b card begun a) :
    ∃ a', reportCompletion model a = .ok () a' ∧ Reported model b card begun a' := by
  refine ⟨_, reportCompletion_apply hdriver hdma a, ?_⟩
  have hreportable : a.device.reportable = (begun && a.device.interruptFlags != 0) := by
    simp [Host.reportable, h.flags, h.data, h.ok, h.error]
  refine ⟨⟨h.flags, h.enabled, h.addr, h.count, h.memory, h.ok, h.error, h.data, h.card, ?_⟩, ?_⟩
  · intro hbegun
    have hnone : completion model a.device.toHost = #[] := by
      rw [completion, hreportable, hbegun]
      rfl
    rw [hnone, Array.append_empty]
    exact h.quiet hbegun
  · intro hbegun hwanted
    have hboth : completion model a.device.toHost =
        #[.request model.sdDriverInterrupt 0, .request model.sdDmaInterrupt 0] := by
      have hwanted' : a.device.interruptFlags ≠ 0 := hwanted
      rw [completion, hreportable, hbegun, h.enabled]
      simp [hwanted']
    simp [hboth]

/-- What of the host a write under way depends on. -/
def Bench.essentials (b : Bench κ) :=
  (b.card, b.status, b.commandFlags, b.interruptFlags, b.dmaEnabled, b.dmaAddr, b.dmaCount, b.memory)

theorem Reported.alter (h : Reported model b card begun a) {b' : Bench κ}
    (hsame : b'.essentials = a.device.essentials) :
    Reported model b card begun ⟨b', a.effects⟩ := by
  simp only [Bench.essentials, Prod.mk.injEq] at hsame
  obtain ⟨hcard, hstatus, hflags, hwanted, henabled, haddr, hcount, hmemory⟩ := hsame
  refine ⟨⟨hflags.trans h.flags, henabled.trans h.enabled, haddr.trans h.addr,
    hcount.trans h.count, hmemory.trans h.memory, ?_, ?_, ?_, hcard.trans h.card, h.quiet⟩, ?_⟩
  · rw [hstatus, h.ok]
  · rw [hstatus, h.error]
  · rw [hstatus, h.data]
  · rw [hwanted]
    exact h.told

theorem Reported.note (h : Reported model b card begun a) (n : Log.Notice) :
    Reported model b card begun ⟨a.device, a.effects.push (.note n)⟩ := by
  refine ⟨⟨h.flags, h.enabled, h.addr, h.count, h.memory, h.ok, h.error, h.data, h.card, ?_⟩, ?_⟩
  · intro hbegun id delay hmem
    obtain hmem | hmem := Array.mem_push.1 hmem
    · exact h.quiet hbegun id delay hmem
    · cases hmem
  · intro hbegun hwanted
    obtain ⟨hdriver, hdma⟩ := h.told hbegun hwanted
    exact ⟨Array.mem_push_of_mem _ hdriver, Array.mem_push_of_mem _ hdma⟩

def Target.set (model : Model) (value : UInt32) : Target → Action (Bench κ) String
  | .host r => setRegister model value r
  | .dma r => setDmaRegister model value r

theorem Write.perform_eq (model : Model) (w : Write) :
    (w.perform model : Action (Bench κ) Unit) = (w.target.set model w.value >>= fun remark =>
      Context.traceWrite ⟨w.window, w.pc, model⟩ w.addr w.value remark) := by
  obtain ⟨window, _, _, _⟩ := w
  obtain ⟨_, kind⟩ := window
  cases kind <;> rfl

/-- The start of DMA moves the data if that is still to be done, and reports. -/
theorem Underway.startDma (hdriver : model.sdDriverInterrupt ≠ 0)
    (hdma : model.sdDmaInterrupt ≠ 0) (h : Underway b card begun a) :
    ∃ a', Sd.startDma model a = .ok () a' ∧ Reported model b card true a' := by
  obtain ⟨moved, hmoved, hunder⟩ := h.writeData
  obtain ⟨a', hreport, hreported⟩ := hunder.report hdriver hdma
  refine ⟨a', ?_, hreported⟩
  unfold Sd.startDma
  rw [bind_of_ok (Action.device_apply a), if_pos h.flags, bind_of_ok hmoved, hreport]

/-- Interrupt flags move the data too, unless they are zero. -/
theorem Underway.setInterruptFlags (hdriver : model.sdDriverInterrupt ≠ 0)
    (hdma : model.sdDmaInterrupt ≠ 0) (h : Underway b card begun a) (value : UInt32) :
    ∃ a', Sd.setInterruptFlags model value a = .ok () a' ∧
      Reported model b card (begun || value != 0) a' := by
  have hset : Underway b card begun ⟨{ a.device with interruptFlags := value }, a.effects⟩ :=
    ⟨h.flags, h.enabled, h.addr, h.count, h.memory, h.ok, h.error, h.data, h.card, h.quiet⟩
  unfold Sd.setInterruptFlags
  rw [bind_of_ok (Action.update_apply _ a), bind_of_ok (Action.device_apply _)]
  by_cases hvalue : value = 0
  · subst hvalue
    rw [if_neg fun hwants => hwants.2.2 rfl, bne_self_eq_false, Bool.or_false]
    exact hset.report hdriver hdma
  · rw [if_pos ⟨h.flags, h.enabled, hvalue⟩, bne_iff_ne.2 hvalue, Bool.or_true]
    obtain ⟨moved, hmoved, hunder⟩ := hset.writeData
    rw [bind_of_ok hmoved]
    exact hunder.report hdriver hdma

theorem Reported.set (hdriver : model.sdDriverInterrupt ≠ 0) (hdma : model.sdDmaInterrupt ≠ 0)
    (hon : b.dmaEnabled = true) (h : Reported model b card begun a) {w : Write}
    (hkeep : w.keeps b.toHost = true) :
    ∃ remark a', w.target.set model w.value a = .ok remark a' ∧
      Reported model b card (begun || w.begins) a' := by
  unfold Write.keeps at hkeep
  unfold Write.begins
  cases htarget : w.target with
  | host r =>
    rw [htarget] at hkeep
    cases r with
    | commandFlags => cases hkeep
    | status => cases hkeep
    | interruptFlags =>
      obtain ⟨a', hset, hreported⟩ := h.toUnderway.setInterruptFlags hdriver hdma w.value
      exact ⟨_, a', bind_of_ok hset _, hreported⟩
    | dmaEnable =>
      have hsame : (w.value != 0) = a.device.dmaEnabled :=
        (eq_of_beq hkeep).trans (hon.trans h.enabled.symm)
      rw [Bool.or_false]
      exact ⟨_, _, rfl, h.alter (by rw [hsame])⟩
    | _ =>
      rw [Bool.or_false]
      exact ⟨_, _, rfl, h.alter rfl⟩
  | dma r =>
    rw [htarget] at hkeep
    cases r with
    | start =>
      obtain ⟨a', hset, hreported⟩ := h.toUnderway.startDma hdriver hdma
      rw [Bool.or_true]
      exact ⟨_, a', bind_of_ok hset _, hreported⟩
    | addr =>
      have hsame : w.value = a.device.dmaAddr := (eq_of_beq hkeep).trans h.addr.symm
      rw [Bool.or_false]
      exact ⟨_, _, rfl, h.alter (by rw [hsame])⟩
    | count =>
      have hsame : w.value = a.device.dmaCount := (eq_of_beq hkeep).trans h.count.symm
      rw [Bool.or_false]
      exact ⟨_, _, rfl, h.alter (by rw [hsame])⟩
    | flags =>
      have hsame : (w.value &&& 1 != 0) = a.device.dmaEnabled :=
        (eq_of_beq hkeep).trans (hon.trans h.enabled.symm)
      rw [Bool.or_false]
      exact ⟨_, _, rfl, h.alter (by rw [hsame])⟩
    | _ =>
      rw [Bool.or_false]
      exact ⟨_, _, rfl, h.alter rfl⟩

theorem Reported.perform (hdriver : model.sdDriverInterrupt ≠ 0)
    (hdma : model.sdDmaInterrupt ≠ 0) (hon : b.dmaEnabled = true)
    (h : Reported model b card begun a) {w : Write} (hkeep : w.keeps b.toHost = true) :
    ∃ a', w.perform model a = .ok () a' ∧ Reported model b card (begun || w.begins) a' := by
  obtain ⟨remark, a', hset, hreported⟩ := h.set hdriver hdma hon hkeep
  rw [w.perform_eq model, bind_of_ok hset]
  exact ⟨_, rfl, hreported.note _⟩

theorem Reported.performAll (hdriver : model.sdDriverInterrupt ≠ 0)
    (hdma : model.sdDmaInterrupt ≠ 0) (hon : b.dmaEnabled = true) {writes : List Write}
    (hkeep : ∀ w ∈ writes, w.keeps b.toHost = true) (h : Reported model b card begun a) :
    ∃ a', Sd.performAll model writes a = .ok () a' ∧
      Reported model b card (begun || writes.any Write.begins) a' := by
  induction writes generalizing begun a with
  | nil =>
    rw [List.any_nil, Bool.or_false]
    exact ⟨a, rfl, h⟩
  | cons w rest ih =>
    obtain ⟨hfirst, hrest⟩ := List.forall_mem_cons.1 hkeep
    obtain ⟨middle, hperform, hmiddle⟩ := h.perform hdriver hdma hon hfirst
    obtain ⟨a', hrun, ha'⟩ := ih hrest hmiddle
    refine ⟨a', (bind_of_ok hperform _).trans hrun, ?_⟩
    rw [List.any_cons, ← Bool.or_assoc]
    exact ha'

/-- The command of a write leaves the host as `startCommand` does. -/
theorem Write.perform_commandFlags (model : Model) {w : Write}
    (htarget : w.target = .host .commandFlags) (a : Acting (Bench κ)) :
    w.perform model a = match startCommand model w.value a with
      | .ok _ a' => Context.traceWrite ⟨w.window, w.pc, model⟩ w.addr w.value "Command flags?" a'
      | .error fault a' => .error fault a' := by
  rw [w.perform_eq model, htarget]
  simp only [Target.set, setRegister, Action.bind_apply]
  cases startCommand model w.value a <;> rfl

/-- The card takes the data of a write exactly once: not before DMA is started or interrupt flags
other than zero are written, all of it as soon as one of both happens, and never again until the next
command. No interrupt is asked for before, and both are once firmware wants them. -/
theorem data_written_once (hdriver : model.sdDriverInterrupt ≠ 0)
    (hdma : model.sdDmaInterrupt ≠ 0) (hon : b.dmaEnabled = true) {command : Write}
    (htarget : command.target = .host .commandFlags) (hvalue : command.value = writeFlags)
    (haccepted : (stateAfter (command.perform model) ⟨b, #[]⟩).device.status.ok = true)
    {writes : List Write} (hkeep : ∀ w ∈ writes, w.keeps b.toHost = true) :
    ∃ card a, b.card = some card ∧
      performAll model (command :: writes) ⟨b, #[]⟩ = .ok () a ∧
      a.device.memory = b.memory ∧
      (writes.any Write.begins = false →
        a.device.card = some (SdCard.command card b.request).2 ∧
          ∀ id delay, Effect.request id delay ∉ a.effects) ∧
      (writes.any Write.begins = true →
        a.device.card =
            some (b.dueBytes.foldl SdCard.writeByte (SdCard.command card b.request).2) ∧
          (a.device.interruptFlags ≠ 0 →
            .request model.sdDriverInterrupt 0 ∈ a.effects ∧
              .request model.sdDmaInterrupt 0 ∈ a.effects)) := by
  have haccepted' :
      (stateAfter (startCommand model writeFlags) ⟨b, #[]⟩).device.status.ok = true := by
    rw [stateAfter, command.perform_commandFlags model htarget, hvalue] at haccepted
    rw [stateAfter]
    cases hstart : startCommand model writeFlags ⟨b, #[]⟩ with
    | ok _ a' => rwa [hstart] at haccepted
    | error _ a' => rwa [hstart] at haccepted
  obtain ⟨card, words, hcard, hstart⟩ := startCommand_of_accepted haccepted'
  have hcommand := command.perform_commandFlags model htarget ⟨b, #[]⟩
  rw [hvalue, hstart] at hcommand
  have hok : (Status.clear.set Status.okBit).ok = true := by decide
  have herror : (Status.clear.set Status.okBit).error = false := by decide
  have hdue : (Status.clear.set Status.okBit).dataAvailable = false := by decide
  have hunder : Underway b (SdCard.command card b.request).2 false
      ⟨b.commanded card words, #[]⟩ :=
    ⟨rfl, hon, rfl, rfl, rfl, hok, herror, hdue, rfl, by simp⟩
  have hreported : Reported model b (SdCard.command card b.request).2 false
      ⟨b.commanded card words, #[]⟩ := ⟨hunder, by simp⟩
  obtain ⟨a, hrun, ha⟩ := (hreported.note _).performAll hdriver hdma hon hkeep
  refine ⟨card, a, hcard, (bind_of_ok hcommand _).trans hrun, ha.memory, ?_, ?_⟩
  · intro hnone
    rw [hnone] at ha
    exact ⟨ha.card, ha.quiet rfl⟩
  · intro hsome
    rw [hsome] at ha
    exact ⟨ha.card, ha.told rfl⟩

/-- A card that answers every command alike and keeps what it is given. -/
structure Slate where
  bytes : List UInt8

instance : SdCard Slate where
  command slate _ := (.ok (.short #v[0, 0, 9, 0]), slate)
  readByte slate := (0, slate)
  writeByte slate byte := ⟨slate.bytes ++ [byte]⟩
  dataReady _ := false

def slateBench : Bench Slate where
  toHost := { (Host.new : Host Slate) with
    card := some ⟨[]⟩
    dmaEnabled := true
    dmaAddr := 0xFFFFFFFE
    dmaCount := 6 }
  memory := .blank 0xA5

def slateCommand : Write := ⟨⟨"SDIO1", .sdHost, 1⟩, 0, 0xC0C1000C, 0x13⟩

/-- DMA is started twice, and in between interrupts are wanted and not wanted. -/
def slateWrites : List Write :=
  let host : Handler.Window := ⟨"SDIO1", .sdHost, 1⟩
  let dma : Handler.Window := ⟨"SDDMA1", .sdDma, 1⟩
  [⟨dma, 0, 0xC0510018, 1⟩, ⟨host, 0, 0xC0C10014, 3⟩, ⟨dma, 0, 0xC0510018, 1⟩,
    ⟨host, 0, 0xC0C10014, 0⟩, ⟨dma, 0, 0xC0510010, 1⟩]

theorem data_written_once_restarted :
    slateCommand.target = .host .commandFlags ∧ slateCommand.value = writeFlags ∧
      (stateAfter (slateCommand.perform .standard) ⟨slateBench, #[]⟩).device.status.ok = true ∧
      (∀ w ∈ slateWrites, w.keeps slateBench.toHost = true) ∧
      ∃ a, performAll .standard (slateCommand :: slateWrites) ⟨slateBench, #[]⟩ = .ok () a ∧
        a.device.card = some ⟨[0xA5, 0xA5, 0xA5, 0xA5]⟩ := by
  have haccepted :
      (stateAfter (slateCommand.perform .standard) ⟨slateBench, #[]⟩).device.status.ok = true := rfl
  have hkeep : ∀ w ∈ slateWrites, w.keeps slateBench.toHost = true := by decide
  have htarget : slateCommand.target = .host .commandFlags := rfl
  obtain ⟨card, a, hcard, hrun, -, -, hmoved⟩ :=
    data_written_once (by decide) (by decide) rfl htarget rfl haccepted hkeep
  refine ⟨htarget, rfl, haccepted, hkeep, a, hrun, ?_⟩
  cases hcard
  rw [(hmoved rfl).1]
  have hbytes : slateBench.dueBytes = [0xA5, 0xA5, 0xA5, 0xA5] := by
    simp only [Bench.dueBytes, slateBench, Memory.byte_blank]
    rfl
  rw [hbytes]
  rfl

end Digic.Sd
