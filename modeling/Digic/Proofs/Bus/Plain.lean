import Digic.Board.Boot
import Digic.Board.Digic6
import Digic.Board.Gpio
import Digic.Cf.Registers
import Digic.Console.Uart
import Digic.Display.Registers
import Digic.Dma.Engine
import Digic.Edmac.Engine
import Digic.Flash.Registers
import Digic.Interrupt.Registers
import Digic.Proofs.Bus.Effects
import Digic.Sd.Registers
import Digic.Timer.CompareRegisters
import Digic.Timer.Registers
/-!
# Register files with plain effects

Of all register files only the interrupt controller tells of interrupt events, and only the console
of lines. The others ask for interrupts at most, and never for line zero if the model names none by
it.
-/
namespace Digic

open Bus

variable {m : Model} {d : Handler.Device}

theorem Board.plain_tellLed {σ : Type} (c : Context) (addr value : UInt32) (digic6 : Bool) :
    (tellLed c addr value digic6 : Action σ Unit).Plain m d := by
  unfold tellLed Led.notice?
  split
  case h_1 n hn =>
    refine .bind ?_ fun _ => c.plain_traceWrite addr value _
    split at hn
    · cases hn
    · cases hn
      exact .note rfl rfl
  case h_2 => simp

theorem Board.Basic.plain_read (c : Context) (addr : UInt32) : (Basic.read c addr).Plain m d := by
  unfold read
  split <;> simp

theorem Board.Basic.plain_write (c : Context) (addr value : UInt32) :
    (Basic.write c addr value).Plain m d := by
  simp [write]

theorem Board.Power.plain_read (c : Context) (addr : UInt32) : (Power.read c addr).Plain m d := by
  simp [read]

theorem Board.Power.plain_write (c : Context) (addr value : UInt32) :
    (Power.write c addr value).Plain m d := by
  simp [write]

theorem Board.ImageEngine.plain_read (c : Context) (addr : UInt32) :
    (ImageEngine.read c addr).Plain m d := by
  simp [read]

theorem Board.ImageEngine.plain_write (c : Context) (addr value : UInt32) :
    (ImageEngine.write c addr value).Plain m d := by
  simp [write]

theorem Board.Gpio.plain_read (c : Context) (addr : UInt32) : (Gpio.read c addr).Plain m d := by
  simp [read]

theorem Board.Gpio.plain_write (c : Context) (addr value : UInt32) :
    (Gpio.write c addr value).Plain m d := by
  simp [write, plain_tellLed]

theorem Board.Digic6.plain_read (c : Context) (addr : UInt32) : (Digic6.read c addr).Plain m d := by
  simp [read]

theorem Board.Digic6.plain_write (c : Context) (addr value : UInt32) :
    (Digic6.write c addr value).Plain m d := by
  simp [write, plain_tellLed]

theorem Console.plain_transmit (b : UInt8) : (transmit b).Plain m .console := by
  unfold transmit
  refine .bind .device fun _ => .bind (.update _) fun _ => ?_
  split
  · exact Action.Leaves.emit ⟨rfl, fun _ => rfl⟩
  · exact .pure _

theorem Console.plain_read (c : Context) (addr : UInt32) : (Console.read c addr).Plain m d := by
  unfold read readRegister
  split
  · simp
  · split <;> simp

theorem Console.plain_write (c : Context) (addr value : UInt32) :
    (Console.write c addr value).Plain m .console := by
  have hrequest : (Action.request transmitInterrupt 0 : Action Uart Unit).Plain m .console :=
    .request (by decide) 0
  unfold write writeRegister
  split
  · simp
  · split <;> simp [plain_transmit, hrequest]

theorem Display.plain_read (c : Context) (addr : UInt32) : (Display.read c addr).Plain m d := by
  simp [read]

theorem Display.plain_write (c : Context) (addr value : UInt32) :
    (Display.write c addr value).Plain m d := by
  simp [write]

theorem Flash.Gate.plain_read (c : Context) (addr : UInt32) : (Gate.read c addr).Plain m d := by
  simp [read]

theorem Flash.Gate.plain_write (c : Context) (addr value : UInt32) :
    (Gate.write c addr value).Plain m d := by
  simp [write]

theorem Flash.plain_tellResponse (c : Context) (n : Nat) (bank : Bank) (offset value : UInt32) :
    (tellResponse c n bank offset value).Plain m d := by
  unfold tellResponse
  dsimp only
  split
  · exact .note rfl rfl
  · split
    · exact .note rfl rfl
    · exact .pure _

theorem Flash.plain_read (c : Context) (addr : UInt32) : (Flash.read c addr).Plain m d := by
  unfold read
  refine .bind .device fun banks => ?_
  split
  · exact .pure _
  · refine .bind (.update _) fun _ => ?_
    split
    · exact .pure _
    · exact .bind (.note rfl rfl) fun _ => .pure _

theorem Flash.plain_write (c : Context) (addr value : UInt32) :
    (Flash.write c addr value).Plain m d := by
  unfold write
  refine .bind .device fun banks => ?_
  split <;> simp [plain_tellResponse]

theorem Timer.plain_startTimer (c : Context) (addr value : UInt32) (id : Nat) :
    (startTimer c addr value id).Plain c.model d := by
  have hrequest (delay : UInt32) :
      (Action.request c.model.timerInterrupt delay : Action Timebase Unit).Plain c.model d :=
    Action.Leaves.emit fun _ => rfl
  unfold startTimer
  refine .bind (.update _) fun _ => ?_
  split
  · exact .bind .device fun _ => .bind (hrequest _) fun _ => c.plain_traceWrite addr value _
  · simp

theorem Timer.plain_read (c : Context) (addr : UInt32) : (Timer.read c addr).Plain m d := by
  unfold read readTimer
  split
  · simp
  · split <;> simp

theorem Timer.plain_write (c : Context) (addr value : UInt32) :
    (Timer.write c addr value).Plain c.model d := by
  unfold write writeTimer
  split
  · simp
  · split
    · split <;> simp [plain_startTimer, updateTimers]
    · simp

theorem Timer.plain_readCompare (c : Context) (addr : UInt32) : (readCompare c addr).Plain m d := by
  simp [readCompare]

theorem Timer.plain_writeCompare (c : Context) (addr value : UInt32) :
    (writeCompare c addr value).Plain m d := by
  unfold writeCompare
  split <;> simp [updateChannels]

theorem Dma.interruptOf_ne_zero {n : Nat} (h : n ≠ 0) (hlt : n < channelCount) :
    interruptOf n ≠ 0 := by
  have hn : n = 1 ∨ n = 2 ∨ n = 3 ∨ n = 4 := by
    unfold channelCount at hlt
    omega
  rcases hn with rfl | rfl | rfl | rfl <;> decide

theorem Dma.plain_read (c : Context) (addr : UInt32) : (Dma.read c addr).Plain m d := by
  unfold read
  refine .bind .device fun b => ?_
  split
  · simp
  · split <;> simp

theorem Dma.plain_write (c : Context) (addr value : UInt32) :
    (Dma.write c addr value).Plain m d := by
  unfold write
  refine .bind .device fun b => ?_
  split
  case h_1 ch hch =>
    split
    · simp
    · have hlt : c.window.param.toNat < channelCount := (Vector.getElem?_eq_some_iff.1 hch).1
      have hstart : (start c.window.param.toNat ch value).Plain m d :=
        .bind (.note rfl rfl) fun _ => .bind (.update _) fun _ =>
          .request (interruptOf_ne_zero ‹_› hlt) _
      unfold writeChannel
      split <;> simp [hstart, setUp]
  case h_2 => simp

theorem Edmac.interruptOf?_ne_zero {channel : Nat} {id : UInt32}
    (h : interruptOf? channel = some id) : id ≠ 0 := by
  unfold interruptOf? at h
  split at h
  · split at h
    · cases h
    · cases h
      assumption
  · cases h

theorem Edmac.plain_start (channel : Nat) (ch : Channel) : (start channel ch).Plain m d := by
  unfold start
  refine .bind .device fun _ => .bind (.note rfl rfl) fun _ => ?_
  split
  case h_1 => exact .fail _
  case h_2 id hid => exact .bind (.update _) fun _ => .request (interruptOf?_ne_zero hid) 0

theorem Edmac.plain_selectChannel (c : Context) (addr : UInt32) :
    (selectChannel c addr).Plain m d := by
  unfold selectChannel
  refine .bind .device fun _ => ?_
  split <;> simp

theorem Edmac.plain_read (c : Context) (addr : UInt32) : (Edmac.read c addr).Plain m d := by
  simp [read, plain_selectChannel]

theorem Edmac.plain_write (c : Context) (addr value : UInt32) :
    (Edmac.write c addr value).Plain m d := by
  unfold write writeSwitch writeChannel
  split
  · simp
  · refine .bind (plain_selectChannel c addr) fun _ => ?_
    simp [plain_start]

section Sd

variable {κ : Type}

theorem Sd.plain_raise (bit : UInt32) : (raise bit : Action (Bench κ) Unit).Plain m d := .update _

/-- Whatever is asked for was required to be there. -/
theorem Sd.plain_reportCompletion (model : Model) :
    (reportCompletion model : Action (Bench κ) Unit).Plain m d := by
  unfold reportCompletion
  refine .bind .device fun b => ?_
  split
  · refine .require_bind fun hdriver => .bind (.request hdriver 0) fun _ => ?_
    split
    · exact .require_bind fun hdma => .request hdma 0
    · exact .pure _
  · exact .pure _

theorem Sd.plain_read (c : Context) (addr : UInt32) :
    (Sd.read c addr : Action (Bench κ) UInt32).Plain m d := by
  simp [read]

variable [Sd.SdCard κ]

theorem Sd.plain_sendCommand : (sendCommand : Action (Bench κ) Unit).Plain m d := by
  have hask : (askCard : Action (Bench κ) (Except CardError Response)).Plain m d := by
    unfold askCard
    refine .bind .device fun b => ?_
    split <;> simp
  unfold sendCommand
  refine .bind .device fun b => .bind hask fun result => ?_
  split
  · exact .bind (.note rfl rfl) fun _ => plain_raise _
  · split
    · exact plain_raise _
    · split <;> simp [plain_raise]

theorem Sd.plain_readData : (readData : Action (Bench κ) Unit).Plain m d := by
  unfold readData
  refine .bind .device fun b => ?_
  split
  · exact .pure _
  · split
    · exact .pure _
    · simp [plain_raise]

theorem Sd.plain_writeData : (writeData : Action (Bench κ) Unit).Plain m d := by
  unfold writeData
  refine .bind .device fun b => ?_
  split
  · exact .pure _
  · refine .bind (.require _ _) fun _ => ?_
    split <;> simp [plain_raise]

theorem Sd.plain_startCommand (model : Model) (flags : UInt32) :
    (startCommand model flags : Action (Bench κ) Unit).Plain m d := by
  unfold startCommand
  refine .bind (.update _) fun _ => .bind plain_sendCommand fun _ => ?_
  simp [plain_readData, plain_reportCompletion]

theorem Sd.plain_setInterruptFlags (model : Model) (flags : UInt32) :
    (setInterruptFlags model flags : Action (Bench κ) Unit).Plain m d := by
  unfold setInterruptFlags
  refine .bind (.update _) fun _ => .bind .device fun b => ?_
  simp [plain_writeData, plain_reportCompletion]

theorem Sd.plain_startDma (model : Model) :
    (startDma model : Action (Bench κ) Unit).Plain m d := by
  simp [startDma, plain_writeData, plain_reportCompletion]

theorem Sd.plain_write (c : Context) (addr value : UInt32) :
    (Sd.write c addr value : Action (Bench κ) Unit).Plain m d := by
  unfold write
  dsimp only
  split
  · refine .bind ?_ fun remark => c.plain_traceWrite addr value remark
    cases DmaRegister.ofAddress addr <;> simp [setDmaRegister, plain_startDma]
  · refine .bind ?_ fun remark => c.plain_traceWrite addr value remark
    cases Register.ofAddress addr <;>
      simp [setRegister, plain_startCommand, plain_setInterruptFlags]

end Sd

section Cf

variable {δ : Type}

theorem Cf.plain_startDma (value : UInt32) :
    (startDma value : Action (Host δ) String).Plain m d := by
  have hrequire : (requireDrive value : Action (Host δ) Unit).Plain m d := by simp [requireDrive]
  unfold startDma
  split <;> simp [hrequire]

theorem Cf.leaves_completionInterrupts (P : Effect → Prop) (m : Model) :
    (completionInterrupts m : Action (Bench δ) (List UInt32)).Leaves P :=
  .bind .device fun _ => .bind (.require _ _) fun _ => .bind (.require _ _) fun _ => .pure _

theorem Cf.leaves_passCommand (P : Effect → Prop) (m : Model) :
    (passCommand m : Action (Bench δ) (List UInt32)).Leaves P := by
  unfold passCommand
  refine .bind .device fun b => ?_
  split
  · exact .bind (leaves_completionInterrupts P m) fun _ => .bind (.update _) fun _ => .pure _
  · exact .pure _

theorem Cf.gives_completionInterrupts {m : Model} {Q : UInt32 → Prop}
    (hdriver : Q m.cfDriverInterrupt) (hdma : Q m.cfDmaInterrupt) :
    Action.Gives (∀ id ∈ ·, Q id)
      (completionInterrupts m : Action (Bench δ) (List UInt32)) := by
  refine .bind_last fun b => .bind_last fun _ => .bind_last fun _ => .pure ?_
  intro id hid
  rcases List.mem_append.1 hid with h | h
  · split at h
    · exact List.mem_singleton.1 h ▸ hdriver
    · cases h
  · split at h
    · exact List.mem_singleton.1 h ▸ hdma
    · cases h

theorem Cf.plain_readDrive (f : δ → UInt32 × δ) : (readDrive f).Plain m d := by
  unfold readDrive
  refine .bind .device fun b => ?_
  split <;> simp

variable [Cf.AtaDrive δ]

theorem Cf.plain_read (c : Context) (addr : UInt32) :
    (Cf.read c addr : Action (Host δ) UInt32).Plain m d := by
  unfold read
  dsimp only
  split
  · refine .bind ?_ fun answer => ?_
    · simp [getDmaRegister]
    · simp
  · refine .bind ?_ fun answer => ?_
    · cases Register.ofAddress addr <;> simp [getRegister, plain_readDrive]
    · simp

theorem Cf.plain_write (c : Context) (addr value : UInt32) :
    (Cf.write c addr value : Action (Host δ) Unit).Plain m d := by
  unfold write
  dsimp only
  split
  · refine .bind ?_ fun remark => ?_
    · cases DmaRegister.ofAddress addr <;> simp [setDmaRegister, plain_startDma]
    · simp
  · refine .bind ?_ fun remark => ?_
    · cases Register.ofAddress addr <;> simp [setRegister, updateDrive]
    · simp

theorem Cf.leaves_passRead {P : Effect → Prop}
    (hreading : ∀ left count addr : UInt32, P (.note (.cfReading left count addr))) (m : Model) :
    (passRead m : Action (Bench δ) (List UInt32)).Leaves P := by
  have hwords : (requireWords : Action (Bench δ) Unit).Leaves P :=
    .bind .device fun _ => .require _ _
  unfold passRead
  refine .bind .device fun b => ?_
  split
  · refine .bind hwords fun _ => .bind (.emit (hreading _ _ _)) fun _ => ?_
    refine .bind (.update _) fun _ => .bind .device fun after => ?_
    split
    · exact .bind (.update _) fun _ => leaves_completionInterrupts P m
    · exact .pure _
  · exact .pure _

theorem Cf.leaves_passWrite (P : Effect → Prop) (m : Model) :
    (passWrite m : Action (Bench δ) (List UInt32)).Leaves P := by
  have hwords : (requireWords : Action (Bench δ) Unit).Leaves P :=
    .bind .device fun _ => .require _ _
  unfold passWrite
  refine .bind .device fun b => ?_
  split
  · refine .bind hwords fun _ => .bind (.update _) fun _ => .bind .device fun after => ?_
    split
    · exact .bind (.update _) fun _ => leaves_completionInterrupts P m
    · exact .pure _
  · exact .pure _

/-- A pass tells of reads, and leaves nothing else. -/
theorem Cf.leaves_pass {P : Effect → Prop}
    (hreading : ∀ left count addr : UInt32, P (.note (.cfReading left count addr))) (m : Model) :
    (pass m : Action (Bench δ) (List UInt32)).Leaves P :=
  .bind (leaves_passRead hreading m) fun _ => .bind (leaves_passWrite P m) fun _ =>
    .bind (leaves_passCommand P m) fun _ => .pure _

theorem Cf.plain_pass (model : Model) :
    (pass model : Action (Bench δ) (List UInt32)).Plain m d :=
  leaves_pass (fun _ _ _ => ⟨rfl, absurd rfl⟩) model

/-- What a pass of the CF host asks for are the interrupts that the model names. -/
theorem Cf.gives_pass {m : Model} {Q : UInt32 → Prop} (hdriver : Q m.cfDriverInterrupt)
    (hdma : Q m.cfDmaInterrupt) :
    Action.Gives (∀ id ∈ ·, Q id) (pass m : Action (Bench δ) (List UInt32)) := by
  have hids : Action.Gives (∀ id ∈ ·, Q id)
      (completionInterrupts m : Action (Bench δ) (List UInt32)) :=
    gives_completionInterrupts hdriver hdma
  have hnone : Action.Gives (∀ id ∈ ·, Q id)
      (pure [] : Action (Bench δ) (List UInt32)) := .pure (by simp)
  have hread : Action.Gives (∀ id ∈ ·, Q id)
      (passRead m : Action (Bench δ) (List UInt32)) := by
    refine .bind_last fun b => .ite ?_ hnone
    refine .bind_last fun _ => .bind_last fun _ => .bind_last fun _ => .bind_last fun after => ?_
    exact .ite (.bind_last fun _ => hids) hnone
  have hwrite : Action.Gives (∀ id ∈ ·, Q id)
      (passWrite m : Action (Bench δ) (List UInt32)) := by
    refine .bind_last fun b => .ite ?_ hnone
    refine .bind_last fun _ => .bind_last fun _ => .bind_last fun after => ?_
    exact .ite (.bind_last fun _ => hids) hnone
  have hcommand : Action.Gives (∀ id ∈ ·, Q id)
      (passCommand m : Action (Bench δ) (List UInt32)) := by
    refine .bind_last fun b => .ite ?_ hnone
    exact .bind hids fun _ h => .bind_last fun _ => .pure h
  refine .bind hread fun read hr => .bind hwrite fun written hw => ?_
  refine .bind hcommand fun commanded hc => .pure ?_
  intro id hid
  simp only [List.mem_append] at hid
  rcases hid with (h | h) | h
  · exact hr id h
  · exact hw id h
  · exact hc id h

end Cf

namespace Interrupt

variable {P : Effect → Prop}

theorem leaves_perform (hevent : ∀ e : Event, P (.note (.interrupt e)))
    (operation : Controller → Controller × List Event) : (perform operation).Leaves P :=
  .bind .device fun _ => .bind (.update _) fun _ => .forM (fun e => .emit (hevent e)) _

theorem leaves_acknowledge (hevent : ∀ e : Event, P (.note (.interrupt e))) (shift : UInt32) :
    (acknowledge shift).Leaves P :=
  .bind .device fun _ => .bind (.update _) fun _ =>
    .bind (.forM (fun e => .emit (hevent e)) _) fun _ => .pure _

/-- The controller tells of its events, of accesses, and of being asked in vain. -/
theorem leaves_read (hevent : ∀ e : Event, P (.note (.interrupt e)))
    (haccess : ∀ t, P (.note (.access t))) (hnothing : P (.note .nothingInService)) (c : Context)
    (addr : UInt32) : (Interrupt.read c addr).Leaves P := by
  have hanswer (value : UInt32) (remark : String) :
      (c.answer addr value remark : Action Controller UInt32).Leaves P :=
    .bind (.emit (haccess _)) fun _ => .pure _
  unfold read readRegister
  split
  · exact hanswer 0 ""
  · split
    case h_1 shift _ =>
      refine .bind (leaves_acknowledge hevent shift) fun value => ?_
      have hlast : (if value >>> shift ≠ c.model.timerInterrupt then do
            c.traceRead addr value "requested int reason"
            return value
          else return value : Action Controller UInt32).Leaves P :=
        .ite (.bind (.emit (haccess _)) fun _ => .pure value) (.pure value)
      exact .ite (.bind (.emit hnothing) fun _ => hlast) hlast
    case h_2 => exact .pure 0
    case h_3 => exact hanswer 0 _
    case h_4 => exact hanswer 0 _

theorem leaves_write (hevent : ∀ e : Event, P (.note (.interrupt e)))
    (haccess : ∀ t, P (.note (.access t))) (c : Context) (addr value : UInt32) :
    (Interrupt.write c addr value).Leaves P := by
  have htrace (remark : String) :
      (c.traceWrite addr value remark : Action Controller Unit).Leaves P := .emit (haccess _)
  have hall (operation : UInt32 → Controller → Controller × List Event) :
      ((maskedLines addr value).forM fun id => perform (operation id)).Leaves P :=
    .forM (fun id => leaves_perform hevent _) _
  unfold write writeMask writeRegister
  split
  · split
    · exact .bind (hall fun id c => c.enable id) fun _ => htrace _
    · exact .bind (hall fun id c => c.disable id) fun _ => htrace _
    · exact htrace _
  · split
    · exact .bind (leaves_perform hevent _) fun _ => .ite (htrace _) (.pure _)
    · split
      · exact .bind (.update _) fun _ => htrace _
      · exact htrace _
    · exact htrace _
    · exact htrace _

end Interrupt

end Digic
