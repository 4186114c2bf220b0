import Digic.Cf.Registers
import Digic.Edmac.Engine
import Digic.Proofs.Bus.Total
import Digic.Proofs.Sd.DataPhase
/-!
# Accesses that are refused

Image DMA refuses to read its switch and to start a channel that has no interrupt, the SD host to
write to the card without DMA, the CF host to move data without a drive. Each refuses before it
changes anything, and accepts everything else.
-/
namespace Digic

namespace Bus.Action

variable {σ α β : Type}

/-- An action that ends in a fault under a condition, without having changed its device, and
otherwise ends well. -/
structure RefusesIff (p : Prop) (a : Action σ α) (s : Acting σ) : Prop where
  refuses : p → ∃ (f : Fault) (notes : List Log.Notice), (∀ n ∈ notes, n.event? = none) ∧
    a s = .error f ⟨s.device, s.effects ++ (notes.map Effect.note).toArray⟩
  accepts : ¬ p → ∃ x t, a s = .ok x t

namespace RefusesIff

variable {p q : Prop} {a : Action σ α} {s : Acting σ}

theorem congr (h : RefusesIff p a s) (hpq : p ↔ q) : RefusesIff q a s :=
  ⟨fun hq => h.refuses (hpq.2 hq), fun hq => h.accepts fun hp => hq (hpq.1 hp)⟩

theorem of_total (h : Total a) (hp : ¬ p) : RefusesIff p a s :=
  ⟨fun h => (hp h).elim, fun _ => h s⟩

theorem of_error {f : Fault} (h : a s = .error f s) (hp : p) : RefusesIff p a s :=
  ⟨fun _ => ⟨f, [], by simp, by simpa using h⟩, fun h => (h hp).elim⟩

/-- What follows an action that may refuse is reached if it did not. -/
theorem bind {f : α → Action σ β} (h : RefusesIff p a s) (hf : ∀ x, Total (f x)) :
    RefusesIff p (a >>= f) s := by
  refine ⟨fun hp => ?_, fun hp => ?_⟩
  · obtain ⟨fault, notes, hnotes, ha⟩ := h.refuses hp
    exact ⟨fault, notes, hnotes, by rw [bind_apply, ha]⟩
  · obtain ⟨x, t, ha⟩ := h.accepts hp
    rw [bind_of_ok ha]
    exact hf x t

/-- What comes before an action that may refuse changes nothing. -/
theorem bind_of_ok {b : Action σ β} {x : β} {f : β → Action σ α} (hb : b s = .ok x s)
    (h : RefusesIff p (f x) s) : RefusesIff p (b >>= f) s :=
  ⟨fun hp => by rw [Digic.bind_of_ok hb]; exact h.refuses hp,
    fun hp => by rw [Digic.bind_of_ok hb]; exact h.accepts hp⟩

/-- What is told before an action may refuse is told in any case. -/
theorem note_bind {n : Log.Notice} (hn : n.event? = none)
    (h : RefusesIff p a ⟨s.device, s.effects.push (.note n)⟩) :
    RefusesIff p (Action.note n >>= fun _ => a) s := by
  refine ⟨fun hp => ?_, fun hp => ?_⟩
  · obtain ⟨fault, notes, hnotes, ha⟩ := h.refuses hp
    refine ⟨fault, n :: notes, List.forall_mem_cons.2 ⟨hn, hnotes⟩, ?_⟩
    rw [Digic.bind_of_ok (note_apply n s), ha]
    simp
  · rw [Digic.bind_of_ok (note_apply n s)]
    exact h.accepts hp

end RefusesIff

end Bus.Action

open Bus

namespace Edmac

variable {s : Acting Engine}

theorem refuses_start (channel : Nat) (ch : Channel) :
    (start channel ch).RefusesIff (interruptOf? channel = none) s := by
  unfold start
  refine .bind_of_ok (Action.device_apply s) (.note_bind rfl ?_)
  cases interruptOf? channel with
  | none => exact .of_error rfl rfl
  | some id => exact .of_total (by simp) (by simp)

theorem selectChannel_of_lt {c : Context} {addr : UInt32}
    (h : channelOf c.window.param addr < channelCount) :
    selectChannel c addr s = .ok (channelOf c.window.param addr,
      s.device.channels[channelOf c.window.param addr]) s := by
  unfold selectChannel
  rw [bind_of_ok (Action.device_apply s), Vector.getElem?_eq_getElem h]
  rfl

theorem selectChannel_of_le {c : Context} {addr : UInt32}
    (h : channelCount ≤ channelOf c.window.param addr) :
    selectChannel c addr s =
      .error (.edmacChannelOutOfRange (channelOf c.window.param addr)) s := by
  unfold selectChannel
  rw [bind_of_ok (Action.device_apply s), Vector.getElem?_eq_none h]
  rfl

theorem ofAddress_eq_control_iff (addr : UInt32) :
    Register.ofAddress addr = .control ↔ addr &&& 0xFF = 0 := by
  unfold Register.ofAddress
  split <;> simp_all

/-- A channel has no interrupt if the table has none for it, or only the number zero. -/
theorem interruptOf?_eq_none_iff (channel : Nat) :
    interruptOf? channel = none ↔ ∀ id, interruptTable[channel]? = some id → id = 0 := by
  unfold interruptOf?
  split
  · next id hid => simp [hid]
  · next hid => simp [hid]

theorem refuses_read {c : Context} {addr : UInt32}
    (h : channelOf c.window.param addr < channelCount) :
    (read c addr).RefusesIff (c.window.kind = .edmacSwitch) s := by
  unfold read
  by_cases hkind : c.window.kind = .edmacSwitch
  · rw [if_pos hkind]
    exact .of_error rfl hkind
  · rw [if_neg hkind]
    refine .bind_of_ok (selectChannel_of_lt h) (.of_total ?_ hkind)
    simp

theorem refuses_write {c : Context} {addr : UInt32} (value : UInt32)
    (h : channelOf c.window.param addr < channelCount) :
    (write c addr value).RefusesIff (c.window.kind ≠ .edmacSwitch ∧ addr &&& 0xFF = 0 ∧ value = 1 ∧
      interruptOf? (channelOf c.window.param addr) = none) s := by
  unfold write
  by_cases hkind : c.window.kind = .edmacSwitch
  · rw [if_pos hkind]
    exact .of_total (by simp [writeSwitch]) fun hp => hp.1 hkind
  · rw [if_neg hkind, writeChannel]
    refine .bind_of_ok (selectChannel_of_lt h) ?_
    by_cases hcontrol : Register.ofAddress addr = .control
    · have hlow : addr &&& 0xFF = 0 := (ofAddress_eq_control_iff addr).1 hcontrol
      by_cases hvalue : value = 1
      · have hstart := refuses_start (s := s) (channelOf c.window.param addr)
          s.device.channels[channelOf c.window.param addr]
        simp only [if_pos hcontrol, if_pos hvalue]
        refine .bind (hstart.congr ?_) fun _ => c.total_traceWrite addr value _
        simp [hkind, hlow, hvalue]
      · simp only [if_pos hcontrol, if_neg hvalue]
        exact .of_total (by simp) fun hp => hvalue hp.2.2.1
    · simp only [if_neg hcontrol]
      exact .of_total (by simp) fun hp => hcontrol ((ofAddress_eq_control_iff addr).2 hp.2.1)

end Edmac

namespace Sd

variable {κ : Type}

theorem total_reportCompletion {model : Model} (hdriver : model.sdDriverInterrupt ≠ 0)
    (hdma : model.sdDmaInterrupt ≠ 0) : (reportCompletion model : Action (Bench κ) Unit).Total :=
  fun a => ⟨_, _, reportCompletion_apply hdriver hdma a⟩

theorem total_read (c : Context) (addr : UInt32) :
    (Sd.read c addr : Action (Bench κ) UInt32).Total := by
  simp [read]

theorem ofAddress_eq_start_iff (addr : UInt32) :
    DmaRegister.ofAddress addr = .start ↔ addr &&& 0x1F = 0x18 := by
  unfold DmaRegister.ofAddress
  split <;> simp_all

variable [SdCard κ]

/-- The data phase of a write is refused if it is still to come and there is no DMA. -/
theorem refuses_writeData (a : Acting (Bench κ)) :
    writeData.RefusesIff
      (a.device.status.dataAvailable = false ∧ a.device.dmaEnabled = false) a := by
  cases hdone : a.device.status.dataAvailable with
  | true => exact ⟨by simp, fun _ => ⟨_, _, writeData_of_done hdone⟩⟩
  | false =>
    cases hdma : a.device.dmaEnabled with
    | true => exact ⟨by simp, fun _ => ⟨_, _, writeData_of_due hdone hdma⟩⟩
    | false => exact .of_error (writeData_of_refused hdone hdma) ⟨rfl, rfl⟩

variable {model : Model} (hdriver : model.sdDriverInterrupt ≠ 0) (hdma : model.sdDmaInterrupt ≠ 0)
include hdriver hdma

theorem total_startCommand (flags : UInt32) :
    (startCommand model flags : Action (Bench κ) Unit).Total := by
  intro a
  rw [startCommand_eq]
  exact total_reportCompletion hdriver hdma _

/-- The data phase that waits for interrupt flags is not begun without DMA. -/
theorem total_setInterruptFlags (flags : UInt32) :
    (setInterruptFlags model flags : Action (Bench κ) Unit).Total := by
  intro a
  have hreport := total_reportCompletion (κ := κ) hdriver hdma
  unfold setInterruptFlags
  rw [bind_of_ok (Action.update_apply _ a), bind_of_ok (Action.device_apply _)]
  split
  case isTrue h =>
    obtain ⟨-, hon, -⟩ := h
    obtain ⟨x, t, hwrite⟩ := (refuses_writeData _).accepts fun hoff =>
      Bool.false_ne_true (hoff.2.symm.trans hon)
    rw [bind_of_ok hwrite]
    exact hreport t
  case isFalse => exact hreport _

theorem refuses_startDma (a : Acting (Bench κ)) :
    (startDma model).RefusesIff (a.device.commandFlags = writeFlags ∧
      a.device.status.dataAvailable = false ∧ a.device.dmaEnabled = false) a := by
  have hreport := total_reportCompletion (κ := κ) hdriver hdma
  unfold startDma
  refine .bind_of_ok (Action.device_apply a) ?_
  by_cases hflags : a.device.commandFlags = writeFlags
  · rw [if_pos hflags]
    refine .bind ((refuses_writeData a).congr ?_) fun _ => hreport
    simp [hflags]
  · rw [if_neg hflags]
    exact .of_total (.pure _) fun hp => hflags hp.1

theorem refuses_write {c : Context} (hmodel : c.model = model) (addr value : UInt32)
    (a : Acting (Bench κ)) :
    (Sd.write c addr value).RefusesIff (c.window.kind = .sdDma ∧
      DmaRegister.ofAddress addr = .start ∧ a.device.commandFlags = writeFlags ∧
      a.device.status.dataAvailable = false ∧ a.device.dmaEnabled = false) a := by
  subst hmodel
  unfold write
  dsimp only
  split
  case h_1 hkind =>
    refine .bind ?_ fun remark => c.total_traceWrite addr value remark
    cases hregister : DmaRegister.ofAddress addr
    case start =>
      unfold setDmaRegister
      refine .bind ((refuses_startDma hdriver hdma a).congr ?_) fun _ => .pure _
      simp [hkind]
    all_goals exact .of_total (by simp [setDmaRegister]) (by simp)
  case h_2 hkind =>
    refine .of_total (.bind ?_ fun remark => c.total_traceWrite addr value remark)
      fun hp => hkind hp.1
    cases Register.ofAddress addr <;>
      simp [setRegister, total_startCommand hdriver hdma, total_setInterruptFlags hdriver hdma]

end Sd

namespace Cf

variable {δ : Type}

theorem total_readDrive (f : δ → UInt32 × δ) : (readDrive f).Total := by
  unfold readDrive
  refine .bind .device fun b => ?_
  split <;> simp

theorem ofAddress_eq_command_iff (addr : UInt32) :
    DmaRegister.ofAddress addr = .command ↔ addr &&& 0x1F = 0x10 := by
  unfold DmaRegister.ofAddress
  split <;> simp_all

theorem ofValue_ne_unknown_iff (value : UInt32) :
    DmaCommand.ofValue value ≠ .unknown ↔ value = 0x21 ∨ value = 0x39 ∨ value = 0x3D := by
  unfold DmaCommand.ofValue
  split <;> simp_all

theorem refuses_requireDrive (value : UInt32) (a : Acting (Host δ)) :
    (requireDrive value).RefusesIff (a.device.drive = none) a := by
  unfold requireDrive
  refine .bind_of_ok (Action.device_apply a) ?_
  cases hdrive : a.device.drive with
  | none => exact .of_error rfl rfl
  | some drive => exact .of_total (.pure ()) (by simp)

theorem refuses_startDma (value : UInt32) (a : Acting (Host δ)) :
    (startDma value).RefusesIff
      ((value = 0x21 ∨ value = 0x39 ∨ value = 0x3D) ∧ a.device.drive = none) a := by
  rw [← ofValue_ne_unknown_iff]
  unfold startDma
  cases DmaCommand.ofValue value with
  | startWrite =>
    exact .bind ((refuses_requireDrive value a).congr (by simp)) fun _ => by simp
  | startRead =>
    exact .bind ((refuses_requireDrive value a).congr (by simp)) fun _ => by simp
  | unknown => exact .of_total (.pure _) (by simp)

variable [AtaDrive δ]

theorem total_read (c : Context) (addr : UInt32) :
    (Cf.read c addr : Action (Host δ) UInt32).Total := by
  unfold read
  dsimp only
  split
  · refine .bind ?_ fun answer => ?_
    · simp [getDmaRegister]
    · simp
  · refine .bind ?_ fun answer => ?_
    · cases Register.ofAddress addr <;> simp [getRegister, total_readDrive]
    · simp

theorem refuses_write (c : Context) (addr value : UInt32) (a : Acting (Host δ)) :
    (Cf.write c addr value).RefusesIff (c.window.kind = .cfDma ∧
      DmaRegister.ofAddress addr = .command ∧
      (value = 0x21 ∨ value = 0x39 ∨ value = 0x3D) ∧ a.device.drive = none) a := by
  unfold write
  dsimp only
  split
  case h_1 hkind =>
    refine .bind ?_ fun remark => by simp
    cases hregister : DmaRegister.ofAddress addr
    case command => exact (refuses_startDma value a).congr (by simp [hkind])
    all_goals exact .of_total (by simp [setDmaRegister]) (by simp)
  case h_2 hkind =>
    refine .of_total (.bind ?_ fun remark => by simp) fun hp => hkind hp.1
    cases Register.ofAddress addr <;> simp [setRegister, updateDrive]

end Cf

end Digic
