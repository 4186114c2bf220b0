import Digic.Machine.Assembly
import Digic.Proofs.Interrupt.Access
import Digic.Proofs.Machine.Delivery
/-!
# Runs of a machine

A run is a list of steps: accesses of firmware, ticks, requests from outside, cards and drives that
are put in, and whatever the processor does by itself. For the line in service a step plays one of
four roles, which its address decides, and moves the course of interrupts as that role says.
-/
namespace Digic

open Bus Interrupt

namespace Machine

inductive Step (κ δ : Type) where
  | access (addr : UInt32) (direction : Log.Direction) (value : UInt32)
  | tick
  | request (id delay : UInt32)
  | attachCard (card : κ)
  | attachDrive (drive : δ)
  /-- The processor executes: memory and program counter change, and it may halt. -/
  | execute (memory : Memory) (pc : UInt32) (halted : Bool)

/-- What a step means to the line in service. -/
inductive Role where
  /-- Asks for the line in service, which is given times a factor. -/
  | reason (factor : UInt32)
  /-- Disables lines by a mask. -/
  | disables (lines : List UInt32)
  /-- Writes anything but zero to the reset register. -/
  | resets
  | other
  deriving DecidableEq, Repr

variable {κ δ : Type}

def accessRole (kind : Handler.Kind) (addr : UInt32) (direction : Log.Direction)
    (value : UInt32) : Role :=
  match kind, direction with
  | .interrupts, .read =>
    if addr &&& 0xFFF = 0x000 then .reason 1
    else if addr &&& 0xFFF = 0x004 then .reason 4
    else .other
  | .interrupts, .write => if addr &&& 0xFFF = 0x200 ∧ value ≠ 0 then .resets else .other
  | .interruptMasks, .write =>
    if addr &&& 0xF = 0xC then .disables (maskedLines addr value) else .other
  | _, _ => .other

def Step.role (table : List Handler.Entry) : Step κ δ → Role
  | .access addr direction value =>
    match Handler.find? table addr with
    | some h => accessRole h.kind addr direction value
    | none => .other
  | _ => .other

/-- Nobody outside asks for line zero. -/
def Step.Proper : Step κ δ → Prop
  | .request id _ => id ≠ 0
  | _ => True

section Run

variable [Sd.SdCard κ] [Cf.AtaDrive δ]

/-- The machine after a step, also after one that ends in a fault. -/
def step (s : Machine κ δ) : Step κ δ → Machine κ δ
  | .access addr direction value => stateAfter (access addr direction value) s
  | .tick => stateAfter tick s
  | .request id delay => s.request id delay
  | .attachCard card => s.attachCard card
  | .attachDrive drive => s.attachDrive drive
  | .execute memory pc halted => { s with cpu := { s.cpu with memory, pc, halted } }

/-- What an access gives, unless it ends in a fault. -/
def answer? (s : Machine κ δ) : Step κ δ → Option UInt32
  | .access addr direction value =>
    match access addr direction value s with
    | .ok given _ => some given
    | .error _ _ => none
  | _ => none

def run (s : Machine κ δ) (steps : List (Step κ δ)) : Machine κ δ := steps.foldl step s

@[simp] theorem run_nil (s : Machine κ δ) : s.run [] = s := rfl

@[simp] theorem run_cons (s : Machine κ δ) (st : Step κ δ) (steps : List (Step κ δ)) :
    s.run (st :: steps) = (s.step st).run steps := rfl

end Run

end Machine

/-- How a step in a role moves the course of interrupts. -/
inductive Service.Moves (v : Service) : Machine.Role → Service → Prop where
  | acknowledges (factor : UInt32) : Moves v (.reason factor) v.release
  | drops {lines : List UInt32} : v.active ≠ 0 → v.active ∈ lines →
    Moves v (.disables lines) v.release
  | spares {lines : List UInt32} : v.active = 0 ∨ v.active ∉ lines → Moves v (.disables lines) v
  | dismisses : Moves v .resets v.dismiss
  | delivers {w : Service} : v.Delivers w → Moves v .other w

namespace Machine

variable {κ δ : Type}

/-- What a step in a role leaves of the machine as it was, and how the rest moves. -/
structure Moves (s : Machine κ δ) (role : Role) (s' : Machine κ δ) : Prop where
  model : s'.model = s.model
  handlers : s'.handlers = s.handlers
  service : s.service.Moves role s'.service

theorem Delivers.moves {s s' : Machine κ δ} (h : s.Delivers s') : s.Moves .other s' :=
  ⟨h.model, h.handlers, .delivers h.service⟩

section Access

variable [Sd.SdCard κ] [Cf.AtaDrive δ] {s : Machine κ δ} {addr : UInt32}

theorem access_of_unclaimed (hfind : Handler.find? s.handlers addr = none)
    (direction : Log.Direction) (value : UInt32) :
    access addr direction value s = .ok 0 (s.noteUnclaimed addr direction value) := by
  rw [access, get_bind_apply, hfind]
  rfl

theorem read_of_unclaimed (hfind : Handler.find? s.handlers addr = none) :
    read addr s = .ok 0 (s.noteUnclaimed addr .read 0) :=
  access_of_unclaimed hfind .read 0

theorem access_read_of_claimed {h : Handler.Entry} (hfind : Handler.find? s.handlers addr = some h)
    (value : UInt32) :
    access addr .read value s = readDevice h.kind.device h.toWindow addr s := by
  rw [access, get_bind_apply, hfind]

theorem read_of_claimed {h : Handler.Entry} (hfind : Handler.find? s.handlers addr = some h) :
    read addr s = readDevice h.kind.device h.toWindow addr s :=
  access_read_of_claimed hfind 0

theorem write_of_claimed {h : Handler.Entry} (hfind : Handler.find? s.handlers addr = some h)
    (value : UInt32) :
    write addr value s = writeDevice h.kind.device h.toWindow addr value s := by
  rw [write, access, bind_assoc, get_bind_apply, hfind]
  simp only [bind_assoc, pure_bind]
  exact congrFun (bind_pure _) s

/-- The state after an access, also after one that ends in a fault. -/
theorem stateAfter_access (s : Machine κ δ) (addr : UInt32) (direction : Log.Direction)
    (value : UInt32) :
    stateAfter (access addr direction value) s =
      match Handler.find? s.handlers addr, direction with
      | none, _ => s.noteUnclaimed addr direction value
      | some h, .read => stateAfter (readDevice h.kind.device h.toWindow addr) s
      | some h, .write => stateAfter (writeDevice h.kind.device h.toWindow addr value) s := by
  rw [access, stateAfter_get_bind]
  cases Handler.find? s.handlers addr with
  | none => rfl
  | some h =>
    cases direction with
    | read => rfl
    | write =>
      dsimp only
      rw [stateAfter_bind, stateAfter]
      cases writeDevice h.kind.device h.toWindow addr value s <;> rfl

end Access

theorem foldl_absorb_told (s : Machine κ δ) (events : List Event) :
    (told events).foldl absorb s = s.tellEvents events := by
  rw [told, List.foldl_map]
  rfl

/-- An access of the controller does its history, the events of it are told, and then the access is. -/
theorem actInterrupts_of_does {α : Type} {timer : UInt32} {ops : List Operation}
    {value : Controller → α} {a : Action Controller α} (h : Does timer ops value a)
    (s : Machine κ δ) :
    ∃ notes : List Log.Notice, (∀ n ∈ notes, n.event? = none) ∧
      let t := { s with interrupts := (s.interrupts.run timer ops).1 }.tellEvents
        (s.interrupts.run timer ops).2
      actInterrupts a s = .ok (value s.interrupts) { t with journal := t.journal ++ notes } := by
  obtain ⟨notes, hnotes, ha⟩ := h s.interrupts
  refine ⟨notes, hnotes, ?_⟩
  simp only [actInterrupts, act, ha]
  rw [List.foldl_toArray, List.foldl_append, foldl_absorb_told, foldl_absorb_plain _ hnotes]

theorem moves_actInterrupts {α : Type} {timer : UInt32} {ops : List Operation} {role : Role}
    {value : Controller → α} {a : Action Controller α} (h : Does timer ops value a)
    {s : Machine κ δ}
    (hmoves : s.service.Moves role
      ({ s with interrupts := (s.interrupts.run timer ops).1 }.tellEvents
        (s.interrupts.run timer ops).2).service) :
    s.Moves role (stateAfter (actInterrupts a) s) := by
  obtain ⟨notes, hnotes, hact⟩ := actInterrupts_of_does h s
  rw [stateAfter, hact]
  refine ⟨model_tellEvents _ _, handlers_tellEvents _ _, ?_⟩
  exact (service_journal_append _ hnotes).symm ▸ hmoves

/-- Once the controller has nothing in service and tells of it, the course is that of a release. -/
theorem service_released (s : Machine κ δ) {c : Controller} (hc : c.active = 0) :
    ({ s with interrupts := c }.tellEvents [.released]).service = s.service.release := by
  have h := service_tell_released { s with interrupts := c }
  rw [tellEvents, List.foldl_cons, List.foldl_nil, h, Machine.service, hc]
  rfl

/-- To enable lines takes nothing into service. -/
theorem moves_enable (s : Machine κ δ) (ids : List UInt32) :
    s.service.Moves .other
      ({ s with interrupts := (s.interrupts.run 0 (ids.map .enable)).1 }.tellEvents
        (s.interrupts.run 0 (ids.map .enable)).2).service := by
  have htakes := Controller.takes_run_enable 0 ids s.interrupts
  have hdelivers := Delivers.of_takes (s := s)
    (t := { s with interrupts := (s.interrupts.run 0 (ids.map .enable)).1 }) rfl rfl rfl rfl htakes
  exact .delivers hdelivers.service

theorem accessRole_read (addr value : UInt32) :
    accessRole .interrupts addr .read value = match Register.ofAddress addr with
      | .reason shift => .reason (1 <<< shift)
      | _ => .other := by
  generalize hreg : Register.ofAddress addr = reg
  rw [Register.ofAddress] at hreg
  split at hreg <;> subst hreg <;> simp_all +decide [accessRole]

theorem accessRole_write (addr value : UInt32) :
    accessRole .interrupts addr .write value = match Register.ofAddress addr with
      | .reset => if value ≠ 0 then .resets else .other
      | _ => .other := by
  generalize hreg : Register.ofAddress addr = reg
  rw [Register.ofAddress] at hreg
  split at hreg <;> subst hreg <;> simp_all +decide [accessRole]

theorem moves_readRegister (s : Machine κ δ) (c : Context) (addr value : UInt32) :
    s.Moves (accessRole .interrupts addr .read value)
      (stateAfter (actInterrupts (readRegister c addr)) s) := by
  refine moves_actInterrupts (does_readRegister 0 c addr) ?_
  rw [accessRole_read, readOperations]
  cases Register.ofAddress addr with
  | reason shift =>
    have hservice := service_released s (c := { s.interrupts with active := 0 }) rfl
    exact hservice ▸ .acknowledges (1 <<< shift)
  | enable => exact .delivers .nothing
  | reset => exact .delivers .nothing
  | other => exact .delivers .nothing

theorem moves_writeRegister (s : Machine κ δ) (c : Context) (addr value : UInt32) :
    s.Moves (accessRole .interrupts addr .write value)
      (stateAfter (actInterrupts (writeRegister c addr value)) s) := by
  refine moves_actInterrupts (does_writeRegister 0 c addr value) ?_
  rw [accessRole_write, writeOperations]
  cases Register.ofAddress addr with
  | reason shift => exact .delivers .nothing
  | enable =>
    exact s.moves_enable [value]
  | reset =>
    by_cases hv : value = 0
    · rw [if_neg (not_not_intro hv), if_neg (not_not_intro hv)]
      exact .delivers .nothing
    · rw [if_pos hv, if_pos hv]
      exact .dismisses
  | other => exact .delivers .nothing

theorem moves_writeMask (s : Machine κ δ) (c : Context) (addr mask : UInt32) :
    s.Moves (accessRole .interruptMasks addr .write mask)
      (stateAfter (actInterrupts (writeMask c addr mask)) s) := by
  refine moves_actInterrupts (does_writeMask 0 c addr mask) ?_
  rw [maskOperations]
  split
  case h_1 h =>
    rw [accessRole, h, if_neg (by decide)]
    exact s.moves_enable (maskedLines addr mask)
  case h_2 h =>
    rw [accessRole, if_pos h]
    by_cases hfree : s.interrupts.active = 0 ∨ s.interrupts.active ∉ maskedLines addr mask
    · obtain ⟨hactive, hevents⟩ := Controller.run_disable_of_not_mem 0 hfree
      have hservice : ({ s with interrupts := (s.interrupts.run 0
          ((maskedLines addr mask).map .disable)).1 }.tellEvents []).service = s.service := by
        rw [tellEvents, List.foldl_nil, service, hactive]
        rfl
      rw [hevents, hservice]
      exact .spares hfree
    · obtain ⟨hbusy, hmem⟩ := not_or.1 hfree
      obtain ⟨hactive, hevents⟩ := Controller.run_disable_of_mem 0 hbusy (Decidable.not_not.1 hmem)
      rw [hevents, service_released s hactive]
      exact .drops hbusy (Decidable.not_not.1 hmem)
  case h_3 h8 hC =>
    rw [accessRole, if_neg hC]
    exact .delivers .nothing

theorem kind_of_device_eq_interrupts {kind : Handler.Kind} (h : kind.device = .interrupts) :
    kind = .interrupts ∨ kind = .interruptMasks := by
  cases kind <;> first | exact .inl rfl | exact .inr rfl | cases h

theorem accessRole_of_device_ne {kind : Handler.Kind} (h : kind.device ≠ .interrupts)
    (addr : UInt32) (direction : Log.Direction) (value : UInt32) :
    accessRole kind addr direction value = .other := by
  cases kind <;> first | rfl | exact absurd rfl h

section Step

variable [Cf.AtaDrive δ]

theorem readDevice_interrupts {w : Handler.Window} (h : w.kind = .interrupts) (addr : UInt32)
    (s : Machine κ δ) : readDevice w.kind.device w addr s =
      actInterrupts (readRegister (s.context w) addr) s := by
  have hkind : (s.context w).window.kind = .interrupts := h
  have hread : Interrupt.read (s.context w) addr = readRegister (s.context w) addr := by
    rw [Interrupt.read, hkind]
  rw [← hread, h]
  rfl

theorem readDevice_masks {w : Handler.Window} (h : w.kind = .interruptMasks) (addr : UInt32)
    (s : Machine κ δ) : readDevice w.kind.device w addr s =
      actInterrupts ((s.context w).answer addr 0 "") s := by
  have hkind : (s.context w).window.kind = .interruptMasks := h
  have hread : Interrupt.read (s.context w) addr = (s.context w).answer addr 0 "" := by
    rw [Interrupt.read, hkind]
  rw [← hread, h]
  rfl

theorem moves_readDevice (s : Machine κ δ) (w : Handler.Window) (addr value : UInt32) :
    s.Moves (accessRole w.kind addr .read value)
      (stateAfter (readDevice w.kind.device w addr) s) := by
  by_cases hdevice : w.kind.device = .interrupts
  · rcases kind_of_device_eq_interrupts hdevice with h | h
    · rw [stateAfter_congr (readDevice_interrupts h addr s), h]
      exact s.moves_readRegister (s.context w) addr value
    · have hdoes := (tells_answer (s.context w) addr 0 "").does 0
      rw [stateAfter_congr (readDevice_masks h addr s), h]
      exact moves_actInterrupts hdoes (.delivers .nothing)
  · rw [accessRole_of_device_ne hdevice]
    exact (delivers_readDevice hdevice w addr s).moves

variable [Sd.SdCard κ]

theorem writeDevice_interrupts {w : Handler.Window} (h : w.kind = .interrupts)
    (addr value : UInt32) (s : Machine κ δ) : writeDevice w.kind.device w addr value s =
      actInterrupts (writeRegister (s.context w) addr value) s := by
  have hkind : (s.context w).window.kind = .interrupts := h
  have hwrite : Interrupt.write (s.context w) addr value =
      writeRegister (s.context w) addr value := by
    rw [Interrupt.write, hkind]
  rw [← hwrite, h]
  rfl

theorem writeDevice_masks {w : Handler.Window} (h : w.kind = .interruptMasks)
    (addr value : UInt32) (s : Machine κ δ) : writeDevice w.kind.device w addr value s =
      actInterrupts (writeMask (s.context w) addr value) s := by
  have hkind : (s.context w).window.kind = .interruptMasks := h
  have hwrite : Interrupt.write (s.context w) addr value =
      writeMask (s.context w) addr value := by
    rw [Interrupt.write, hkind]
  rw [← hwrite, h]
  rfl

theorem moves_writeDevice {s : Machine κ δ} (hnonzero : s.model.InterruptsNonzero)
    (w : Handler.Window) (addr value : UInt32) :
    s.Moves (accessRole w.kind addr .write value)
      (stateAfter (writeDevice w.kind.device w addr value) s) := by
  by_cases hdevice : w.kind.device = .interrupts
  · rcases kind_of_device_eq_interrupts hdevice with h | h
    · rw [stateAfter_congr (writeDevice_interrupts h addr value s), h]
      exact s.moves_writeRegister (s.context w) addr value
    · rw [stateAfter_congr (writeDevice_masks h addr value s), h]
      exact s.moves_writeMask (s.context w) addr value
  · rw [accessRole_of_device_ne hdevice]
    exact (delivers_writeDevice hdevice w addr value hnonzero).moves

theorem moves_access {s : Machine κ δ} (hnonzero : s.model.InterruptsNonzero) (addr : UInt32)
    (direction : Log.Direction) (value : UInt32) :
    s.Moves ((Step.access addr direction value : Step κ δ).role s.handlers)
      (stateAfter (access addr direction value) s) := by
  rw [stateAfter_access, Step.role]
  cases Handler.find? s.handlers addr with
  | none => exact (s.delivers_noteUnclaimed addr direction value).moves
  | some h =>
    cases direction with
    | read => exact s.moves_readDevice h.toWindow addr value
    | write => exact moves_writeDevice hnonzero h.toWindow addr value

/-- Whatever a step does, it moves the course of interrupts as its role says. -/
theorem moves_step {s : Machine κ δ} (hnonzero : s.model.InterruptsNonzero) {st : Step κ δ}
    (hproper : st.Proper) : s.Moves (st.role s.handlers) (s.step st) := by
  cases st with
  | access addr direction value => exact moves_access hnonzero addr direction value
  | tick => exact (delivers_tick hnonzero).moves
  | request id delay => exact (s.delivers_request hproper delay).moves
  | attachCard card =>
    have hsame : s.Delivers (s.attachCard card) := .of_service_eq rfl rfl rfl
    exact hsame.moves
  | attachDrive drive =>
    have hsame : s.Delivers (s.attachDrive drive) := .of_service_eq rfl rfl rfl
    exact hsame.moves
  | execute memory pc halted =>
    have hsame : s.Delivers (s.step (.execute memory pc halted)) := .of_service_eq rfl rfl rfl
    exact hsame.moves

theorem shiftLeft_two (n : UInt32) : n <<< 2 = n * 4 := by
  apply UInt32.toNat_inj.1
  simp [UInt32.toNat_shiftLeft, UInt32.toNat_mul, Nat.shiftLeft_eq]

/-- Only reads of the newer window ask for the line in service. -/
theorem readValue_of_accessRole {kind : Handler.Kind} {addr value factor : UInt32}
    {direction : Log.Direction} (h : accessRole kind addr direction value = .reason factor) :
    kind = .interrupts ∧ direction = .read ∧ readValue addr = fun c => c.active * factor := by
  unfold accessRole at h
  split at h
  case h_1 =>
    refine ⟨rfl, rfl, ?_⟩
    split at h
    case isTrue h0 =>
      cases h
      rw [readValue, Register.ofAddress, h0]
      exact funext fun c => by simp
    case isFalse =>
      split at h
      case isTrue h4 =>
        cases h
        rw [readValue, Register.ofAddress, h4]
        exact funext fun c => shiftLeft_two c.active
      case isFalse => cases h
  case h_2 => split at h <;> cases h
  case h_3 => split at h <;> cases h
  case h_4 => cases h

/-- Asking for the line in service gives it. -/
theorem answer?_of_role_reason {s : Machine κ δ} {st : Step κ δ} {factor : UInt32}
    (h : st.role s.handlers = .reason factor) :
    s.answer? st = some (s.interrupts.active * factor) := by
  cases st with
  | access addr direction value =>
    rw [Step.role] at h
    rw [answer?]
    cases hfind : Handler.find? s.handlers addr with
    | none =>
      rw [hfind] at h
      cases h
    | some e =>
      rw [hfind] at h
      obtain ⟨hkind, rfl, hvalue⟩ := readValue_of_accessRole h
      have hdevice := readDevice_interrupts (w := e.toWindow) hkind addr s
      obtain ⟨notes, -, hact⟩ :=
        actInterrupts_of_does (does_readRegister 0 (s.context e.toWindow) addr) s
      rw [access_read_of_claimed hfind, hdevice, hact, hvalue]
  | tick => cases h
  | request id delay => cases h
  | attachCard card => cases h
  | attachDrive drive => cases h
  | execute memory pc halted => cases h

/-- What a step of its role keeps true, a run keeps true. -/
theorem run_preserves {s : Machine κ δ} (hnonzero : s.model.InterruptsNonzero)
    {steps : List (Step κ δ)} (hproper : ∀ st ∈ steps, st.Proper) {P : Service → Prop}
    (hstep : ∀ st ∈ steps, ∀ v w : Service, v.Moves (st.role s.handlers) w → P v → P w)
    (h : P s.service) : P (s.run steps).service := by
  induction steps generalizing s with
  | nil => exact h
  | cons st steps ih =>
    have hmoves := moves_step hnonzero (hproper st List.mem_cons_self)
    refine ih (s := s.step st) ?_ ?_ ?_ ?_
    · exact hmoves.model ▸ hnonzero
    · exact fun later hlater => hproper later (List.mem_cons_of_mem st hlater)
    · intro later hlater
      rw [hmoves.handlers]
      exact hstep later (List.mem_cons_of_mem st hlater)
    · exact hstep st List.mem_cons_self _ _ hmoves.service h

/-- A run changes neither the model nor the handler table. -/
theorem run_fixed {s : Machine κ δ} (hnonzero : s.model.InterruptsNonzero)
    {steps : List (Step κ δ)} (hproper : ∀ st ∈ steps, st.Proper) :
    (s.run steps).model = s.model ∧ (s.run steps).handlers = s.handlers := by
  induction steps generalizing s with
  | nil => exact ⟨rfl, rfl⟩
  | cons st steps ih =>
    have hmoves := moves_step hnonzero (hproper st List.mem_cons_self)
    obtain ⟨hmodel, hhandlers⟩ := ih (s := s.step st) (hmoves.model ▸ hnonzero)
      fun later hlater => hproper later (List.mem_cons_of_mem st hlater)
    exact ⟨hmodel.trans hmoves.model, hhandlers.trans hmoves.handlers⟩

end Step

/-- What a new machine begins with. -/
theorem of_assemble {m : Model} {s : Machine κ δ} (h : assemble m = .ok s) :
    s.model = m ∧ s.handlers = Handler.standardTable ∧ s.service = ⟨0, false, 0, []⟩ := by
  rw [assemble] at h
  cases hvalid : m.validate with
  | error e =>
    rw [hvalid] at h
    cases h
  | ok =>
    rw [hvalid] at h
    cases h
    exact ⟨rfl, rfl, rfl⟩

end Machine

instance : Sd.SdCard Empty where
  command := nofun
  readByte := nofun
  writeByte := nofun
  dataReady := nofun

instance : Cf.AtaDrive Empty where
  readRegister := nofun
  writeRegister := nofun
  readData16 := nofun
  writeData16 := nofun
  status := nofun
  writeControl := nofun

end Digic
