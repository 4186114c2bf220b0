import Digic.Proofs.Bus.Effects
import Digic.Proofs.Cf.Record
/-!
# Transfers by DMA

A transfer goes from the drive to memory or from memory to the drive. A pass moves words for as long
as the drive asks for data, and completes the transfer once everything is moved.
-/
namespace Digic.Cf

open Bus

variable {δ : Type}

/-- A transfer, named as firmware does: a read goes from the drive to memory. -/
inductive Transfer where
  | read | write
  deriving DecidableEq, Repr

/-- The interrupts of a completion that firmware enabled: the driver's before that of DMA. -/
def completions (m : Model) (enabled : UInt32) : List UInt32 :=
  (if enabled &&& 0x02000001 ≠ 0 then [m.cfDriverInterrupt] else []) ++
    if enabled &&& 0x00010000 ≠ 0 then [m.cfDmaInterrupt] else []

/-- Which requests wait: to read, to write, and for a command. -/
def Host.requests (h : Host δ) : Bool × Bool × Bool :=
  (h.readRequest, h.writeRequest, h.commandPending)

namespace Transfer

/-- The values by which firmware starts a transfer. -/
def commands : Transfer → List UInt32
  | .read => [0x39, 0x21]
  | .write => [0x3D]

/-- No request but, maybe, that of a transfer. -/
def requests (t : Transfer) (pending : Bool) : Bool × Bool × Bool :=
  match t with
  | .read => (pending, false, false)
  | .write => (false, pending, false)

def setRequest (t : Transfer) (pending : Bool) (b : Bench δ) : Bench δ :=
  match t with
  | .read => { b with readRequest := pending }
  | .write => { b with writeRequest := pending }

/-- The host once a pass has moved its words. -/
def settle (t : Transfer) (b : Bench δ) : Bench δ :=
  if b.finished then t.setRequest false b else b

theorem dmaDone_settle (t : Transfer) (b : Bench δ) : (t.settle b).dmaDone = b.dmaDone := by
  rw [settle]
  cases b.finished with
  | false => rfl
  | true => cases t <;> rfl

/-- A pass that finishes a transfer takes its request back. -/
theorem requests_settle (t : Transfer) {b : Bench δ} (h : b.requests = t.requests true) :
    (t.settle b).requests = t.requests (!b.finished) := by
  rw [settle]
  cases hfinished : b.finished with
  | false => exact h
  | true =>
    cases t with
    | read => exact congrArg (false, ·.2) h
    | write => exact congrArg (fun r => (r.1, false, r.2.2)) h

variable [AtaDrive δ]

def move (t : Transfer) (drive : δ) (b : Bench δ) : Bench δ :=
  match t with
  | .read =>
    { b with
      drive := some (AtaDrive.readData32 drive).2
      memory := b.memory.writeWord b.cursor (AtaDrive.readData32 drive).1
      dmaDone := b.dmaDone + 4 }
  | .write =>
    { b with
      drive := some (AtaDrive.writeData32 drive (b.memory.readWord b.cursor))
      dmaDone := b.dmaDone + 4 }

def drain (t : Transfer) (n : Nat) (b : Bench δ) : Bench δ :=
  match t with
  | .read => drainRead n b
  | .write => drainWrite n b

theorem drain_zero (t : Transfer) (b : Bench δ) : t.drain 0 b = b := by
  cases t <;> rfl

theorem drain_of_ready (t : Transfer) (n : Nat) {b : Bench δ} {drive : δ}
    (hdrive : b.drive = some drive) (hready : AtaDrive.dataReady drive = true) :
    t.drain (n + 1) b = t.drain n (t.move drive b) := by
  cases t with
  | read =>
    rw [drain, drainRead, hdrive]
    exact if_pos hready
  | write =>
    rw [drain, drainWrite, hdrive]
    exact if_pos hready

theorem drain_of_not_ready (t : Transfer) (n : Nat) {b : Bench δ} {drive : δ}
    (hdrive : b.drive = some drive) (hready : AtaDrive.dataReady drive = false) :
    t.drain n b = b := by
  cases n with
  | zero => exact t.drain_zero b
  | succ n =>
    have hnot : ¬ AtaDrive.dataReady drive = true := by simp [hready]
    cases t with
    | read =>
      rw [drain, drainRead, hdrive]
      exact if_neg hnot
    | write =>
      rw [drain, drainWrite, hdrive]
      exact if_neg hnot

theorem drain_of_none (t : Transfer) (n : Nat) {b : Bench δ} (hdrive : b.drive = none) :
    t.drain n b = b := by
  cases n with
  | zero => exact t.drain_zero b
  | succ n => cases t <;> simp [drain, drainRead, drainWrite, hdrive]

/-- What holds before a pass and through the move of each word holds when its words are moved. -/
theorem drain_induction (t : Transfer) {P : Bench δ → Prop} {b : Bench δ} (n : Nat)
    (hmove : ∀ (b : Bench δ) (drive : δ), b.drive = some drive → P b → P (t.move drive b))
    (h : P b) : P (t.drain n b) := by
  induction n generalizing b with
  | zero => rwa [t.drain_zero b]
  | succ n ih =>
    cases hdrive : b.drive with
    | none => rwa [t.drain_of_none (n + 1) hdrive]
    | some drive =>
      cases hready : AtaDrive.dataReady drive with
      | false => rwa [t.drain_of_not_ready (n + 1) hdrive hready]
      | true =>
        rw [t.drain_of_ready n hdrive hready]
        exact ih (hmove b drive hdrive h)

/-- What changes neither what the drive asks for nor how a word is moved may be done before or after
the words are moved. -/
theorem drain_map {δ' : Type} [AtaDrive δ'] (t : Transfer) {f : Bench δ → Bench δ'} {g : δ → δ'}
    (hdrive : ∀ b, (f b).drive = b.drive.map g)
    (hready : ∀ drive, AtaDrive.dataReady (g drive) = AtaDrive.dataReady drive)
    (hmove : ∀ b drive, t.move (g drive) (f b) = f (t.move drive b)) (n : Nat) (b : Bench δ) :
    t.drain n (f b) = f (t.drain n b) := by
  induction n generalizing b with
  | zero => rw [t.drain_zero, t.drain_zero]
  | succ n ih =>
    cases hfirst : b.drive with
    | none => rw [t.drain_of_none _ hfirst, t.drain_of_none _ (by rw [hdrive, hfirst]; rfl)]
    | some drive =>
      have hdrive' : (f b).drive = some (g drive) := by rw [hdrive, hfirst]; rfl
      cases hasks : AtaDrive.dataReady drive with
      | false =>
        rw [t.drain_of_not_ready _ hfirst hasks,
          t.drain_of_not_ready _ hdrive' ((hready drive).trans hasks)]
      | true =>
        rw [t.drain_of_ready _ hfirst hasks,
          t.drain_of_ready _ hdrive' ((hready drive).trans hasks), hmove, ih]

/-- To move words changes no settings and makes no request. -/
theorem drain_settings (t : Transfer) (n : Nat) (b : Bench δ) :
    (t.drain n b).requests = b.requests ∧ (t.drain n b).dmaAddr = b.dmaAddr ∧
      (t.drain n b).dmaCount = b.dmaCount ∧
      (t.drain n b).interruptsEnabled = b.interruptsEnabled := by
  refine t.drain_induction (P := fun b' => b'.requests = b.requests ∧ b'.dmaAddr = b.dmaAddr ∧
    b'.dmaCount = b.dmaCount ∧ b'.interruptsEnabled = b.interruptsEnabled) n ?_ ⟨rfl, rfl, rfl, rfl⟩
  intro b' drive hdrive h
  cases t <;> exact h

end Transfer

/-- The model has each interrupt that firmware enabled. -/
structure Host.Served (m : Model) (h : Host δ) : Prop where
  driver : h.interruptsEnabled &&& driverBits ≠ 0 → m.cfDriverInterrupt ≠ 0
  dma : h.interruptsEnabled &&& dmaBits ≠ 0 → m.cfDmaInterrupt ≠ 0

/-- A model that has both interrupts serves any host. -/
theorem Host.served {m : Model} (hdriver : m.cfDriverInterrupt ≠ 0) (hdma : m.cfDmaInterrupt ≠ 0)
    (h : Host δ) : h.Served m := ⟨fun _ => hdriver, fun _ => hdma⟩

theorem Host.Served.congr {m : Model} {h h' : Host δ} (hserved : h.Served m)
    (henabled : h'.interruptsEnabled = h.interruptsEnabled) : h'.Served m :=
  ⟨henabled ▸ hserved.driver, henabled ▸ hserved.dma⟩

theorem completionInterrupts_apply {m : Model} {a : Acting (Bench δ)} (h : a.device.Served m) :
    completionInterrupts m a = .ok (completions m a.device.interruptsEnabled) a := by
  have hdriver : (a.device.interruptsEnabled &&& driverBits != 0) = true →
      m.cfDriverInterrupt ≠ 0 := by simpa using h.driver
  have hdma : (a.device.interruptsEnabled &&& dmaBits != 0) = true →
      m.cfDmaInterrupt ≠ 0 := by simpa using h.dma
  simp only [completionInterrupts, Action.bind_apply, Action.device_apply,
    Action.require_apply hdriver, Action.require_apply hdma, Action.pure_apply]
  simp [completions, driverBits, dmaBits]

theorem requireWords_apply {a : Acting (Bench δ)} (h : a.device.dmaCount % 4 = 0) :
    (requireWords : Action (Bench δ) Unit) a = .ok () a := by
  simp [-bind_pure_comp, requireWords, Action.bind_apply, Action.device_apply,
    Action.require_apply, h]

def Bench.gives (m : Model) (b : Bench δ) : List UInt32 :=
  if b.finished then completions m b.interruptsEnabled else []

theorem passCommand_apply_of_not {m : Model} {a : Acting (Bench δ)}
    (h : a.device.commandPending = false) : passCommand m a = .ok [] a := by
  simp [-bind_pure_comp, passCommand, Action.bind_apply, Action.device_apply, h,
    Action.pure_apply]

section Passes

variable [AtaDrive δ] {m : Model}

theorem Transfer.served_drain (t : Transfer) (n : Nat) {b : Bench δ} (h : b.Served m) :
    (t.drain n b).Served m := h.congr (t.drain_settings n b).2.2.2

theorem passRead_apply_of_not {a : Acting (Bench δ)} (h : a.device.readRequest = false) :
    passRead m a = .ok [] a := by
  simp [-bind_pure_comp, passRead, Action.bind_apply, Action.device_apply, h, Action.pure_apply]

theorem passWrite_apply_of_not {a : Acting (Bench δ)} (h : a.device.writeRequest = false) :
    passWrite m a = .ok [] a := by
  simp [-bind_pure_comp, passWrite, Action.bind_apply, Action.device_apply, h, Action.pure_apply]

theorem passRead_apply {a : Acting (Bench δ)} (hserved : a.device.Served m)
    (hrequest : a.device.readRequest = true) (hcount : a.device.dmaCount % 4 = 0) :
    passRead m a = .ok ((Transfer.read.drain a.device.wordsLeft a.device).gives m)
      ⟨Transfer.read.settle (Transfer.read.drain a.device.wordsLeft a.device),
        a.effects.push (.note (.cfReading a.device.bytesLeft a.device.dmaCount
          a.device.cursor))⟩ := by
  have hdone (effects : Array Effect) :
      completionInterrupts m
          ⟨{ drainRead a.device.wordsLeft a.device with readRequest := false }, effects⟩ =
        .ok (completions m (drainRead a.device.wordsLeft a.device).interruptsEnabled)
          ⟨{ drainRead a.device.wordsLeft a.device with readRequest := false }, effects⟩ :=
    completionInterrupts_apply ((Transfer.read.served_drain a.device.wordsLeft hserved).congr rfl)
  simp only [passRead, Action.bind_apply, Action.device_apply, hrequest, if_true,
    requireWords_apply hcount, Action.note_apply, Action.update_apply, Transfer.drain]
  by_cases h : (drainRead a.device.wordsLeft a.device).finished = true
  · simp [h, Action.bind_apply, Action.update_apply, hdone, Transfer.settle, Transfer.setRequest,
      Bench.gives]
  · simp [h, Action.pure_apply, Transfer.settle, Bench.gives]

theorem passWrite_apply {a : Acting (Bench δ)} (hserved : a.device.Served m)
    (hrequest : a.device.writeRequest = true) (hcount : a.device.dmaCount % 4 = 0) :
    passWrite m a = .ok ((Transfer.write.drain a.device.wordsLeft a.device).gives m)
      ⟨Transfer.write.settle (Transfer.write.drain a.device.wordsLeft a.device), a.effects⟩ := by
  have hdone (effects : Array Effect) :
      completionInterrupts m
          ⟨{ drainWrite a.device.wordsLeft a.device with writeRequest := false }, effects⟩ =
        .ok (completions m (drainWrite a.device.wordsLeft a.device).interruptsEnabled)
          ⟨{ drainWrite a.device.wordsLeft a.device with writeRequest := false }, effects⟩ :=
    completionInterrupts_apply ((Transfer.write.served_drain a.device.wordsLeft hserved).congr rfl)
  simp only [passWrite, Action.bind_apply, Action.device_apply, hrequest, if_true,
    requireWords_apply hcount, Action.update_apply, Transfer.drain]
  by_cases h : (drainWrite a.device.wordsLeft a.device).finished = true
  · simp [h, Action.bind_apply, Action.update_apply, hdone, Transfer.settle, Transfer.setRequest,
      Bench.gives]
  · simp [h, Action.pure_apply, Transfer.settle, Bench.gives]

/-- A pass without a request does nothing. -/
theorem pass_apply_of_idle (t : Transfer) {a : Acting (Bench δ)}
    (h : a.device.requests = t.requests false) : pass m a = .ok [] a := by
  obtain ⟨hread, hwrite, hcommand⟩ : a.device.readRequest = false ∧
      a.device.writeRequest = false ∧ a.device.commandPending = false := by
    cases t <;> simpa [Host.requests, Transfer.requests] using h
  simp [-bind_pure_comp, pass, Action.bind_apply, passRead_apply_of_not hread,
    passWrite_apply_of_not hwrite, passCommand_apply_of_not hcommand, Action.pure_apply]

/-- A pass brings the transfer forward of which alone a request waits. -/
theorem pass_apply_of_pending (t : Transfer) (hdriver : m.cfDriverInterrupt ≠ 0)
    (hdma : m.cfDmaInterrupt ≠ 0) {a : Acting (Bench δ)}
    (h : a.device.requests = t.requests true) (hcount : a.device.dmaCount % 4 = 0) :
    ∃ effects, pass m a = .ok ((t.drain a.device.wordsLeft a.device).gives m)
      ⟨t.settle (t.drain a.device.wordsLeft a.device), effects⟩ := by
  have hdrained := (t.drain_settings a.device.wordsLeft a.device).1.trans h
  have hsettled := t.requests_settle hdrained
  cases t with
  | read =>
    refine ⟨a.effects.push (.note (.cfReading a.device.bytesLeft a.device.dmaCount
      a.device.cursor)), ?_⟩
    have hwrite := congrArg (·.2.1) hsettled
    have hcommand := congrArg (·.2.2) hsettled
    have hread := passRead_apply (Host.served hdriver hdma _) (congrArg (·.1) h) hcount
    rw [pass, Action.bind_apply, hread]
    simp only [Action.bind_apply]
    rw [passWrite_apply_of_not hwrite]
    simp only
    rw [passCommand_apply_of_not hcommand]
    simp [Action.pure_apply]
  | write =>
    refine ⟨a.effects, ?_⟩
    have hcommand := congrArg (·.2.2) hsettled
    have hwrite := passWrite_apply (Host.served hdriver hdma _) (congrArg (·.2.1) h) hcount
    rw [pass, Action.bind_apply, passRead_apply_of_not (congrArg (·.1) h)]
    simp only [Action.bind_apply]
    rw [hwrite]
    simp only
    rw [passCommand_apply_of_not hcommand]
    simp [Action.pure_apply]

end Passes

end Digic.Cf
