import Digic.Proofs.Cf.Exact
/-!
# A pass with any requests

Both kinds of transfer share one count of the bytes moved. A pass serves the read before the write,
and a transfer that comes to its end, or finds that the drive asks for nothing, leaves nothing to be
moved for the other one. So a pass brings a single transfer forward, the read if one waits, and once
the count is complete it takes back the requests of both.
-/
namespace Digic.Cf

open Bus

variable {δ : Type}

def Host.waits (h : Host δ) : Transfer → Bool
  | .read => h.readRequest
  | .write => h.writeRequest

/-- The transfer that a pass brings forward. -/
def Host.current (h : Host δ) : Transfer := if h.readRequest then .read else .write

def Bench.answerCommand (b : Bench δ) : Bench δ :=
  if b.commandPending ∧ b.interruptsEnabled = 1 then { b with commandPending := false } else b

theorem waits_current (h : Host δ) : h.waits h.current = h.busy := by
  unfold Host.current Host.busy Host.waits
  cases hread : h.readRequest <;> rfl

theorem waits_congr {h h' : Host δ} (hrequests : h.requests = h'.requests) (t : Transfer) :
    h.waits t = h'.waits t := by
  cases t with
  | read => exact congrArg (·.1) hrequests
  | write => exact congrArg (·.2.1) hrequests

theorem waits_settle (t t' : Transfer) (b : Bench δ) :
    (t.settle b).waits t' = (b.waits t' && !(t = t' && b.finished)) := by
  rw [Transfer.settle]
  cases b.finished <;> cases t <;> cases t' <;> simp [Transfer.setRequest, Host.waits]

theorem Transfer.settings_settle (t : Transfer) (b : Bench δ) :
    (t.settle b).drive = b.drive ∧ (t.settle b).dmaAddr = b.dmaAddr ∧
      (t.settle b).dmaCount = b.dmaCount := by
  rw [settle]
  cases b.finished with
  | false => exact ⟨rfl, rfl, rfl⟩
  | true => cases t <;> exact ⟨rfl, rfl, rfl⟩

theorem finished_settle (t : Transfer) (b : Bench δ) : (t.settle b).finished = b.finished := by
  rw [Host.finished, Host.finished, t.dmaDone_settle, (t.settings_settle b).2.2]

theorem waits_answerCommand (b : Bench δ) (t : Transfer) :
    b.answerCommand.waits t = b.waits t := by
  rw [Bench.answerCommand]
  split <;> cases t <;> rfl

section Passes

variable [AtaDrive δ]

def Transfer.serve (t : Transfer) (b : Bench δ) : Bench δ :=
  if b.waits t then t.settle (t.drain b.wordsLeft b) else b

theorem Transfer.serve_of_waits {t : Transfer} {b : Bench δ} (h : b.waits t = true) :
    t.serve b = t.settle (t.drain b.wordsLeft b) := if_pos h

theorem Transfer.serve_of_not_waits {t : Transfer} {b : Bench δ} (h : b.waits t = false) :
    t.serve b = b := if_neg (by rw [h]; exact Bool.false_ne_true)

theorem Transfer.settings_serve (t : Transfer) (b : Bench δ) :
    (t.serve b).drive.isSome = b.drive.isSome ∧ (t.serve b).dmaAddr = b.dmaAddr ∧
      (t.serve b).dmaCount = b.dmaCount := by
  have hmoved (n : Nat) : (t.drain n b).drive.isSome = b.drive.isSome := by
    refine t.drain_induction (P := fun b' => b'.drive.isSome = b.drive.isSome) n ?_ rfl
    intro b' drive hdrive h
    rw [← h, hdrive]
    cases t <;> rfl
  cases hwaits : b.waits t with
  | false =>
    rw [serve_of_not_waits hwaits]
    exact ⟨rfl, rfl, rfl⟩
  | true =>
    obtain ⟨-, haddr, hcount, -⟩ := t.drain_settings b.wordsLeft b
    obtain ⟨hdrive, haddr', hcount'⟩ := t.settings_settle (t.drain b.wordsLeft b)
    rw [serve_of_waits hwaits, hdrive]
    exact ⟨hmoved _, haddr'.trans haddr, hcount'.trans hcount⟩

theorem Transfer.waits_serve (t t' : Transfer) (b : Bench δ) :
    (t.serve b).waits t' = (b.waits t' && !(t = t' && (t.serve b).finished)) := by
  cases hwaits : b.waits t with
  | false =>
    rw [serve_of_not_waits hwaits]
    by_cases heq : t = t'
    · subst heq
      rw [hwaits, Bool.false_and]
    · simp [heq]
  | true =>
    rw [serve_of_waits hwaits, waits_settle, finished_settle,
      waits_congr (t.drain_settings b.wordsLeft b).1]

theorem Transfer.interruptsEnabled_serve (t : Transfer) (b : Bench δ) :
    (t.serve b).interruptsEnabled = b.interruptsEnabled := by
  rw [serve, settle]
  split
  · rw [← (t.drain_settings b.wordsLeft b).2.2.2]
    split
    · cases t <;> rfl
    · rfl
  · rfl

/-- The interrupts that a pass gives for one transfer. -/
def Transfer.dues (m : Model) (t : Transfer) (b : Bench δ) : List UInt32 :=
  if b.waits t then (t.drain b.wordsLeft b).gives m else []

def Bench.commandDues (m : Model) (b : Bench δ) : List UInt32 :=
  if b.commandPending ∧ b.interruptsEnabled = 1 then completions m b.interruptsEnabled else []

def Bench.report (b : Bench δ) : Array Effect :=
  if b.readRequest then #[.note (.cfReading b.bytesLeft b.dmaCount b.cursor)] else #[]

section Pass

variable {m : Model} {a : Acting (Bench δ)}

theorem passRead_serve (hserved : a.device.Served m) (hcount : a.device.dmaCount % 4 = 0) :
    passRead m a = .ok (Transfer.read.dues m a.device)
      ⟨Transfer.read.serve a.device, a.effects ++ a.device.report⟩ := by
  cases hwaits : a.device.readRequest with
  | true => simp [passRead_apply hserved hwaits hcount, Transfer.dues, Transfer.serve, Host.waits,
      Bench.report, hwaits]
  | false => simp [passRead_apply_of_not hwaits, Transfer.dues, Transfer.serve, Host.waits,
      Bench.report, hwaits]

theorem passWrite_serve (hserved : a.device.Served m) (hcount : a.device.dmaCount % 4 = 0) :
    passWrite m a = .ok (Transfer.write.dues m a.device)
      ⟨Transfer.write.serve a.device, a.effects⟩ := by
  cases hwaits : a.device.writeRequest with
  | true => simp [passWrite_apply hserved hwaits hcount, Transfer.dues, Transfer.serve, Host.waits,
      hwaits]
  | false => simp [passWrite_apply_of_not hwaits, Transfer.dues, Transfer.serve, Host.waits,
      hwaits]

omit [AtaDrive δ] in
theorem passCommand_answers (hserved : a.device.Served m) :
    passCommand m a = .ok (a.device.commandDues m) ⟨a.device.answerCommand, a.effects⟩ := by
  by_cases h : a.device.commandPending = true ∧ a.device.interruptsEnabled = 1
  · rw [Bench.answerCommand, if_pos h, Bench.commandDues, if_pos h]
    simp [-bind_pure_comp, passCommand, Action.bind_apply, Action.device_apply, h,
      completionInterrupts_apply hserved, Action.update_apply, Action.pure_apply]
  · rw [Bench.answerCommand, if_neg h, Bench.commandDues, if_neg h]
    simp [-bind_pure_comp, passCommand, Action.bind_apply, Action.device_apply, h,
      Action.pure_apply]

/-- A pass serves the read, then the write, and at last answers for a command. -/
theorem pass_serves (hserved : a.device.Served m) (hcount : a.device.dmaCount % 4 = 0) :
    pass m a = .ok
      (Transfer.read.dues m a.device ++ Transfer.write.dues m (Transfer.read.serve a.device) ++
        (Transfer.write.serve (Transfer.read.serve a.device)).commandDues m)
      ⟨(Transfer.write.serve (Transfer.read.serve a.device)).answerCommand,
        a.effects ++ a.device.report⟩ := by
  have hcount' : (Transfer.read.serve a.device).dmaCount % 4 = 0 := by
    rw [(Transfer.read.settings_serve a.device).2.2]
    exact hcount
  have hread := Transfer.read.interruptsEnabled_serve a.device
  have hwrite := Transfer.write.interruptsEnabled_serve (Transfer.read.serve a.device)
  have hwritten := passWrite_serve
    (a := ⟨Transfer.read.serve a.device, a.effects ++ a.device.report⟩) (hserved.congr hread)
    hcount'
  have hcommanded := passCommand_answers (m := m)
    (a := ⟨Transfer.write.serve (Transfer.read.serve a.device), a.effects ++ a.device.report⟩)
    (hserved.congr (hwrite.trans hread))
  simp only [pass, Action.bind_apply, passRead_serve hserved hcount, hwritten, hcommanded,
    Action.pure_apply]

end Pass

end Passes

section Progress

variable {t : Transfer} {h : Host δ} {memory : Memory} {b : Bench (Recorded δ)}
  {r : Recorded δ}

theorem Progress.answerCommand (hp : Progress t h memory b r) :
    Progress t h memory b.answerCommand r := by
  rw [Bench.answerCommand]
  split
  · exact ⟨hp.drive, hp.addr, hp.count, hp.enabled, hp.aligned, hp.within, hp.moved⟩
  · exact hp

variable [AtaDrive δ]

/-- A transfer for which a request waits is moved until it is finished or the drive asks for no
more. -/
theorem Progress.serve (hcount : h.dmaCount % 4 = 0) (hp : Progress t h memory b r)
    (hwaits : b.waits t = true) :
    ∃ r', Progress t h memory (t.serve b) r' ∧
      ((t.serve b).dmaDone = h.dmaCount ∨ AtaDrive.dataReady r' = false) := by
  obtain ⟨r', hdrained, hended⟩ := hp.drain hcount (hp.wordsLeft hcount)
  rw [Transfer.serve_of_waits hwaits, t.dmaDone_settle]
  exact ⟨r', hdrained.settle, hended⟩

/-- Once that is so, there is nothing to be moved for any transfer. -/
theorem Progress.serve_ended (hcount : h.dmaCount % 4 = 0) (hp : Progress t h memory b r)
    (hended : b.dmaDone = h.dmaCount ∨ AtaDrive.dataReady r = false) (t' : Transfer) :
    Progress t h memory (t'.serve b) r ∧ (t'.serve b).dmaDone = b.dmaDone := by
  have hstill : t'.drain b.wordsLeft b = b := by
    rcases hended with hdone | hready
    · have hnone : b.wordsLeft = 0 := by
        have hwords := hp.wordsLeft hcount
        rw [hdone] at hwords
        omega
      rw [hnone, t'.drain_zero]
    · exact t'.drain_of_not_ready _ hp.drive hready
  cases hwaits : b.waits t' with
  | false =>
    rw [Transfer.serve_of_not_waits hwaits]
    exact ⟨hp, rfl⟩
  | true =>
    rw [Transfer.serve_of_waits hwaits, hstill]
    exact ⟨hp.settle, t'.dmaDone_settle b⟩

/-- What a pass does for both transfers brings the current one forward. When everything is moved,
it takes back each request, also that of the other one. -/
theorem Progress.serve_both (hcount : h.dmaCount % 4 = 0)
    (hp : Progress b.current h memory b r) (hbusy : b.busy = true) :
    ∃ r', Progress b.current h memory (Transfer.write.serve (Transfer.read.serve b)) r' ∧
      ∀ t', (Transfer.write.serve (Transfer.read.serve b)).waits t' =
        (b.waits t' && (Transfer.write.serve (Transfer.read.serve b)).dmaDone ≠ h.dmaCount) := by
  have hwaits := (waits_current b.toHost).trans hbusy
  cases hread : b.readRequest with
  | true =>
    have hcurrent : b.current = .read := if_pos hread
    rw [hcurrent] at hp hwaits ⊢
    obtain ⟨r', hserved, hended⟩ := hp.serve hcount hwaits
    obtain ⟨hboth, hdone⟩ := hserved.serve_ended hcount hended .write
    refine ⟨r', hboth, fun t' => ?_⟩
    have hsame : (Transfer.write.serve (Transfer.read.serve b)).finished =
        (Transfer.read.serve b).finished := by
      rw [← Bool.not_inj_iff, hboth.not_finished, hserved.not_finished, hdone]
    rw [← hboth.not_finished, Transfer.waits_serve, Transfer.waits_serve, hsame]
    cases t' <;> simp
  | false =>
    have hcurrent : b.current = .write := if_neg (by rw [hread]; exact Bool.false_ne_true)
    have hskip : Transfer.read.serve b = b := Transfer.serve_of_not_waits hread
    rw [hcurrent] at hp hwaits ⊢
    obtain ⟨r', hserved, -⟩ := hp.serve hcount hwaits
    rw [hskip]
    refine ⟨r', hserved, fun t' => ?_⟩
    rw [← hserved.not_finished, Transfer.waits_serve]
    cases t' with
    | read => simp [Host.waits, hread]
    | write => simp

end Progress

end Digic.Cf
