import Digic.Proofs.Bus.Bounds
import Digic.Proofs.Bus.Flag
import Digic.Proofs.Cf.Exact
import Digic.Proofs.Cf.Serving
/-!
# The interrupt of a command

A command that is given while the drive is told to give interrupts leaves one pending. It stays so
until firmware reads the status, or until a pass gives it to firmware that wants the driver's
interrupt and no other. Nothing else that happens to the host has a part in it.
-/
namespace Digic.Cf

open Bus

variable {δ : Type}

inductive Occurrence (δ : Type) where
  | read (c : Context) (addr : UInt32)
  | write (c : Context) (addr value : UInt32)
  | pass
  /-- The drive is changed or exchanged, and memory is written. -/
  | outside (drive : Option δ) (memory : Memory)

/-- The two places of the register for command and status. -/
def statusPlaces : List UInt32 := [0x21F7, 0x2007]

/-- The two places of the register for device control and alternate status. -/
def controlPlaces : List UInt32 := [0x23F6, 0x200E]

def Reaches (c : Context) (addr : UInt32) (places : List UInt32) : Prop :=
  c.window.kind ≠ .cfDma ∧ addr &&& 0xFFFF ∈ places

instance (c : Context) (addr : UInt32) (places : List UInt32) : Decidable (Reaches c addr places) :=
  inferInstanceAs (Decidable (_ ∧ _))

namespace Occurrence

def IsCommand : Occurrence δ → Prop
  | write c addr _ => Reaches c addr statusPlaces
  | _ => False

def control? : Occurrence δ → Option UInt32
  | write c addr value => if Reaches c addr controlPlaces then some value else none
  | _ => none

def lastControl? (earlier : List (Occurrence δ)) : Option UInt32 :=
  (earlier.filterMap control?).getLast?

/-- A command that is given when device control tells the drive to give interrupts. -/
def Asks (earlier : List (Occurrence δ)) (o : Occurrence δ) : Prop :=
  o.IsCommand ∧ ∃ value, lastControl? earlier = some value ∧ value &&& 2 = 0

/-- A read of the status, or a pass while firmware wants the driver's interrupt and no other. -/
def Answers (h : Host δ) : Occurrence δ → Prop
  | read c addr => Reaches c addr statusPlaces
  | pass => h.interruptsEnabled = 1
  | _ => False

/-- Firmware sets up transfers of whole words only. -/
def WholeWords : Occurrence δ → Prop
  | write c addr value => c.window.kind = .cfDma → addr &&& 0x1F = 4 → value % 4 = 0
  | _ => True

end Occurrence

/-- What decides about the interrupt of a command is as it was. -/
structure Host.Steady (h h' : Host δ) : Prop where
  pending : h'.commandPending = h.commandPending
  drive : h'.driveInterrupts = h.driveInterrupts
  enabled : h'.interruptsEnabled = h.interruptsEnabled
  count : h'.dmaCount = h.dmaCount

theorem Host.Steady.refl (h : Host δ) : h.Steady h := ⟨rfl, rfl, rfl, rfl⟩

theorem Host.Steady.trans {h h' h'' : Host δ} (h₁ : h.Steady h') (h₂ : h'.Steady h'') :
    h.Steady h'' :=
  ⟨h₂.pending.trans h₁.pending, h₂.drive.trans h₁.drive, h₂.enabled.trans h₁.enabled,
    h₂.count.trans h₁.count⟩

theorem ofAddress_eq_status_iff (addr : UInt32) :
    Register.ofAddress addr = .taskFile statusRegister ↔ addr &&& 0xFFFF ∈ statusPlaces := by
  have hlow : (addr &&& 0xFFFF &&& 0xF).toNat = (addr &&& 0xFFFF).toNat % 0x10 :=
    toNat_and_sub_one (by decide : isPowerOfTwo 0x10 = true) _
  simp only [statusPlaces, List.mem_cons, List.not_mem_nil, or_false]
  constructor
  · intro h
    unfold Register.ofAddress at h
    dsimp only at h
    split_ifs at h with hready henable hstatus hdata hfile hcontrol
    have hnumber := congrArg UInt8.toNat (Register.taskFile.inj h)
    rw [UInt32.toNat_toUInt8, hlow] at hnumber
    simp only [UInt32.le_iff_toNat_le, UInt32.toNat_ofNat, statusRegister, UInt8.toNat_ofNat]
      at hfile hnumber
    simp only [← UInt32.toNat_inj, UInt32.toNat_ofNat]
    omega
  · rintro (h | h) <;> simp only [Register.ofAddress, h] <;> decide

theorem ofAddress_eq_control_iff (addr : UInt32) :
    Register.ofAddress addr = .deviceControl ↔ addr &&& 0xFFFF ∈ controlPlaces := by
  simp only [controlPlaces, List.mem_cons, List.not_mem_nil, or_false]
  constructor
  · intro h
    unfold Register.ofAddress at h
    dsimp only at h
    split_ifs at h with hready henable hstatus hdata hfile hcontrol
    exact hcontrol
  · rintro (h | h) <;> simp only [Register.ofAddress, h] <;> decide

theorem ofAddress_eq_count_iff (addr : UInt32) :
    DmaRegister.ofAddress addr = .count ↔ addr &&& 0x1F = 4 := by
  unfold DmaRegister.ofAddress
  split <;> simp_all

theorem keeps_startDma (h : Host δ) (value : UInt32) : (startDma value).Keeps h.Steady := by
  have hrequire : (requireDrive value).Keeps h.Steady := .device_bind fun _ _ => .require _ _
  unfold startDma
  split
  · exact .bind hrequire fun _ => .bind
      (.update fun _ hs => ⟨hs.pending, hs.drive, hs.enabled, hs.count⟩) fun _ => .pure _
  · exact .bind hrequire fun _ => .bind
      (.update fun _ hs => ⟨hs.pending, hs.drive, hs.enabled, hs.count⟩) fun _ => .pure _
  · exact .pure _

theorem device_setDmaRegister (value : UInt32) (r : DmaRegister) (s : Acting (Host δ)) :
    let h' := (stateAfter (setDmaRegister value r) s).device
    h'.commandPending = s.device.commandPending ∧ h'.driveInterrupts = s.device.driveInterrupts ∧
      h'.dmaCount = if r = .count then value else s.device.dmaCount := by
  cases r with
  | command =>
    have hsteady := keeps_startDma s.device value s (.refl _)
    exact ⟨hsteady.pending, hsteady.drive, hsteady.count⟩
  | addr | count | status | other =>
    simp [-bind_pure_comp, stateAfter, setDmaRegister, Action.bind_apply, Action.update_apply,
      Action.pure_apply]

variable [AtaDrive δ]

omit [AtaDrive δ] in
theorem readDrive_apply (f : δ → UInt32 × δ) (s : Acting (Host δ)) :
    ∃ value drive, readDrive f s = .ok value ⟨{ s.device with drive }, s.effects⟩ := by
  cases hdrive : s.device.drive with
  | none =>
    refine ⟨0, none, ?_⟩
    simp only [readDrive, Action.bind_apply, Action.device_apply, hdrive, Action.pure_apply]
    rw [← hdrive]
  | some drive =>
    refine ⟨(f drive).1, some (f drive).2, ?_⟩
    simp only [readDrive, Action.bind_apply, Action.device_apply, hdrive, Action.update_apply,
      Action.pure_apply]

/-- A read changes the drive alone, and takes back the interrupt of a command if it is one of the
status. -/
theorem device_getRegister (r : Register) (s : Acting (Host δ)) : ∃ drive,
    (stateAfter (getRegister r) s).device =
      { s.device with
        drive
        commandPending := s.device.commandPending && r ≠ .taskFile statusRegister } := by
  cases r with
  | data =>
    obtain ⟨value, drive, hread⟩ := readDrive_apply (fun drive : δ =>
      ((AtaDrive.readData16 drive).1.toUInt32, (AtaDrive.readData16 drive).2)) s
    refine ⟨drive, ?_⟩
    simp [-bind_pure_comp, stateAfter, getRegister, Action.bind_apply, hread, Action.pure_apply]
  | taskFile n =>
    obtain ⟨value, drive, hread⟩ := readDrive_apply (fun drive : δ =>
      ((AtaDrive.readRegister drive n).1.toUInt32, (AtaDrive.readRegister drive n).2)) s
    refine ⟨drive, ?_⟩
    by_cases hn : n = statusRegister
    · subst hn
      simp [-bind_pure_comp, stateAfter, getRegister, Action.bind_apply, hread,
        Action.update_apply, Action.pure_apply]
    · simp [-bind_pure_comp, stateAfter, getRegister, Action.bind_apply, hread, hn,
        Action.pure_apply]
  | dmaReady | interruptEnable | interruptStatus | deviceControl | other =>
    refine ⟨s.device.drive, ?_⟩
    simp [-bind_pure_comp, stateAfter, getRegister, Action.bind_apply, Action.device_apply,
      Action.pure_apply]

theorem device_setRegister (value : UInt32) (r : Register) (s : Acting (Host δ)) :
    let h' := (stateAfter (setRegister value r) s).device
    h'.commandPending = (s.device.commandPending ||
        r = .taskFile statusRegister && s.device.driveInterrupts) ∧
      h'.driveInterrupts =
        (if r = .deviceControl then value &&& 2 == 0 else s.device.driveInterrupts) ∧
      h'.dmaCount = s.device.dmaCount := by
  cases r with
  | taskFile n =>
    by_cases hn : n = statusRegister <;>
      simp [-bind_pure_comp, stateAfter, setRegister, updateDrive, Action.bind_apply,
        Action.update_apply, Action.pure_apply, hn]
  | dmaReady | interruptEnable | interruptStatus | data | deviceControl | other =>
    simp [-bind_pure_comp, stateAfter, setRegister, updateDrive, Action.bind_apply,
      Action.update_apply, Action.pure_apply]

/-- An access changes the host as the register does that it reaches. -/
theorem device_read (c : Context) (addr : UInt32) (s : Acting (Host δ)) :
    (stateAfter (read c addr) s).device =
      if c.window.kind = .cfDma then (stateAfter (getDmaRegister (.ofAddress addr)) s).device
      else (stateAfter (getRegister (.ofAddress addr)) s).device := by
  unfold read
  dsimp only
  split
  · next hkind =>
    rw [if_pos hkind]
    refine Action.device_stateAfter_bind (fun ⟨value, remark⟩ t => ?_) s
    split <;> rfl
  · next hkind =>
    rw [if_neg hkind]
    refine Action.device_stateAfter_bind (fun ⟨value, remark⟩ t => ?_) s
    split <;> rfl

theorem device_write (c : Context) (addr value : UInt32) (s : Acting (Host δ)) :
    (stateAfter (write c addr value) s).device =
      if c.window.kind = .cfDma then (stateAfter (setDmaRegister value (.ofAddress addr)) s).device
      else (stateAfter (setRegister value (.ofAddress addr)) s).device := by
  unfold write
  dsimp only
  split
  · next hkind =>
    rw [if_pos hkind]
    refine Action.device_stateAfter_bind (fun remark t => ?_) s
    split <;> rfl
  · next hkind =>
    rw [if_neg hkind]
    refine Action.device_stateAfter_bind (fun remark t => ?_) s
    split <;> rfl

theorem reaches_status_iff {c : Context} (hkind : c.window.kind ≠ .cfDma) (addr : UInt32) :
    Reaches c addr statusPlaces ↔ Register.ofAddress addr = .taskFile statusRegister :=
  (and_iff_right hkind).trans (ofAddress_eq_status_iff addr).symm

theorem reaches_control_iff {c : Context} (hkind : c.window.kind ≠ .cfDma) (addr : UInt32) :
    Reaches c addr controlPlaces ↔ Register.ofAddress addr = .deviceControl :=
  (and_iff_right hkind).trans (ofAddress_eq_control_iff addr).symm

theorem flags_read (c : Context) (addr : UInt32) (h : Host δ) :
    let h' := (stateAfter (read c addr) ⟨h, #[]⟩).device
    h'.commandPending = (h.commandPending && ¬ Reaches c addr statusPlaces) ∧
      h'.driveInterrupts = h.driveInterrupts ∧ h'.dmaCount = h.dmaCount := by
  rw [device_read]
  by_cases hkind : c.window.kind = .cfDma
  · have hnot : ¬ Reaches c addr statusPlaces := fun hreaches => hreaches.1 hkind
    have hsame : (stateAfter (getDmaRegister (.ofAddress addr)) ⟨h, #[]⟩).device = h := rfl
    simp [hkind, hnot, hsame]
  · obtain ⟨drive, hread⟩ := device_getRegister (.ofAddress addr) ⟨h, #[]⟩
    simp [hkind, hread, reaches_status_iff hkind]

theorem flags_write (c : Context) (addr value : UInt32) (h : Host δ) :
    let h' := (stateAfter (write c addr value) ⟨h, #[]⟩).device
    h'.commandPending =
        (h.commandPending || Reaches c addr statusPlaces && h.driveInterrupts) ∧
      h'.driveInterrupts =
        (if Reaches c addr controlPlaces then value &&& 2 == 0 else h.driveInterrupts) ∧
      h'.dmaCount =
        if c.window.kind = .cfDma ∧ addr &&& 0x1F = 4 then value else h.dmaCount := by
  rw [device_write]
  by_cases hkind : c.window.kind = .cfDma
  · have hnot (places : List UInt32) : ¬ Reaches c addr places := fun h => h.1 hkind
    simpa [hkind, hnot, ofAddress_eq_count_iff] using
      device_setDmaRegister value (.ofAddress addr) ⟨h, #[]⟩
  · simpa [hkind, reaches_status_iff hkind, reaches_control_iff hkind] using
      device_setRegister value (.ofAddress addr) ⟨h, #[]⟩

variable {m : Model}

theorem steady_drain (t : Transfer) (n : Nat) {h : Host δ} {b : Bench δ} (hb : h.Steady b.toHost) :
    h.Steady (t.drain n b).toHost := by
  refine t.drain_induction (P := fun b => h.Steady b.toHost) n ?_ hb
  intro b drive hdrive hb
  cases t <;> exact ⟨hb.pending, hb.drive, hb.enabled, hb.count⟩

omit [AtaDrive δ] in
theorem keeps_completionInterrupts (h : Host δ) :
    (completionInterrupts m).Keeps fun b : Bench δ => h.Steady b.toHost :=
  .device_bind fun _ _ => .bind (.require _ _) fun _ => .bind (.require _ _) fun _ => .pure _

omit [AtaDrive δ] in
theorem keeps_requireWords (h : Host δ) :
    requireWords.Keeps fun b : Bench δ => h.Steady b.toHost :=
  .device_bind fun _ _ => .require _ _

omit [AtaDrive δ] in
theorem steady_setRequest (t : Transfer) (pending : Bool) {h : Host δ} {b : Bench δ}
    (hb : h.Steady b.toHost) : h.Steady (t.setRequest pending b).toHost := by
  cases t <;> exact ⟨hb.pending, hb.drive, hb.enabled, hb.count⟩

omit [AtaDrive δ] in
/-- How a pass ends for a transfer, which may be complete by then. -/
theorem keeps_completion (t : Transfer) (h : Host δ) :
    (do
      if (← Action.device).finished then
        Action.update (t.setRequest false)
        completionInterrupts m
      else return [] : Action (Bench δ) (List UInt32)).Keeps
        fun b : Bench δ => h.Steady b.toHost := by
  refine .device_bind fun b _ => ?_
  split
  · exact .bind (.update fun _ => steady_setRequest t false) fun _ => keeps_completionInterrupts h
  · exact .pure _

/-- A transfer that is brought forward, completed or refused has no part in the interrupt of a
command. -/
theorem keeps_passRead (h : Host δ) :
    (passRead m).Keeps fun b : Bench δ => h.Steady b.toHost := by
  refine .device_bind fun b _ => ?_
  split
  · exact .bind (keeps_requireWords h) fun _ => .bind (.note _) fun _ =>
      .bind (.update fun b => steady_drain .read b.wordsLeft) fun _ => keeps_completion .read h
  · exact .pure _

theorem keeps_passWrite (h : Host δ) :
    (passWrite m).Keeps fun b : Bench δ => h.Steady b.toHost := by
  refine .device_bind fun b _ => ?_
  split
  · exact .bind (keeps_requireWords h) fun _ =>
      .bind (.update fun b => steady_drain .write b.wordsLeft) fun _ => keeps_completion .write h
  · exact .pure _

/-- A pass has no part in the interrupt of a command if firmware wants others or none. -/
theorem keeps_pass {h : Host δ} (hother : h.interruptsEnabled ≠ 1) :
    (pass m).Keeps fun b : Bench δ => h.Steady b.toHost := by
  refine .bind (keeps_passRead h) fun _ => .bind (keeps_passWrite h) fun _ =>
    .bind (.device_bind fun b hb => ?_) fun _ => .pure _
  have hnot : ¬ (b.commandPending = true ∧ b.interruptsEnabled = 1) :=
    fun hwants => hother (hb.enabled.symm.trans hwants.2)
  rw [if_neg hnot]
  exact .pure _

theorem steady_serve (t : Transfer) (b : Bench δ) : b.toHost.Steady (t.serve b).toHost := by
  have hdrain := steady_drain t b.wordsLeft (.refl b.toHost)
  unfold Transfer.serve Transfer.settle
  split
  · split
    · exact steady_setRequest t false hdrain
    · exact hdrain
  · exact .refl _

omit [AtaDrive δ] in
/-- The enable bit of the driver alone asks for no other interrupt. -/
theorem Host.served_of_driver (hdriver : m.cfDriverInterrupt ≠ 0) {h : Host δ}
    (henabled : h.interruptsEnabled = 1) : h.Served m where
  driver _ := hdriver
  dma hdma := absurd (by rw [henabled]; decide) hdma

def Bench.setPending (pending : Bool) (b : Bench δ) : Bench δ :=
  { b with commandPending := pending }

/-- What is done for a transfer does not depend on the interrupt of a command. -/
theorem drain_setPending (t : Transfer) (n : Nat) (pending : Bool) (b : Bench δ) :
    t.drain n (b.setPending pending) = (t.drain n b).setPending pending := by
  refine t.drain_map (f := Bench.setPending pending) (g := id) ?_ (fun _ => rfl) ?_ n b
  · intro b
    exact Option.map_id.symm ▸ rfl
  · intro b drive
    cases t <;> rfl

omit [AtaDrive δ] in
theorem waits_setPending (t : Transfer) (pending : Bool) (b : Bench δ) :
    (b.setPending pending).waits t = b.waits t := by
  cases t <;> rfl

omit [AtaDrive δ] in
theorem settle_setPending (t : Transfer) (pending : Bool) (b : Bench δ) :
    t.settle (b.setPending pending) = (t.settle b).setPending pending := by
  have hfinished : (b.setPending pending).finished = b.finished := rfl
  rw [Transfer.settle, Transfer.settle, hfinished]
  split
  · cases t <;> rfl
  · rfl

omit [AtaDrive δ] in
theorem wordsLeft_setPending (pending : Bool) (b : Bench δ) :
    (b.setPending pending).wordsLeft = b.wordsLeft := rfl

theorem serve_setPending (t : Transfer) (pending : Bool) (b : Bench δ) :
    t.serve (b.setPending pending) = (t.serve b).setPending pending := by
  rw [Transfer.serve, Transfer.serve, waits_setPending, wordsLeft_setPending, drain_setPending,
    settle_setPending]
  split <;> rfl

theorem dues_setPending (t : Transfer) (pending : Bool) (b : Bench δ) :
    t.dues m (b.setPending pending) = t.dues m b := by
  rw [Transfer.dues, waits_setPending, wordsLeft_setPending, drain_setPending]
  rfl

omit [AtaDrive δ] in
/-- Once a pass has answered firmware that wants the driver's interrupt alone, none is pending. -/
theorem answerCommand_eq {b : Bench δ} (henabled : b.interruptsEnabled = 1) :
    b.answerCommand = b.setPending false := by
  unfold Bench.answerCommand
  split
  · rfl
  · next hnot =>
    have hdown : b.commandPending = false := by simpa [henabled] using hnot
    rw [Bench.setPending, ← hdown]

/-- The bench at the end of a pass, but for the interrupt of a command. -/
def Bench.served (b : Bench δ) : Bench δ := Transfer.write.serve (Transfer.read.serve b)

theorem steady_served (b : Bench δ) : b.toHost.Steady b.served.toHost :=
  (steady_serve .read b).trans (steady_serve .write _)

/-- While firmware wants the driver's interrupt alone, a pass ends well and answers a command. -/
theorem pass_answers (hdriver : m.cfDriverInterrupt ≠ 0) {b : Bench δ}
    (henabled : b.interruptsEnabled = 1) (hcount : b.dmaCount % 4 = 0) :
    pass m ⟨b, #[]⟩ = .ok
      (Transfer.read.dues m b ++ Transfer.write.dues m (Transfer.read.serve b) ++
        if b.commandPending then [m.cfDriverInterrupt] else [])
      ⟨b.served.setPending false, b.report⟩ := by
  have hsteady := steady_served b
  have henabled' : b.served.interruptsEnabled = 1 := hsteady.enabled.trans henabled
  have hdues : b.served.commandDues m =
      if b.commandPending then [m.cfDriverInterrupt] else [] := by
    have hone : completions m 1 = [m.cfDriverInterrupt] := rfl
    simp [Bench.commandDues, henabled', hsteady.pending, hone]
  have hpass := pass_serves (a := ⟨b, #[]⟩) (Host.served_of_driver hdriver henabled) hcount
  rw [hpass]
  dsimp only
  rw [← hdues, ← answerCommand_eq henabled', Array.empty_append]
  rfl

/-- What a pass gives for a command comes after all else that it gives, and is the driver's
interrupt once. -/
theorem pass_requests_once (hdriver : m.cfDriverInterrupt ≠ 0) {b : Bench δ}
    (henabled : b.interruptsEnabled = 1) (hcount : b.dmaCount % 4 = 0)
    (hpending : b.commandPending = true) :
    ∃ ids b' effects, pass m ⟨b.setPending false, #[]⟩ = .ok ids ⟨b', effects⟩ ∧
      pass m ⟨b, #[]⟩ = .ok (ids ++ [m.cfDriverInterrupt]) ⟨b', effects⟩ := by
  have hdown := pass_answers (b := b.setPending false) hdriver henabled hcount
  have hserved : (b.setPending false).served.setPending false = b.served.setPending false := by
    rw [Bench.served, serve_setPending, serve_setPending]
    rfl
  have hnone : (if (b.setPending false).commandPending then [m.cfDriverInterrupt] else []) = [] :=
    rfl
  rw [dues_setPending, serve_setPending, dues_setPending, hnone, List.append_nil, hserved] at hdown
  refine ⟨_, _, _, hdown, ?_⟩
  rw [pass_answers hdriver henabled hcount, if_pos hpending]
  rfl

/-- The bench after something happened, also after an access or a pass that ends in a fault. -/
def Bench.occur (m : Model) (b : Bench δ) : Occurrence δ → Bench δ
  | .read c addr => ⟨(stateAfter (read c addr) ⟨b.toHost, #[]⟩).device, b.memory⟩
  | .write c addr value => ⟨(stateAfter (write c addr value) ⟨b.toHost, #[]⟩).device, b.memory⟩
  | .pass => (stateAfter (pass m) ⟨b, #[]⟩).device
  | .outside drive memory => ⟨{ b.toHost with drive }, memory⟩

/-- The bench after all that happened, from a new host on. -/
def Bench.course (m : Model) (memory : Memory) (os : List (Occurrence δ)) : Bench δ :=
  os.foldl (Bench.occur m) ⟨.new, memory⟩

theorem course_concat (memory : Memory) (os : List (Occurrence δ)) (o : Occurrence δ) :
    Bench.course m memory (os ++ [o]) = (Bench.course m memory os).occur m o := by
  simp [Bench.course]

/-- What becomes of the flag of a command, and of what decides about it. -/
structure Bench.Flags (b b' : Bench δ) (o : Occurrence δ) : Prop where
  pending : b'.commandPending = true ↔
    o.IsCommand ∧ b.driveInterrupts = true ∨ b.commandPending = true ∧ ¬ o.Answers b.toHost
  drive : b'.driveInterrupts = (o.control?.map (· &&& 2 == 0)).getD b.driveInterrupts
  count : o.WholeWords → b'.dmaCount % 4 = 0

theorem flags_occur (hdriver : m.cfDriverInterrupt ≠ 0) {b : Bench δ} (hcount : b.dmaCount % 4 = 0)
    (o : Occurrence δ) : b.Flags (b.occur m o) o := by
  cases o with
  | read c addr =>
    obtain ⟨hpending, hdrive, hkept⟩ := flags_read c addr b.toHost
    refine ⟨?_, hdrive, fun _ => hkept ▸ hcount⟩
    rw [Bench.occur, hpending]
    simp [Occurrence.IsCommand, Occurrence.Answers]
  | write c addr value =>
    obtain ⟨hpending, hdrive, hset⟩ := flags_write c addr value b.toHost
    refine ⟨?_, ?_, ?_⟩
    · rw [Bench.occur, hpending]
      simp [Occurrence.IsCommand, Occurrence.Answers, or_comm]
    · rw [Bench.occur, hdrive, Occurrence.control?]
      split <;> rfl
    · intro hwords
      rw [Bench.occur, hset]
      split
      · next h => exact hwords h.1 h.2
      · exact hcount
  | pass =>
    -- A pass that answers ends well. Any other may end in a fault, but keeps the flags up to there.
    by_cases henabled : b.interruptsEnabled = 1
    · have hsteady := steady_served b
      have hdevice : b.occur m .pass = b.served.setPending false := by
        rw [Bench.occur, stateAfter, pass_answers hdriver henabled hcount]
      rw [hdevice]
      refine ⟨?_, hsteady.drive, fun _ => hsteady.count ▸ hcount⟩
      simp [Bench.setPending, Occurrence.IsCommand, Occurrence.Answers, henabled]
    · have hsteady := keeps_pass (m := m) henabled ⟨b, #[]⟩ (.refl b.toHost)
      refine ⟨?_, hsteady.drive, fun _ => hsteady.count ▸ hcount⟩
      rw [Bench.occur, hsteady.pending]
      simp [Occurrence.IsCommand, Occurrence.Answers, henabled]
  | outside drive memory =>
    refine ⟨?_, rfl, fun _ => hcount⟩
    simp [Bench.occur, Occurrence.IsCommand, Occurrence.Answers]

variable (memory : Memory) {os : List (Occurrence δ)}

theorem count_course (hdriver : m.cfDriverInterrupt ≠ 0) (hwords : ∀ o ∈ os, o.WholeWords) :
    (Bench.course m memory os).dmaCount % 4 = 0 := by
  induction os using List.reverseRecOn with
  | nil => rfl
  | append_singleton os o ih =>
    rw [List.forall_mem_append, List.forall_mem_singleton] at hwords
    rw [course_concat]
    exact (flags_occur hdriver (ih hwords.1) o).count hwords.2

/-- What the drive was told is what was last written to device control. -/
theorem driveInterrupts_course (hdriver : m.cfDriverInterrupt ≠ 0)
    (hwords : ∀ o ∈ os, o.WholeWords) :
    (Bench.course m memory os).driveInterrupts = true ↔
      ∃ value, Occurrence.lastControl? os = some value ∧ value &&& 2 = 0 := by
  induction os using List.reverseRecOn with
  | nil => simp [Bench.course, Host.new, Occurrence.lastControl?]
  | append_singleton os o ih =>
    rw [List.forall_mem_append, List.forall_mem_singleton] at hwords
    rw [course_concat, (flags_occur hdriver (count_course memory hdriver hwords.1) o).drive]
    cases hcontrol : o.control? with
    | none => simpa [Occurrence.lastControl?, hcontrol] using ih hwords.1
    | some value => simp [Occurrence.lastControl?, hcontrol]

/-- Firmware reads and writes registers, and passes are made, in any order, from a new host on. The
drive, memory and the place of each access may be any, but transfers are of whole words. Then

* the interrupt of a command is pending exactly if a command was given when the value last written
  to device control told the drive to give interrupts, and after the last such command the status
  was not read and no pass was made while firmware wanted the driver's interrupt and no other,
* nothing changes that but a command, a read of the status and such a pass,
* a pass that takes the interrupt back gives the driver's interrupt for it once, and does otherwise
  what it would do if none were pending. -/
theorem command_interrupt_pending (hdriver : m.cfDriverInterrupt ≠ 0)
    (hwords : ∀ o ∈ os, o.WholeWords) :
    let b := Bench.course m memory os
    (b.commandPending = true ↔ RaisedLast Occurrence.Asks
      (fun earlier o => o.Answers (Bench.course m memory earlier).toHost) os) ∧
    (∀ o : Occurrence δ, ¬ o.IsCommand → ¬ o.Answers b.toHost →
      (b.occur m o).commandPending = b.commandPending) ∧
    (b.commandPending = true → (b.occur m .pass).commandPending = false →
      ∃ ids b' effects, pass m ⟨{ b with commandPending := false }, #[]⟩ = .ok ids ⟨b', effects⟩ ∧
        pass m ⟨b, #[]⟩ = .ok (ids ++ [m.cfDriverInterrupt]) ⟨b', effects⟩) := by
  intro b
  have hflags := flags_occur hdriver (count_course memory hdriver hwords)
  refine ⟨?_, ?_, ?_⟩
  · refine up_iff_raisedLast (fun os => (Bench.course m memory os).commandPending = true)
      (by simp [Bench.course, Host.new]) ?_
    intro before o hbefore
    have hwords' : ∀ o ∈ before, o.WholeWords := fun o ho =>
      hwords o (hbefore.subset (List.mem_append_left [_] ho))
    rw [course_concat, (flags_occur hdriver (count_course memory hdriver hwords') o).pending,
      driveInterrupts_course memory hdriver hwords']
    rfl
  · intro o hcommand hanswers
    rw [Bool.eq_iff_iff, (hflags o).pending]
    simp [hcommand, hanswers, b]
  · intro hpending hcleared
    have henabled : b.interruptsEnabled = 1 := by
      by_contra hother
      have hstill := (hflags .pass).pending.2 (.inr ⟨hpending, hother⟩)
      exact Bool.false_ne_true (hcleared.symm.trans hstill)
    exact pass_requests_once hdriver henabled (count_course memory hdriver hwords) hpending

/-- The first command is given too early. The second one stays pending while the alternate status is
read and the drive is told to give no more interrupts. -/
theorem command_interrupt_pending_second :
    let c : Context := ⟨⟨"CFATA0", .cfAta, 0⟩, 0, .standard⟩
    let os : List (Occurrence Counter) := [.write c 0xC06221F7 0xEC, .write c 0xC062200E 0,
      .write c 0xC0622007 0xEC, .read c 0xC06223F6, .write c 0xC06223F6 2, .write c 0xC0628040 1]
    let b := Bench.course .standard (.blank 0) os
    (Model.standard.cfDriverInterrupt ≠ 0 ∧ ∀ o ∈ os, o.WholeWords) ∧
      RaisedLast Occurrence.Asks
        (fun earlier o => o.Answers (Bench.course .standard (.blank 0) earlier).toHost) os ∧
      ∃ ids b' effects, pass .standard ⟨{ b with commandPending := false }, #[]⟩ =
          .ok ids ⟨b', effects⟩ ∧
        pass .standard ⟨b, #[]⟩ = .ok (ids ++ [0x82]) ⟨b', effects⟩ := by
  intro c os b
  have hdriver : Model.standard.cfDriverInterrupt ≠ 0 := by decide
  have hwords : ∀ o ∈ os, o.WholeWords := by
    simp [os, Occurrence.WholeWords, c]
  have hpending : b.commandPending = true := by decide +kernel
  have hcleared : (b.occur .standard .pass).commandPending = false := by decide +kernel
  obtain ⟨hlast, -, honce⟩ := command_interrupt_pending (.blank 0) hdriver hwords
  exact ⟨⟨hdriver, hwords⟩, hlast.1 hpending, honce hpending hcleared⟩

end Digic.Cf
