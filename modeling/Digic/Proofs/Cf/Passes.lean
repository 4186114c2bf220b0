import Digic.Proofs.Cf.Transfer
/-!
# Passes one after the other

Firmware starts a transfer by a write, and passes bring it forward. Before each of them the drive
may change by itself.
-/
namespace Digic.Cf

open Bus

variable {δ : Type}

def Bench.changeDrive (change : δ → δ) (b : Bench δ) : Bench δ :=
  { b with drive := b.drive.map change }

def Transfer.start (t : Transfer) (h : Host δ) : Host δ :=
  match t with
  | .read => { h with dmaDone := 0, readRequest := true }
  | .write => { h with dmaDone := 0, writeRequest := true }

variable [AtaDrive δ]

/-- A pass after the drive changed by itself. Gives nothing if it ends in a fault. -/
def passAfter (m : Model) (change : δ → δ) (b : Bench δ) : Option (List UInt32 × Bench δ) :=
  match pass m ⟨b.changeDrive change, #[]⟩ with
  | .ok ids a => some (ids, a.device)
  | .error _ _ => none

/-- One pass for each change. Gives what each of them gives, in order. -/
def passes (m : Model) (b : Bench δ) : List (δ → δ) → Option (List (List UInt32) × Bench δ)
  | [] => some ([], b)
  | change :: changes => do
    let (ids, b) ← passAfter m change b
    let (others, b) ← passes m b changes
    return (ids :: others, b)

/-- The write of a DMA register, and passes after it. -/
def transfer (m : Model) (c : Context) (addr value : UInt32) (h : Host δ) (memory : Memory)
    (changes : List (δ → δ)) : Option (List (List UInt32) × Bench δ) :=
  match write c addr value ⟨h, #[]⟩ with
  | .ok _ a => passes m ⟨a.device, memory⟩ changes
  | .error _ _ => none

/-- One more pass at the end. -/
theorem passes_concat {m : Model} {b b' b'' : Bench δ} {changes : List (δ → δ)} {change : δ → δ}
    {ids : List (List UInt32)} {last : List UInt32} (h : passes m b changes = some (ids, b'))
    (hlast : passAfter m change b' = some (last, b'')) :
    passes m b (changes ++ [change]) = some (ids ++ [last], b'') := by
  induction changes generalizing b ids with
  | nil =>
    cases h
    simp [passes, hlast]
  | cons first changes ih =>
    rw [passes] at h
    rw [List.cons_append, passes]
    cases hfirst : passAfter m first b with
    | none =>
      rw [hfirst] at h
      cases h
    | some result =>
      obtain ⟨ids₁, b₁⟩ := result
      rw [hfirst] at h
      cases hrest : passes m b₁ changes with
      | none => simp [hrest] at h
      | some others =>
        obtain ⟨ids₂, b₂⟩ := others
        simp only [Option.bind_eq_bind, Option.bind_some, hrest] at h
        cases h
        simp [ih hrest]

/-- One more pass of a transfer. -/
theorem transfer_concat {m : Model} {c : Context} {addr value : UInt32} {h : Host δ}
    {memory : Memory} {b b' : Bench δ} {changes : List (δ → δ)} {change : δ → δ}
    {ids : List (List UInt32)} {last : List UInt32}
    (hrun : transfer m c addr value h memory changes = some (ids, b))
    (hlast : passAfter m change b = some (last, b')) :
    transfer m c addr value h memory (changes ++ [change]) = some (ids ++ [last], b') := by
  rw [transfer] at hrun ⊢
  cases hwrite : write c addr value ⟨h, #[]⟩ with
  | ok x a =>
    rw [hwrite] at hrun
    exact passes_concat hrun hlast
  | error e a =>
    rw [hwrite] at hrun
    cases hrun

theorem passAfter_of_idle (t : Transfer) {m : Model} {b : Bench δ} (change : δ → δ)
    (h : b.requests = t.requests false) :
    passAfter m change b = some ([], b.changeDrive change) := by
  have hpass := pass_apply_of_idle (m := m) t (a := ⟨b.changeDrive change, #[]⟩) h
  rw [passAfter, hpass]

theorem passAfter_of_pending (t : Transfer) {m : Model} (hdriver : m.cfDriverInterrupt ≠ 0)
    (hdma : m.cfDmaInterrupt ≠ 0) {b : Bench δ} (change : δ → δ)
    (h : b.requests = t.requests true) (hcount : b.dmaCount % 4 = 0) :
    passAfter m change b =
      some ((t.drain b.wordsLeft (b.changeDrive change)).gives m,
        t.settle (t.drain b.wordsLeft (b.changeDrive change))) := by
  obtain ⟨effects, hpass⟩ := pass_apply_of_pending (m := m) t hdriver hdma
    (a := ⟨b.changeDrive change, #[]⟩) h hcount
  rw [passAfter, hpass]
  rfl

theorem write_start (t : Transfer) {c : Context} (hwindow : c.window.kind = .cfDma)
    {addr value : UInt32} (haddr : addr &&& 0x1F = 0x10) (hvalue : value ∈ t.commands)
    {h : Host δ} (hdrive : h.drive.isSome) :
    ∃ effects, write c addr value ⟨h, #[]⟩ = .ok () ⟨t.start h, effects⟩ := by
  have hregister : DmaRegister.ofAddress addr = .command := by
    rw [DmaRegister.ofAddress, haddr]
    rfl
  have htraced : isTraced c addr = true := by simp [isTraced, hwindow]
  have hrequire : requireDrive value ⟨h, #[]⟩ = .ok () ⟨h, #[]⟩ := by
    rw [requireDrive, Action.bind_apply, Action.device_apply]
    exact Action.require_apply hdrive _ _
  have hstart : ∃ remark, startDma value ⟨h, #[]⟩ = .ok remark ⟨t.start h, #[]⟩ := by
    cases t with
    | read =>
      have hcommand : DmaCommand.ofValue value = .startRead := by
        have hvalue' : value = 0x39 ∨ value = 0x21 := by simpa [Transfer.commands] using hvalue
        rcases hvalue' with rfl | rfl <;> rfl
      refine ⟨"DMA read start", ?_⟩
      simp only [startDma, hcommand, Action.bind_apply, hrequire, Action.update_apply,
        Action.pure_apply, Transfer.start]
    | write =>
      have hcommand : DmaCommand.ofValue value = .startWrite := by
        rw [List.mem_singleton.1 hvalue]
        rfl
      refine ⟨"DMA write start", ?_⟩
      simp only [startDma, hcommand, Action.bind_apply, hrequire, Action.update_apply,
        Action.pure_apply, Transfer.start]
  obtain ⟨remark, hstart⟩ := hstart
  refine ⟨#[.note (.access ⟨c.window.name, c.pc, addr, .write, value, remark⟩)], ?_⟩
  rw [write, hwindow]
  simp only [hregister, setDmaRegister, Action.bind_apply, hstart, htraced, if_true]
  rfl

end Digic.Cf
