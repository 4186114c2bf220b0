import Digic.Proofs.Flash.Banks
/-!
# The busy phase of a block erase

After a block erase a bank shows that it is busy, sixteen times to whoever reads it and one time more
that it is done. Only its own reads count. What is written to it is lost, whichever command it may
belong to, and the other bank is another matter.
-/
namespace Digic.Flash

open Bus

def Access.reads (n : Nat) : Access → Bool
  | .read c _ => c.window.param.toNat == n
  | .write .. => false

def readCount (n : Nat) (accesses : List Access) : Nat := accesses.countP (Access.reads n)

/-- The status that read `k` after a block erase gives, counted from 1. -/
def eraseStatus (k : Nat) : UInt32 := if k ≤ 16 then if k % 2 = 1 then 0x44 else 0 else 0x80

/-- A bank that was read `k` times since a block of it was erased. -/
def Bank.busyAfter (erased : Bank) (k : Nat) : Bank :=
  { erased with state := .eraseBusy, statusReads := k }

variable {n : Fin 2} {erased : Bank} {k : Nat} {f : Banks}

theorem bank_take (hcommands : f.commands = true) (a : Access) (n : Fin 2) :
    (f.take a).bank n = if a.number = n then (f.bank n).take a else f.bank n :=
  getElem_take hcommands a n

theorem Bank.command_busyAfter (erased : Bank) (k : Nat) (offset value : UInt32) :
    (erased.busyAfter k).command offset value = erased.busyAfter k := rfl

theorem Bank.answer_busyAfter (erased : Bank) (hk : k < 16) (offset : UInt32) :
    (erased.busyAfter k).answer offset = (some (eraseStatus (k + 1)), erased.busyAfter (k + 1)) := by
  have hle : k + 1 ≤ 16 := hk
  rw [eraseStatus, if_pos hle]
  exact if_pos hk

theorem Bank.answer_busyAfter_last (erased : Bank) (offset : UInt32) :
    (erased.busyAfter 16).answer offset =
      (some (eraseStatus 17), { erased with state := .ready, statusReads := 16 }) := rfl

/-- Both banks, of which bank `n` was read `k` times since a block of it was erased. -/
structure Busy (n : Fin 2) (erased : Bank) (k : Nat) (f : Banks) : Prop where
  commands : f.commands = true
  bank : f.bank n = erased.busyAfter k

/-- An access counts if it is a read of the bank, and changes nothing of it otherwise. -/
theorem Busy.take (h : Busy n erased k f) (a : Access)
    (hk : k + (if a.reads n then 1 else 0) ≤ 16) :
    Busy n erased (k + if a.reads n then 1 else 0) (f.take a) := by
  refine ⟨commands_take h.commands a, ?_⟩
  rw [bank_take h.commands, h.bank]
  cases a with
  | read c addr =>
    by_cases hn : c.window.param.toNat = n
    · simp only [Access.reads, Access.number, hn, beq_self_eq_true, if_true] at hk ⊢
      rw [Bank.take, Bank.answer_busyAfter erased (by omega)]
    · simp [Access.reads, Access.number, hn]
  | write c addr value =>
    simp [Access.reads, Bank.take, Bank.command_busyAfter]

theorem readCount_concat (n : Nat) (accesses : List Access) (a : Access) :
    readCount n (accesses ++ [a]) = readCount n accesses + if a.reads n then 1 else 0 := by
  rw [readCount, List.countP_append, List.countP_singleton]
  rfl

theorem Busy.run (h : Busy n erased 0 f) (accesses : List Access)
    (hk : readCount n accesses ≤ 16) : Busy n erased (readCount n accesses) (f.run accesses) := by
  induction accesses using List.reverseRecOn with
  | nil => exact h
  | append_singleton accesses a ih =>
    rw [readCount_concat] at hk ⊢
    rw [run_concat]
    exact (ih (by omega)).take a hk

/-- To read a busy bank gives the status for the number of the read. -/
theorem Busy.read (h : Busy n erased k f) (hk : k ≤ 16) {c : Context}
    (hn : c.window.param.toNat = n) (addr : UInt32) :
    Flash.read c addr ⟨f, #[]⟩ = .ok (eraseStatus (k + 1)) ⟨f.take (.read c addr), #[]⟩ := by
  obtain ⟨b, hanswer⟩ : ∃ b, (f.bank n).answer ((f.bank n).offset addr) =
      (some (eraseStatus (k + 1)), b) := by
    rw [h.bank]
    rcases Nat.lt_or_eq_of_le hk with hlt | rfl
    · exact ⟨_, erased.answer_busyAfter hlt _⟩
    · exact ⟨_, erased.answer_busyAfter_last _⟩
  exact (read_of_answer h.commands hn hanswer).1

/-- The last read of a status makes the bank ready, and touches none of its cells. -/
theorem Busy.last (h : Busy n erased 16 f) {c : Context} (hn : c.window.param.toNat = n)
    (addr : UInt32) :
    (f.take (.read c addr)).bank n = { erased with state := .ready, statusReads := 16 } := by
  have hanswer : (f.bank n).answer ((f.bank n).offset addr) =
      (some (eraseStatus 17), { erased with state := .ready, statusReads := 16 }) := by
    rw [h.bank, Bank.answer_busyAfter_last]
  exact (read_of_answer h.commands hn hanswer).2

end Digic.Flash
