import Digic.Proofs.Flash.Access
/-!
# The command protocol of a bank

The state of a bank says how the last cycles that were written to it end. So a cycle that programs or
erases is the last one of a command that was announced, and does what that command is meant to do.
-/
namespace Digic.Flash

structure Cycle where
  /-- The word offset that is written to. -/
  word : UInt32
  value : UInt32
  deriving DecidableEq, Repr

/-- The cycles that come before the last one of an erase. -/
def eraseUnlock : List Cycle :=
  [⟨0x555, 0xAA⟩, ⟨0x2AA, 0x55⟩, ⟨0x555, 0x80⟩, ⟨0x555, 0xAA⟩, ⟨0x2AA, 0x55⟩]

/-- How the past cycles of a bank end that is in some state. -/
def State.Follows (past : List Cycle) : State → Prop
  | .ready | .eraseBusy => True
  | .halfUnlocked => eraseUnlock.take 1 <:+ past
  | .unlocked => eraseUnlock.take 2 <:+ past
  | .eraseLocked => eraseUnlock.take 3 <:+ past
  | .eraseHalfUnlocked => eraseUnlock.take 4 <:+ past
  | .eraseUnlocked => eraseUnlock <:+ past
  | .program => ∃ word, [⟨word, 0xA0⟩] <:+ past
  | .bypassReset => ∃ word, [⟨word, 0x90⟩] <:+ past
  | .bypassErase => ∃ word, [⟨word, 0x80⟩] <:+ past

def State.after (s : State) (cycles : List Cycle) : State :=
  cycles.foldl (fun s c => (s.next c.word c.value).state) s

/-- What an operation needs of the past cycles and of its own one. -/
def Operation.Announced (past : List Cycle) (c : Cycle) : Operation → Prop
  | .nothing => True
  | .program => ∃ word, [⟨word, 0xA0⟩] <:+ past
  | .eraseChip =>
    c.value = 0x10 ∧ (c.word = 0x555 ∧ eraseUnlock <:+ past ∨ ∃ word, [⟨word, 0x80⟩] <:+ past)
  | .eraseBlock => c.value = 0x30 ∧ (eraseUnlock <:+ past ∨ ∃ word, [⟨word, 0x80⟩] <:+ past)

/-- What an operation does to the cells. -/
def Operation.Changes (b b' : Bank) (offset value : UInt32) : Operation → Prop
  | .nothing => b'.cells = b.cells
  | .program => b.Programmed b' offset value
  | .eraseChip => b'.Erased
  | .eraseBlock => b.BlockErased b' offset

/-- The cycle that an access is for bank `n`, which decodes addresses like `b`. -/
def Access.cycle? (n : Nat) (b : Bank) : Access → Option Cycle
  | .read .. => none
  | .write c addr value =>
    if c.window.param.toNat = n then some ⟨b.offset addr >>> 1, value⟩ else none

def cycles (n : Nat) (b : Bank) (accesses : List Access) : List Cycle :=
  accesses.filterMap (Access.cycle? n b)

theorem suffix_concat {recent past : List Cycle} (h : recent <:+ past) (c : Cycle) :
    recent ++ [c] <:+ past ++ [c] := by
  obtain ⟨first, rfl⟩ := h
  exact ⟨first, (List.append_assoc first recent [c]).symm⟩

/-- A cycle is remembered if it is expected. -/
theorem follows_next {s : State} {past : List Cycle} (h : s.Follows past) (c : Cycle) :
    (s.next c.word c.value).state.Follows (past ++ [c]) := by
  obtain ⟨word, value⟩ := c
  have hlast : [(⟨word, value⟩ : Cycle)] <:+ past ++ [⟨word, value⟩] := List.suffix_append ..
  have hnext {recent : List Cycle} (h : recent <:+ past) := suffix_concat h ⟨word, value⟩
  cases s with
  | ready =>
    rw [State.next]
    split
    · exact trivial
    split
    · next hcycle =>
      obtain ⟨rfl, rfl⟩ := hcycle
      exact hlast
    split
    · next hvalue => exact ⟨word, hvalue ▸ hlast⟩
    split
    · next hvalue => exact ⟨word, hvalue ▸ hlast⟩
    split
    · next hvalue => exact ⟨word, hvalue ▸ hlast⟩
    split <;> exact trivial
  | halfUnlocked =>
    rw [State.next]
    split
    · next hcycle =>
      obtain ⟨rfl, rfl⟩ := hcycle
      exact hnext h
    · exact trivial
  | unlocked =>
    rw [State.next]
    split
    · exact trivial
    split
    · next hcycle =>
      obtain ⟨rfl, rfl⟩ := hcycle
      exact ⟨unlockFirst, hlast⟩
    split
    · exact trivial
    split
    · next hcycle =>
      obtain ⟨rfl, rfl⟩ := hcycle
      exact hnext h
    · exact trivial
  | eraseLocked =>
    rw [State.next]
    split
    · next hcycle =>
      obtain ⟨rfl, rfl⟩ := hcycle
      exact hnext h
    · exact trivial
  | eraseHalfUnlocked =>
    rw [State.next]
    split
    · next hcycle =>
      obtain ⟨rfl, rfl⟩ := hcycle
      exact hnext h
    · exact trivial
  | eraseUnlocked =>
    rw [State.next]
    split
    · exact trivial
    split <;> exact trivial
  | program => exact trivial
  | bypassReset =>
    rw [State.next]
    split <;> exact trivial
  | bypassErase =>
    rw [State.next]
    split
    · exact trivial
    split <;> exact trivial
  | eraseBusy => exact trivial

/-- An operation is made only if it was announced. -/
theorem announced_next {s : State} {past : List Cycle} (h : s.Follows past) (c : Cycle) :
    (s.next c.word c.value).operation.Announced past c := by
  obtain ⟨word, value⟩ := c
  cases s with
  | eraseUnlocked =>
    rw [State.next]
    split
    · next hcycle => exact ⟨hcycle.2, .inl ⟨hcycle.1, h⟩⟩
    split
    · next hvalue => exact ⟨hvalue, .inl h⟩
    · exact trivial
  | program => exact h
  | bypassErase =>
    rw [State.next]
    split
    · next hvalue => exact ⟨hvalue, .inr h⟩
    split
    · next hvalue => exact ⟨hvalue, .inr h⟩
    · exact trivial
  | _ =>
    rw [State.next]
    repeat' split
    all_goals exact trivial

theorem Operation.Changes.congr {b b' b'' : Bank} {offset value : UInt32} {o : Operation}
    (h : o.Changes b b' offset value) (hcells : b''.cells = b'.cells) :
    o.Changes b b'' offset value := by
  cases o <;>
    simpa only [Changes, Bank.Programmed, Bank.Erased, Bank.BlockErased, hcells] using h

/-- An operation changes what it is meant to change. -/
theorem changes_perform {b : Bank} (hb : b.Sound) {offset : UInt32} (hoffset : offset < b.size)
    (value : UInt32) (o : Operation) : o.Changes b (b.perform offset value o) offset value := by
  cases o with
  | nothing => rfl
  | program => exact Bank.programmed_program hb offset value
  | eraseChip => exact b.erased_eraseChip
  | eraseBlock => exact b.blockErased_eraseBlock hoffset

theorem after_concat (s : State) (past : List Cycle) (c : Cycle) :
    s.after (past ++ [c]) = ((s.after past).next c.word c.value).state := by
  rw [State.after, List.foldl_append]
  rfl

/-- A cycle does what the response to it says. -/
theorem command_of_response {b : Bank} (hb : b.Sound) {offset value : UInt32}
    (hoffset : offset < b.size) {r : Response} (hr : b.response offset value = r) :
    r.operation.Changes b (b.command offset value) offset value ∧
      (b.command offset value).state = r.state := by
  subst hr
  exact ⟨(changes_perform hb hoffset value _).congr rfl, rfl⟩

/-- A cycle that changes a byte is the last one of a command, and changes what it is meant to. -/
theorem command_changed {b : Bank} (hb : b.Sound) {past : List Cycle} (h : b.state.Follows past)
    {offset value : UInt32} (hoffset : offset < b.size) {x : UInt32}
    (hx : (b.command offset value).cells.byte x ≠ b.cells.byte x) :
    (∃ word, [⟨word, 0xA0⟩] <:+ past) ∧ b.Programmed (b.command offset value) offset value ∨
    (value = 0x10 ∧ (offset >>> 1 = 0x555 ∧ eraseUnlock <:+ past ∨
        ∃ word, [⟨word, 0x80⟩] <:+ past)) ∧ (b.command offset value).Erased ∨
    (value = 0x30 ∧ (eraseUnlock <:+ past ∨ ∃ word, [⟨word, 0x80⟩] <:+ past)) ∧
      b.BlockErased (b.command offset value) offset := by
  have hannounced : (b.response offset value).operation.Announced past ⟨offset >>> 1, value⟩ :=
    announced_next h ⟨offset >>> 1, value⟩
  have hdone := (command_of_response hb hoffset (rfl : b.response offset value = _)).1
  cases hoperation : (b.response offset value).operation with
  | nothing =>
    rw [hoperation] at hdone
    exact absurd (congrArg (Memory.byte · x) hdone) hx
  | program =>
    rw [hoperation] at hannounced hdone
    exact .inl ⟨hannounced, hdone⟩
  | eraseChip =>
    rw [hoperation] at hannounced hdone
    exact .inr (.inl ⟨hannounced, hdone⟩)
  | eraseBlock =>
    rw [hoperation] at hannounced hdone
    exact .inr (.inr ⟨hannounced, hdone⟩)

/-- The last cycle of an erase erases. -/
theorem command_eraseUnlocked {b : Bank} (hb : b.Sound) (hstate : b.state = .eraseUnlocked)
    {offset : UInt32} (hoffset : offset < b.size) :
    (offset >>> 1 = 0x555 →
      (b.command offset 0x10).Erased ∧ (b.command offset 0x10).state = .ready) ∧
    b.BlockErased (b.command offset 0x30) offset ∧
      (b.command offset 0x30).state = .eraseBusy := by
  constructor
  · intro hword
    have hresponse : b.response offset 0x10 = Response.eraseChip := by
      rw [Bank.response, hstate, State.next]
      exact if_pos ⟨hword, rfl⟩
    exact command_of_response hb hoffset hresponse
  · have hresponse : b.response offset 0x30 = Response.eraseBlock := by
      rw [Bank.response, hstate, State.next, if_neg fun h => absurd h.2 (by decide)]
      rfl
    exact command_of_response hb hoffset hresponse

end Digic.Flash
