import Digic.Proofs.Bus.Flag
import Digic.Proofs.Flash.Access
/-!
# The write gate

Writes of ROM are meant to be allowed by a command that has a magic half-word as either half. They
are forbidden by zero, and any other command leaves the gate as it is. But the gate lays both halves
over each other before it compares: it also wants the other half to have no bit that the magic
half-word lacks, and it takes halves that make the magic half-word only together. With commands of
neither kind it does what it is meant to, whatever was written before.
-/
namespace Digic.Flash

open Bus

def Access.gateCommand? : Access → Option UInt32
  | .read .. => none
  | .write _ addr value => if addr.toNat % 0x200 = 0x10 then some value else none

namespace Gate

def take (g : Gate) : Access → Gate
  | .read c addr => (stateAfter (Gate.read c addr) ⟨g, #[]⟩).device
  | .write c addr value => (stateAfter (Gate.write c addr value) ⟨g, #[]⟩).device

def after (accesses : List Access) : Gate := accesses.foldl take .new

/-- A command of some kind was given, and no zero after it. -/
def GivenLast (kind : UInt32 → Prop) (commands : List UInt32) : Prop :=
  ∃ before command later, commands = before ++ command :: later ∧ kind command ∧ 0 ∉ later

def lowHalf (command : UInt32) : Nat := command.toNat % 0x10000

def highHalf (command : UInt32) : Nat := command.toNat / 0x10000

/-- One of the halves is the magic half-word. -/
def HasMagic (command : UInt32) : Prop := lowHalf command = 0xD9C5 ∨ highHalf command = 0xD9C5

/-- Both halves together have the bits of the magic half-word. -/
def MakesMagic (command : UInt32) : Prop := lowHalf command ||| highHalf command = 0xD9C5

/-- What the gate takes for another command than it is. -/
inductive Misread (command : UInt32) : Prop
  /-- The magic half-word is there, and so is a bit that it lacks. -/
  | spoilt (h : HasMagic command)
      (hbit : lowHalf command ||| 0xD9C5 ≠ 0xD9C5 ∨ highHalf command ||| 0xD9C5 ≠ 0xD9C5)
  /-- The bits of the magic half-word are spread over both halves. -/
  | spread (h : ¬ HasMagic command) (hmakes : MakesMagic command)

theorem allowsWrites_iff (command : UInt32) : allowsWrites command = true ↔ MakesMagic command := by
  have hhigh : command.toNat / 0x10000 < 0x10000 := by
    have hlt := command.toNat_lt
    omega
  have hlaid : ((command ||| command >>> 16) &&& 0xFFFF).toNat =
      lowHalf command ||| highHalf command := by
    rw [UInt32.toNat_and, UInt32.toNat_or, UInt32.toNat_shiftRight]
    calc (command.toNat ||| command.toNat >>> 16) &&& 0xFFFF
        = (command.toNat ||| command.toNat / 0x10000) % 2 ^ 16 := by
          rw [Nat.shiftRight_eq_div_pow]
          exact Nat.and_two_pow_sub_one_eq_mod _ 16
      _ = command.toNat % 0x10000 ||| command.toNat / 0x10000 % 0x10000 :=
          Nat.or_mod_two_pow
      _ = lowHalf command ||| highHalf command := by
          rw [Nat.mod_eq_of_lt hhigh]
          rfl
  rw [allowsWrites, beq_iff_eq, ← UInt32.toNat_inj, hlaid]
  rfl

/-- The gate tells the magic half-word from everything else, but for what it misreads. -/
theorem allowsWrites_iff_hasMagic_iff (command : UInt32) :
    (allowsWrites command = true ↔ HasMagic command) ↔ ¬ Misread command := by
  rw [allowsWrites_iff]
  by_cases hmagic : HasMagic command
  · -- The half that is the magic half-word adds no bit to it.
    have hmakes : MakesMagic command ↔
        lowHalf command ||| 0xD9C5 = 0xD9C5 ∧ highHalf command ||| 0xD9C5 = 0xD9C5 := by
      unfold MakesMagic
      rcases hmagic with h | h
      · rw [h, Nat.or_self, Nat.or_comm, eq_self, true_and]
      · rw [h, Nat.or_self, eq_self, and_true]
    rw [iff_true_right hmagic, hmakes]
    constructor
    · rintro ⟨hlow, hhigh⟩ (⟨-, h | h⟩ | ⟨h, -⟩)
      · exact h hlow
      · exact h hhigh
      · exact h hmagic
    · intro hread
      by_contra hstray
      exact hread (.spoilt hmagic (not_and_or.1 hstray))
  · rw [iff_false_right hmagic]
    constructor
    · rintro hmakes (⟨h, -⟩ | ⟨-, h⟩)
      · exact hmagic h
      · exact hmakes h
    · exact fun hread hmakes => hread (.spread hmagic hmakes)

theorem isCommand_iff (addr : UInt32) : isCommand addr = true ↔ addr.toNat % 0x200 = 0x10 := by
  have hlow : (addr &&& 0x1FF).toNat = addr.toNat % 0x200 :=
    toNat_and_sub_one (by decide : isPowerOfTwo 0x200 = true) addr
  rw [isCommand, beq_iff_eq, ← UInt32.toNat_inj, hlow]
  rfl

/-- Only what reaches the register of commands is one. -/
theorem take_eq (g : Gate) (a : Access) :
    g.take a = a.gateCommand?.elim g g.set := by
  cases a with
  | read c addr => rfl
  | write c addr value =>
    rw [take, Gate.write, Access.gateCommand?]
    by_cases h : addr.toNat % 0x200 = 0x10
    · rw [if_pos ((isCommand_iff addr).2 h), if_pos h]
      rfl
    · rw [if_neg (mt (isCommand_iff addr).1 h), if_neg h]
      rfl

theorem after_eq (accesses : List Access) :
    after accesses = (accesses.filterMap Access.gateCommand?).foldl set .new := by
  rw [after, List.foldl_filterMap]
  congr
  funext g a
  rw [take_eq]
  cases a.gateCommand? <;> rfl

theorem writeEnabled_set (g : Gate) (command : UInt32) :
    (g.set command).writeEnabled = true ↔
      MakesMagic command ∨ g.writeEnabled = true ∧ ¬ command = 0 := by
  rw [← allowsWrites_iff, set]
  by_cases hallows : allowsWrites command = true
  · rw [if_pos hallows]
    exact iff_of_true rfl (.inl hallows)
  · rw [if_neg hallows, or_iff_right hallows]
    split
    · next hzero => simp [hzero]
    · next hzero => rw [and_iff_left hzero]

theorem writeEnabled_foldl_set (commands : List UInt32) :
    (commands.foldl set .new).writeEnabled = true ↔ GivenLast MakesMagic commands := by
  have hlast : (commands.foldl set .new).writeEnabled = true ↔
      RaisedLast (fun _ => MakesMagic) (fun _ command => command = 0) commands := by
    refine up_iff_raisedLast (fun cs => (cs.foldl set .new).writeEnabled = true) (by simp [new])
      fun before command _ => ?_
    rw [List.foldl_append]
    exact writeEnabled_set _ command
  rw [hlast, raisedLast_iff_exists, GivenLast]
  simp only [List.forall_mem_ne']

theorem givenLast_congr {kind kind' : UInt32 → Prop} {commands : List UInt32}
    (h : ∀ command ∈ commands, kind command ↔ kind' command) :
    GivenLast kind commands ↔ GivenLast kind' commands := by
  unfold GivenLast
  refine exists_congr fun before => exists_congr fun command => exists_congr fun later =>
    and_congr_right fun hsplit => and_congr_left fun _ => h command ?_
  rw [hsplit]
  simp

/-- A new gate after any accesses. What was written to its register are the commands. Then

* the gate is open just if the halves of some command together have the bits of the magic half-word
  and no later command is zero,
* a command allows writes if it has the magic half-word as a half, and only then: this is true of a
  command just if the gate does not misread it,
* so the gate is open just if some command has the magic half-word as a half and no later command is
  zero, as long as it misreads none of the commands. -/
theorem open_iff_given_last (accesses : List Access) :
    let commands := accesses.filterMap Access.gateCommand?
    ((after accesses).writeEnabled = true ↔ GivenLast MakesMagic commands) ∧
    (∀ command, (allowsWrites command = true ↔ HasMagic command) ↔ ¬ Misread command) ∧
    ((∀ command ∈ commands, ¬ Misread command) →
      ((after accesses).writeEnabled = true ↔ GivenLast HasMagic commands)) := by
  intro commands
  have hopen : (after accesses).writeEnabled = true ↔ GivenLast MakesMagic commands := by
    rw [after_eq]
    exact writeEnabled_foldl_set commands
  refine ⟨hopen, allowsWrites_iff_hasMagic_iff, fun hread => hopen.trans ?_⟩
  refine givenLast_congr fun command hcommand => ?_
  rw [← allowsWrites_iff]
  exact (allowsWrites_iff_hasMagic_iff command).2 (hread command hcommand)

/-- The magic half-word is not found beside a half with other bits, and found where its own bits are
spread over both halves. -/
theorem magic_half_missed :
    let c : Context := ⟨⟨"FlashIF", .flashGate, 0⟩, 0, .standard⟩
    let spoilt : List Access := [.write c 0xC0000010 0xD9C5FFFF]
    let spread : List Access := [.write c 0xC0000010 0xD9C00005]
    GivenLast HasMagic (spoilt.filterMap Access.gateCommand?) ∧
      (after spoilt).writeEnabled = false ∧
      ¬ GivenLast HasMagic (spread.filterMap Access.gateCommand?) ∧
      (after spread).writeEnabled = true := by
  intro c spoilt spread
  refine ⟨⟨[], 0xD9C5FFFF, [], by decide, .inr (by decide), List.not_mem_nil⟩, by decide, ?_,
    by decide⟩
  rintro ⟨before, command, later, hsplit, hmagic, -⟩
  have hmem : command ∈ spread.filterMap Access.gateCommand? := by simp [hsplit]
  obtain rfl : command = 0xD9C00005 := by
    simpa [spread, Access.gateCommand?] using hmem
  exact absurd hmagic (by unfold HasMagic; decide)

end Gate

end Digic.Flash
