import Digic.Proofs.Bus.PowerOfTwo
import Digic.Timer.CompareRegisters
/-!
# When a compare channel matches

The clock moves by whole steps and wraps around, and a compare value is rounded up to one that the
clock shows. So a channel that is armed matches once in every turn of the clock, whatever was
written, and how long it takes the first time can be said beforehand.
-/
namespace Digic.Timer

/-- A value that the clock can show. -/
def OnGrid (w : UInt32) : Prop := w.toNat % 0x100 = 0 ∧ w.toNat < 0x100000

theorem onGrid_zero : OnGrid 0 := by
  unfold OnGrid
  decide

/-- How many values there are. -/
def turn : Nat := 0x1000

/-- The ticks from a clock value to the first match of a value that is written as compare value:
rounded up, and a whole turn if the clock shows it already. -/
def ticksUntil (value clock : UInt32) : Nat :=
  let distance := (value - clock).toNat % 0x100000
  if distance = 0 then turn else (distance + 0xFF) / 0x100

/-- The bits of the clock that change. -/
theorem toNat_and_gridMask (w : UInt32) :
    (w &&& 0xFFF00).toNat = w.toNat % 0x100000 / 0x100 * 0x100 := by
  have hmask : w &&& 0xFFF00 = (w &&& (0x100000 - 1)) &&& ~~~(0x100 - 1) := by
    rw [UInt32.and_assoc]
    rfl
  rw [hmask, toNat_and_not_sub_one (by decide), toNat_and_sub_one (by decide)]
  rfl

theorem toNat_quantize (value : UInt32) :
    (quantize value).toNat = (value.toNat % 0x100000 + 0xFF) / 0x100 % 0x1000 * 0x100 := by
  have hlow : (value &&& 0xFFFFF).toNat = value.toNat % 0x100000 :=
    toNat_and_sub_one (by decide : isPowerOfTwo 0x100000 = true) value
  have hsum : ((value &&& 0xFFFFF) + 0xFF).toNat = value.toNat % 0x100000 + 0xFF := by
    rw [UInt32.toNat_add, hlow]
    have : (0xFF : UInt32).toNat = 0xFF := rfl
    omega
  rw [quantize, toNat_and_gridMask, hsum]
  omega

theorem onGrid_quantize (value : UInt32) : OnGrid (quantize value) := by
  rw [OnGrid, toNat_quantize]
  omega

theorem toNat_advance (c : Clock) :
    c.advance.value.toNat = (c.value.toNat + 0x100) % 0x100000 / 0x100 * 0x100 := by
  have hsum : (c.value + step).toNat = (c.value.toNat + 0x100) % 2 ^ 32 := UInt32.toNat_add _ _
  rw [Clock.advance, toNat_and_gridMask, hsum]
  omega

theorem onGrid_advance (c : Clock) : OnGrid c.advance.value := by
  rw [OnGrid, toNat_advance]
  omega

/-- The distance from one value to another, as the clock runs. -/
theorem toNat_sub_mod (value clock : UInt32) :
    (value - clock).toNat % 0x100000 =
      (value.toNat % 0x100000 + 0x100000 - clock.toNat % 0x100000) % 0x100000 := by
  rw [UInt32.toNat_sub]
  have hvalue := value.toNat_lt
  have hclock := clock.toNat_lt
  omega

theorem ticksUntil_pos (value clock : UInt32) : 0 < ticksUntil value clock := by
  unfold ticksUntil turn
  dsimp only
  split <;> omega

theorem ticksUntil_le (value clock : UInt32) : ticksUntil value clock ≤ turn := by
  unfold ticksUntil turn
  dsimp only
  split <;> omega

/-- After `n` ticks the clock shows a compare value if `n` is the time until its first match, but for
whole turns. -/
theorem shows_iff {clock : UInt32} (hclock : OnGrid clock) (value : UInt32) {n : Nat} (hn : 0 < n) :
    (clock.toNat + 0x100 * n) % 0x100000 = (quantize value).toNat ↔
      ∃ r, n = ticksUntil value clock + turn * r := by
  obtain ⟨hstep, hlt⟩ := hclock
  have hpos := ticksUntil_pos value clock
  have hle := ticksUntil_le value clock
  have hcongr : (clock.toNat + 0x100 * n) % 0x100000 = (quantize value).toNat ↔
      n % turn = ticksUntil value clock % turn := by
    rw [toNat_quantize, ticksUntil, toNat_sub_mod, turn]
    split <;> omega
  rw [hcongr]
  constructor
  · intro hmod
    refine ⟨(n - ticksUntil value clock) / turn, ?_⟩
    unfold turn at *
    omega
  · rintro ⟨r, rfl⟩
    exact Nat.add_mul_mod_self_left _ _ _

end Digic.Timer
