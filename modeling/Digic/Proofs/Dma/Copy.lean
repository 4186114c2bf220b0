import Digic.Dma.Engine
import Digic.Memory.Lemmas
import Digic.Proofs.Bus.Effects
import Mathlib.Algebra.Group.Nat.Defs
/-!
# Copies by DMA

A channel copies in blocks from the lowest address up, and reads each block as a whole before it
writes it. If the destination begins inside the source, a block may read what an earlier one has
written, and a byte arrives a second time further up. Where each byte comes from is said exactly, and
from this follows for which regions a copy is one.
-/
namespace Digic.Dma

open Memory Bus

/-- The place of the source whose byte arrives at place `i` of the destination, which begins `gap`
bytes behind the source. Where an earlier block has written, the byte is that of a lower place. -/
def origin (gap i : Nat) : Nat :=
  if gap ≤ i ∧ i - gap < i / blockSize * blockSize then origin gap (i - gap) else i
termination_by i
decreasing_by
  have := Nat.div_mul_le_self i blockSize
  omega

theorem origin_le (gap i : Nat) : origin gap i ≤ i := by
  fun_induction origin gap i with
  | case1 i h ih => omega
  | case2 i h => exact Nat.le_refl i

/-- The first block is read before anything is written. -/
theorem origin_of_lt (gap : Nat) {i : Nat} (h : i < blockSize) : origin gap i = i := by
  rw [origin, Nat.div_eq_of_lt h, if_neg (by omega)]

theorem origin_eq_iff (gap i : Nat) :
    origin gap i = i ↔ ¬ (gap ≤ i ∧ i - gap < i / blockSize * blockSize) := by
  constructor
  · intro h hearlier
    have hle := origin_le gap (i - gap)
    have hdiv := Nat.div_mul_le_self i blockSize
    rw [origin, if_pos hearlier] at h
    omega
  · intro h
    rw [origin, if_neg h]

/-- With one more block in front, a byte comes from the same place behind that block, unless the block
has written there. -/
theorem origin_add_blockSize (gap i : Nat) :
    origin gap (blockSize + i) =
      if gap ≤ blockSize + origin gap i ∧ blockSize + origin gap i - gap < blockSize
      then blockSize + origin gap i - gap else blockSize + origin gap i := by
  fun_induction origin gap i with
  | case1 i h ih =>
    have hearlier : gap ≤ blockSize + i ∧
        blockSize + i - gap < (blockSize + i) / blockSize * blockSize := by
      simp only [blockSize] at *
      omega
    have hnext : blockSize + i - gap = blockSize + (i - gap) := by omega
    rw [origin, if_pos hearlier, hnext, ih]
  | case2 i h =>
    by_cases hfirst : gap ≤ blockSize + i ∧ blockSize + i - gap < blockSize
    · have hearlier : gap ≤ blockSize + i ∧
          blockSize + i - gap < (blockSize + i) / blockSize * blockSize := by
        simp only [blockSize] at *
        omega
      rw [origin, if_pos hearlier, if_pos hfirst, origin_of_lt gap hfirst.2]
    · rw [if_neg hfirst, origin_eq_iff]
      simp only [blockSize] at *
      omega

/-- Every byte arrives at its own place if there is only one block, or the destination is the source,
or it does not begin inside the source. In all other cases some byte does not. -/
theorem origin_eq_self_iff (gap count : Nat) :
    (∀ i < count, origin gap i = i) ↔ count ≤ blockSize ∨ gap = 0 ∨ count ≤ gap := by
  constructor
  · intro h
    refine Decidable.byContradiction fun hnot => ?_
    -- The first place behind the first block that this block has overwritten.
    have hplace := (origin_eq_iff gap _).1 (h (max gap blockSize) (by omega))
    simp only [blockSize] at *
    omega
  · intro h i hi
    rw [origin_eq_iff]
    simp only [blockSize] at *
    omega

/-- What stands at a place of the source behind the first block, once that block was copied. -/
theorem byte_first_block (m : Memory) (source destination : UInt32) {length place : Nat}
    (hbehind : length ≤ place) (hplace : place < 2 ^ 32) :
    (m.write destination (m.read source length)).byte (source + place.toUInt32) =
      if (destination - source).toNat ≤ place ∧ place - (destination - source).toNat < length
      then m.byte (source + (place - (destination - source).toNat).toUInt32)
      else m.byte (source + place.toUInt32) := by
  have hoffset : source + place.toUInt32 - destination =
      place.toUInt32 - (destination - source) := by grind
  have hgap := (destination - source).toNat_lt
  -- A place before the destination has a distance from it that wraps, and is too long.
  have hnat : (source + place.toUInt32 - destination).toNat =
      (2 ^ 32 - (destination - source).toNat + place) % 2 ^ 32 := by
    rw [hoffset, UInt32.toNat_sub, Nat.toUInt32, UInt32.toNat_ofNat_of_lt' hplace]
  rw [byte_write_read]
  by_cases hinside :
      (destination - source).toNat ≤ place ∧ place - (destination - source).toNat < length
  · have hdistance : (source + place.toUInt32 - destination).toNat =
        place - (destination - source).toNat := by omega
    rw [if_pos hinside, if_pos (by omega), ← hdistance, Nat.toUInt32, UInt32.ofNat_toNat]
  · rw [if_neg hinside, if_neg (by omega)]

theorem byte_copyBlocks (m : Memory) (source destination : UInt32) {count : Nat}
    (hcount : count < 2 ^ 32) (x : UInt32) :
    (copyBlocks m source destination count).byte x =
      if (x - destination).toNat < count then
        m.byte (source + (origin (destination - source).toNat (x - destination).toNat).toUInt32)
      else m.byte x := by
  fun_induction copyBlocks m source destination count with
  | case1 => simp
  | case2 m source destination count hne length hless ih =>
    have hlength : length = min count blockSize := rfl
    have hlt : length < 2 ^ 32 := by omega
    have hword : length.toUInt32.toNat = length := UInt32.toNat_ofNat_of_lt' hlt
    have hgap : destination + length.toUInt32 - (source + length.toUInt32) =
        destination - source := by grind
    have hrest : x - (destination + length.toUInt32) = x - destination - length.toUInt32 := by grind
    have hplace := (x - destination).toNat_lt
    rw [ih (by omega), hgap, hrest]
    by_cases hfirst : (x - destination).toNat < length
    · -- A place in the first block, which the other blocks leave alone.
      have hbefore : ¬ (x - destination - length.toUInt32).toNat < count - length := by
        rw [UInt32.toNat_sub, hword]
        omega
      rw [if_neg hbefore, if_pos (by omega), byte_write_read, if_pos hfirst,
        origin_of_lt _ (by omega), Nat.toUInt32, UInt32.ofNat_toNat]
    · have hbehind : (x - destination - length.toUInt32).toNat =
          (x - destination).toNat - length := by
        rw [UInt32.toNat_sub, hword]
        omega
      rw [hbehind]
      by_cases hinside : (x - destination).toNat < count
      · have hblock : length = blockSize := by omega
        have hsum : blockSize + ((x - destination).toNat - length) = (x - destination).toNat := by
          omega
        have hle := origin_le (destination - source).toNat ((x - destination).toNat - length)
        have hshift (k : Nat) : source + length.toUInt32 + k.toUInt32 =
            source + (length + k).toUInt32 := by
          simp [UInt32.ofNat_add, UInt32.add_assoc]
        have horigin := origin_add_blockSize (destination - source).toNat
          ((x - destination).toNat - length)
        rw [hsum, ← hblock] at horigin
        rw [if_pos (by omega), if_pos hinside, hshift,
          byte_first_block _ _ _ (by omega) (by omega), horigin]
        split <;> rfl
      · rw [if_neg (by omega), if_neg hinside, byte_write_read, if_neg (by omega)]

/-- Whether no block of a channel's copy reads what an earlier one has written. -/
def Channel.Clear (ch : Channel) : Prop :=
  let gap := ch.destination - ch.source
  ch.count ≤ 8192 ∨ gap = 0 ∨ ch.count ≤ gap

instance (ch : Channel) : Decidable ch.Clear :=
  inferInstanceAs (Decidable (ch.count ≤ 8192 ∨ ch.destination - ch.source = 0 ∨
    ch.count ≤ ch.destination - ch.source))

theorem Channel.clear_iff (ch : Channel) :
    ch.Clear ↔ ∀ i < ch.count.toNat, origin (ch.destination - ch.source).toNat i = i := by
  rw [origin_eq_self_iff, Clear]
  simp only [UInt32.le_iff_toNat_le, ← UInt32.toNat_inj, UInt32.reduceToNat, blockSize]

/-- A copy is exact, whatever the memory holds, just if it is clear. -/
theorem copyBlocks_exact_iff (ch : Channel) :
    (∀ m : Memory, ∀ i < ch.count,
      (copyBlocks m ch.source ch.destination ch.count.toNat).byte (ch.destination + i) =
        m.byte (ch.source + i)) ↔ ch.Clear := by
  have hbyte (m : Memory) (i : UInt32) (hi : i < ch.count) :
      (copyBlocks m ch.source ch.destination ch.count.toNat).byte (ch.destination + i) =
        m.byte (ch.source + (origin (ch.destination - ch.source).toNat i.toNat).toUInt32) := by
    have hplace : ch.destination + i - ch.destination = i := by grind
    rw [byte_copyBlocks _ _ _ ch.count.toNat_lt, hplace, if_pos (UInt32.lt_iff_toNat_lt.1 hi)]
  rw [Channel.clear_iff]
  constructor
  · intro h i hi
    have hi' : i < 2 ^ 32 := Nat.lt_trans hi ch.count.toNat_lt
    have hnat : i.toUInt32.toNat = i := UInt32.toNat_ofNat_of_lt' hi'
    have hlt : i.toUInt32 < ch.count := UInt32.lt_iff_toNat_lt.2 (by rwa [hnat])
    have hle := origin_le (ch.destination - ch.source).toNat i
    -- A memory in which the byte that is to arrive is like no other one.
    have hone := h ((blank 0).setByte (ch.source + i.toUInt32) 1) i.toUInt32 hlt
    rw [hbyte _ _ hlt, hnat, byte_setByte, byte_setByte, if_pos rfl, byte_blank] at hone
    split at hone
    case isTrue heq =>
      have hcast := congrArg UInt32.toNat ((UInt32.add_right_inj _).1 heq)
      have hlt' : origin (ch.destination - ch.source).toNat i < 2 ^ 32 := Nat.lt_of_le_of_lt hle hi'
      rwa [hnat, Nat.toUInt32, UInt32.toNat_ofNat_of_lt' hlt'] at hcast
    case isFalse => cases hone
  · intro h m i hi
    rw [hbyte m i hi, h _ (UInt32.lt_iff_toNat_lt.1 hi), Nat.toUInt32, UInt32.ofNat_toNat]

theorem write_start {c : Context} {n : Nat} (hpos : 1 ≤ n) (hlt : n < channelCount)
    (hparam : c.window.param.toNat = n) {addr value : UInt32} (haddr : addr &&& 0xFF = 0x08)
    (hvalue : value &&& 1 ≠ 0) (e : Engine) (m : Memory) (effects : Array Effect) :
    let ch := e.channels[n]
    Dma.write c addr value ⟨⟨e, m⟩, effects⟩ = .ok ()
      ⟨⟨e, copyBlocks m ch.source ch.destination ch.count.toNat⟩, effects ++ #[
        .note (.copy ⟨n, ch.source, ch.destination, ch.count, value⟩),
        .request (interruptOf n) (ch.count / 10000)]⟩ := by
  intro ch
  have hget : e.get? n = some ch := Vector.getElem?_eq_getElem hlt
  have hregister : Register.ofAddress addr = .control := by
    rw [Register.ofAddress, haddr]
    rfl
  unfold Dma.write
  rw [bind_of_ok (Action.device_apply _), hparam]
  dsimp only
  rw [hget]
  dsimp only
  rw [if_neg (by omega), writeChannel, hregister]
  dsimp only
  rw [if_pos hvalue]
  rfl

/-- A start leaves the registers of all channels, tells of the copy and asks for the channel's
interrupt, and it changes no byte outside of the destination. The destination then holds what the
source held, whatever that was, just if no block reads what an earlier one has written. -/
theorem copied_iff_clear (e : Engine) {c : Context} {n : Nat} (hpos : 1 ≤ n)
    (hlt : n < channelCount) (hparam : c.window.param.toNat = n) {addr value : UInt32}
    (haddr : addr &&& 0xFF = 0x08) (hvalue : value &&& 1 ≠ 0) (effects : Array Effect) :
    let ch := e.channels[n]
    let after := fun m => stateAfter (Dma.write c addr value) ⟨⟨e, m⟩, effects⟩
    (∀ m, Dma.write c addr value ⟨⟨e, m⟩, effects⟩ = .ok () (after m) ∧
      (after m).device.toEngine = e ∧
      (after m).effects = effects ++ #[
        .note (.copy ⟨n, ch.source, ch.destination, ch.count, value⟩),
        .request (interruptOf n) (ch.count / 10000)] ∧
      ∀ x, ch.count ≤ x - ch.destination → (after m).device.memory.byte x = m.byte x) ∧
    ((∀ m, ∀ i < ch.count,
        (after m).device.memory.byte (ch.destination + i) = m.byte (ch.source + i)) ↔
      ch.Clear) := by
  intro ch after
  have hwrite (m : Memory) := write_start hpos hlt hparam haddr hvalue e m effects
  have hafter (m : Memory) : after m = ⟨⟨e, copyBlocks m ch.source ch.destination ch.count.toNat⟩,
      effects ++ #[.note (.copy ⟨n, ch.source, ch.destination, ch.count, value⟩),
        .request (interruptOf n) (ch.count / 10000)]⟩ := by
    simp only [after, stateAfter, hwrite, ch]
  constructor
  · intro m
    rw [hafter]
    refine ⟨hwrite m, rfl, rfl, fun x hx => ?_⟩
    exact (byte_copyBlocks m _ _ ch.count.toNat_lt x).trans
      (if_neg (Nat.not_lt.2 (UInt32.le_iff_toNat_le.1 hx)))
  · simp only [hafter]
    exact copyBlocks_exact_iff ch

/-- A channel that is to move a block and one byte up by one. -/
def shifted : Engine := Engine.new.modify 2 fun _ => ⟨0x1000, 0x1001, 0x2001⟩

/-- One byte more than a block is too much. -/
theorem copied_iff_clear_overlapping :
    let c : Context := ⟨⟨"DMA2", .dma, 2⟩, 0, .standard⟩
    (1 ≤ 2 ∧ 2 < channelCount ∧ c.window.param.toNat = 2 ∧
      (0xC0A20008 : UInt32) &&& 0xFF = 0x08 ∧ (1 : UInt32) &&& 1 ≠ 0) ∧
    ¬ ∀ m, ∀ i < (0x2001 : UInt32),
      (stateAfter (Dma.write c 0xC0A20008 1) ⟨⟨shifted, m⟩, #[]⟩).device.memory.byte (0x1001 + i) =
        m.byte (0x1000 + i) := by
  intro c
  have hpos : 1 ≤ 2 := by decide
  have hlt : 2 < channelCount := by decide
  have haddr : (0xC0A20008 : UInt32) &&& 0xFF = 0x08 := by decide
  have hvalue : (1 : UInt32) &&& 1 ≠ 0 := by decide
  refine ⟨⟨hpos, hlt, rfl, haddr, hvalue⟩, fun h => ?_⟩
  have hclear : shifted.channels[2].Clear :=
    (copied_iff_clear shifted (c := c) hpos hlt rfl haddr hvalue #[]).2.1 h
  exact absurd hclear (by decide +revert)

end Digic.Dma
