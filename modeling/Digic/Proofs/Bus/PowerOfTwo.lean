import Digic.Model
import Mathlib.Data.Nat.ModEq
/-!
# Powers of two

Registers and banks are decoded by masks. A mask below a power of two gives a remainder, and what it
leaves is a multiple.
-/
namespace Digic

theorem exists_toNat_eq_two_pow {size : UInt32} (h : isPowerOfTwo size = true) :
    ∃ k ≤ 32, size.toNat = 2 ^ k := by
  simp only [isPowerOfTwo, Bool.and_eq_true, bne_iff_ne, beq_iff_eq] at h
  obtain ⟨hne, hand⟩ := h
  have hpos : size.toNat ≠ 0 := fun e => hne (UInt32.toNat_inj.1 e)
  have hle : (1 : UInt32) ≤ size := by
    rw [UInt32.le_iff_toNat_le]
    exact Nat.one_le_iff_ne_zero.2 hpos
  have hnat : size.toNat &&& (size.toNat - 1) = 0 := by
    have := congrArg UInt32.toNat hand
    rwa [UInt32.toNat_and, UInt32.toNat_sub_of_le _ _ hle] at this
  obtain ⟨k, hk⟩ := (Nat.and_sub_one_eq_zero_iff_isPowerOfTwo hpos).1 hnat
  refine ⟨k, ?_, hk⟩
  have hlt := size.toNat_lt
  rw [hk] at hlt
  exact (Nat.pow_lt_pow_iff_right (by decide)).1 hlt |>.le

theorem toNat_pos_of_isPowerOfTwo {size : UInt32} (h : isPowerOfTwo size = true) :
    0 < size.toNat := by
  obtain ⟨k, -, hk⟩ := exists_toNat_eq_two_pow h
  rw [hk]
  exact Nat.two_pow_pos k

theorem toNat_dvd_of_isPowerOfTwo {size : UInt32} (h : isPowerOfTwo size = true) :
    size.toNat ∣ 2 ^ 32 := by
  obtain ⟨k, hle, hk⟩ := exists_toNat_eq_two_pow h
  rw [hk]
  exact Nat.pow_dvd_pow 2 hle

theorem toNat_sub_one_of_isPowerOfTwo {size : UInt32} (h : isPowerOfTwo size = true) :
    (size - 1).toNat = size.toNat - 1 :=
  UInt32.toNat_sub_of_le _ _ (UInt32.le_iff_toNat_le.2 (toNat_pos_of_isPowerOfTwo h))

/-- The low bits are a remainder. -/
theorem toNat_and_sub_one {size : UInt32} (h : isPowerOfTwo size = true) (x : UInt32) :
    (x &&& (size - 1)).toNat = x.toNat % size.toNat := by
  obtain ⟨k, -, hk⟩ := exists_toNat_eq_two_pow h
  rw [UInt32.toNat_and, toNat_sub_one_of_isPowerOfTwo h, hk, Nat.and_two_pow_sub_one_eq_mod]

/-- Without its low bits a number is a multiple. -/
theorem toNat_and_not_sub_one {size : UInt32} (h : isPowerOfTwo size = true) (x : UInt32) :
    (x &&& ~~~(size - 1)).toNat = x.toNat / size.toNat * size.toNat := by
  have hdisjoint : (x &&& ~~~(size - 1)).toBitVec &&& (x &&& (size - 1)).toBitVec = 0#32 := by
    apply BitVec.eq_of_getLsbD_eq
    intro i hi
    simp
    grind
  have hwhole : (x &&& ~~~(size - 1)).toBitVec ||| (x &&& (size - 1)).toBitVec = x.toBitVec := by
    apply BitVec.eq_of_getLsbD_eq
    intro i hi
    simp [hi]
    grind
  have hsum := BitVec.toNat_add_of_and_eq_zero hdisjoint
  rw [BitVec.add_eq_or_of_and_eq_zero _ _ hdisjoint, hwhole] at hsum
  have hmod := toNat_and_sub_one h x
  have hdiv := Nat.div_add_mod x.toNat size.toNat
  change x.toNat = (x &&& ~~~(size - 1)).toNat + (x &&& (size - 1)).toNat at hsum
  rw [Nat.mul_comm] at hdiv
  omega

end Digic
