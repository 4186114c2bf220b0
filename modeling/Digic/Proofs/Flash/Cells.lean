import Digic.Flash.Bank
import Digic.Memory.Lemmas
import Digic.Proofs.Bus.PowerOfTwo
import Mathlib.Data.Nat.ModEq
/-!
# What a command does to the cells of a bank

A bank whose size is a power of two repeats with it, so that an offset is a remainder. A word that is
programmed lies on the four places behind its offset, around the end of the bank too, and an erase
fills the whole bank or the block that holds the offset.
-/
namespace Digic.Flash

open Memory

namespace Bank

def place (b : Bank) (offset : UInt32) (i : Nat) : UInt32 := b.wrap (offset + i.toUInt32)

/-- A bank that repeats with its size, and has room for a word. -/
structure Sound (b : Bank) : Prop where
  powerOfTwo : isPowerOfTwo b.size = true
  word : 4 ≤ b.size.toNat

/-- The four bytes behind an offset were programmed with those of a word, and nothing else was
changed. -/
def Programmed (b b' : Bank) (offset value : UInt32) : Prop :=
  (∀ i < 4, b'.cells.byte (b.place offset i) =
    b.cells.byte (b.place offset i) &&& byteOfWord value i) ∧
  ∀ x, (∀ i < 4, x ≠ b.place offset i) → b'.cells.byte x = b.cells.byte x

def Erased (b' : Bank) : Prop := ∀ x, b'.cells.byte x = 0xFF

/-- The bytes of the bank that lie in the same block as an offset were erased, and no other one was
changed. -/
def BlockErased (b b' : Bank) (offset : UInt32) : Prop :=
  ∀ x < b.size, b'.cells.byte x =
    if x.toNat / (b.blockSize (offset >>> 1)).toNat =
      offset.toNat / (b.blockSize (offset >>> 1)).toNat
    then 0xFF else b.cells.byte x

variable {b : Bank}

theorem toNat_wrap (hb : b.Sound) (offset : UInt32) :
    (b.wrap offset).toNat = offset.toNat % b.size.toNat :=
  toNat_and_sub_one hb.powerOfTwo offset

theorem wrap_lt (hb : b.Sound) (offset : UInt32) : b.wrap offset < b.size := by
  rw [UInt32.lt_iff_toNat_lt, toNat_wrap hb]
  exact Nat.mod_lt _ (toNat_pos_of_isPowerOfTwo hb.powerOfTwo)

/-- The bytes behind an offset go on around the end of the bank, however small it is. -/
theorem toNat_place_of_isPowerOfTwo (hsize : isPowerOfTwo b.size = true) (offset : UInt32)
    (i : Nat) : (b.place offset i).toNat = (offset.toNat + i) % b.size.toNat := by
  have hdvd := toNat_dvd_of_isPowerOfTwo hsize
  rw [place, wrap, toNat_and_sub_one hsize, UInt32.toNat_add, Nat.mod_mod_of_dvd _ hdvd,
    Nat.toUInt32, UInt32.toNat_ofNat', Nat.add_mod, Nat.mod_mod_of_dvd _ hdvd, ← Nat.add_mod]

theorem toNat_place (hb : b.Sound) (offset : UInt32) (i : Nat) :
    (b.place offset i).toNat = (offset.toNat + i) % b.size.toNat :=
  toNat_place_of_isPowerOfTwo hb.powerOfTwo offset i

/-- The four bytes of a word lie on places of their own. -/
theorem place_inj (hb : b.Sound) {offset : UInt32} {i j : Nat} (hi : i < 4) (hj : j < 4)
    (h : b.place offset i = b.place offset j) : i = j := by
  have hnat := congrArg UInt32.toNat h
  rw [toNat_place hb, toNat_place hb] at hnat
  have hmod : i ≡ j [MOD b.size.toNat] := Nat.ModEq.add_left_cancel' _ hnat
  have hword := hb.word
  exact hmod.eq_of_lt_of_lt (by omega) (by omega)

theorem byte_updateByte (b : Bank) (offset : UInt32) (i : Nat) (f : UInt8 → UInt8) (x : UInt32) :
    (b.updateByte offset i f).cells.byte x =
      if x = b.place offset i then f (b.cells.byte x) else b.cells.byte x := by
  rw [updateByte, byte_setByte]
  by_cases h : x = b.place offset i
  · rw [if_pos h, h]
    exact if_pos rfl
  · rw [if_neg h]
    exact if_neg h

/-- Where a bank lies and how large it is does not change with its bytes. -/
theorem layout_updateWord (b : Bank) (offset value : UInt32) (f : UInt8 → UInt8 → UInt8) :
    (b.updateWord offset value f).base = b.base ∧
      (b.updateWord offset value f).size = b.size := by
  rw [updateWord]
  induction List.range 4 generalizing b with
  | nil => exact ⟨rfl, rfl⟩
  | cons i places ih => exact ih (b.updateByte offset i (f · (byteOfWord value i)))

/-- The bytes of a word after some of them were changed, one after the other. -/
theorem byte_foldl_updateByte (hb : b.Sound) (offset : UInt32) (f : Nat → UInt8 → UInt8) (n : Nat)
    (hn : n ≤ 4) :
    let b' := (List.range n).foldl (fun b i => b.updateByte offset i (f i)) b
    (∀ o i, b'.place o i = b.place o i) ∧
    (∀ i < 4, b'.cells.byte (b.place offset i) =
      if i < n then f i (b.cells.byte (b.place offset i)) else b.cells.byte (b.place offset i)) ∧
    ∀ x, (∀ i < 4, x ≠ b.place offset i) → b'.cells.byte x = b.cells.byte x := by
  induction n with
  | zero => exact ⟨fun _ _ => rfl, fun _ _ => rfl, fun _ _ => rfl⟩
  | succ n ih =>
    obtain ⟨hplace, hinside, houtside⟩ := ih (by omega)
    simp only [List.range_succ, List.foldl_append, List.foldl_cons, List.foldl_nil]
    refine ⟨hplace, fun i hi => ?_, fun x hx => ?_⟩
    · rw [byte_updateByte, hplace, hinside i hi]
      by_cases h : i = n
      · subst h
        simp
      · have hne : b.place offset i ≠ b.place offset n := fun e => h (place_inj hb hi (by omega) e)
        have hlt : i < n + 1 ↔ i < n := by omega
        rw [if_neg hne]
        simp only [hlt]
    · rw [byte_updateByte, hplace, if_neg (hx n (by omega))]
      exact houtside x hx

theorem byte_updateWord (hb : b.Sound) (offset value : UInt32) (f : UInt8 → UInt8 → UInt8) :
    (∀ i < 4, (b.updateWord offset value f).cells.byte (b.place offset i) =
      f (b.cells.byte (b.place offset i)) (byteOfWord value i)) ∧
    ∀ x, (∀ i < 4, x ≠ b.place offset i) →
      (b.updateWord offset value f).cells.byte x = b.cells.byte x := by
  obtain ⟨-, hinside, houtside⟩ :=
    byte_foldl_updateByte hb offset (fun i old => f old (byteOfWord value i)) 4 (Nat.le_refl 4)
  refine ⟨fun i hi => ?_, houtside⟩
  have hbyte := hinside i hi
  rwa [if_pos hi] at hbyte

theorem programmed_program (hb : b.Sound) (offset value : UInt32) :
    b.Programmed (b.program offset value) offset value :=
  byte_updateWord hb offset value fun old new => old &&& new

theorem erased_eraseChip (b : Bank) : b.eraseChip.Erased := fun x => byte_blank 0xFF x

theorem isPowerOfTwo_blockSize (b : Bank) (word : UInt32) :
    isPowerOfTwo (b.blockSize word) = true := by
  rw [blockSize]
  split <;> decide

/-- An erase fills the bytes of the bank whose place is in the same block, and no other ones. -/
theorem byte_eraseBlock (b : Bank) {offset : UInt32} (hoffset : offset < b.size) (x : UInt32) :
    (b.eraseBlock offset).cells.byte x =
      if x < b.size ∧ x.toNat / (b.blockSize (offset >>> 1)).toNat =
        offset.toNat / (b.blockSize (offset >>> 1)).toNat
      then 0xFF else b.cells.byte x := by
  have hpower := b.isPowerOfTwo_blockSize (offset >>> 1)
  have hpos := toNat_pos_of_isPowerOfTwo hpower
  have hstart : (b.blockStart offset).toNat =
      offset.toNat / (b.blockSize (offset >>> 1)).toNat * (b.blockSize (offset >>> 1)).toNat :=
    toNat_and_not_sub_one hpower offset
  have hbyte := byte_overlay b.cells (b.blockStart offset) (b.blockLength offset)
    (fun _ => 0xFF) x
  -- A place before the block has a distance from its start that wraps, and is too long.
  have hinside : (x - b.blockStart offset).toNat < b.blockLength offset ↔
      x < b.size ∧ x.toNat / (b.blockSize (offset >>> 1)).toNat =
        offset.toNat / (b.blockSize (offset >>> 1)).toNat := by
    have hle := Nat.div_mul_le_self offset.toNat (b.blockSize (offset >>> 1)).toNat
    have hsize := b.size.toNat_lt
    have hx := x.toNat_lt
    rw [UInt32.lt_iff_toNat_lt] at hoffset ⊢
    rw [blockLength, UInt32.toNat_sub, hstart, Nat.div_eq_iff hpos]
    omega
  rw [eraseBlock, hbyte]
  simp only [hinside]

theorem blockErased_eraseBlock (b : Bank) {offset : UInt32} (hoffset : offset < b.size) :
    b.BlockErased (b.eraseBlock offset) offset := by
  intro x hx
  rw [b.byte_eraseBlock hoffset x]
  simp only [hx, true_and]

end Bank

end Digic.Flash
