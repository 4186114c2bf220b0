import Digic.Memory.Lemmas
import Digic.Proofs.Bus.PowerOfTwo
import Digic.Sd.Host
/-!
# Commands and responses in registers

A command is spelled by the two command registers, with bits around it that say nothing. A response
that is not empty can be read off the response registers again.
-/
namespace Digic.Sd

open Memory

section Commands

variable {κ : Type}

/-- The command registers spell a command: its index stands in the second byte of the high one, with
or without the bit that marks the start of a command, and its argument across both. -/
structure Host.Spells (h : Host κ) (r : Request) : Prop where
  index_lt : r.command < 64
  index : (h.commandHigh >>> 8).toUInt8 = r.command ∨
    (h.commandHigh >>> 8).toUInt8 = 0x40 + r.command
  high : h.commandHigh.toUInt8 = (r.argument >>> 24).toUInt8
  low : h.commandLow >>> 8 = r.argument &&& 0xFFFFFF

theorem and_not_start_of_index {index byte : UInt8} (hlt : index < 64)
    (hbyte : byte = index ∨ byte = 0x40 + index) : byte &&& ~~~0x40 = index := by
  have hall : ∀ n : Fin 64, UInt8.ofNat n &&& ~~~0x40 = UInt8.ofNat n ∧
      (0x40 + UInt8.ofNat n) &&& ~~~0x40 = UInt8.ofNat n := by
    decide
  obtain ⟨hplain, hmarked⟩ := hall ⟨index.toNat, hlt⟩
  rw [UInt8.ofNat_toNat] at hplain hmarked
  rcases hbyte with rfl | rfl
  · exact hplain
  · exact hmarked

theorem or_shiftLeft_of_halves {low high argument : UInt32}
    (hlow : low >>> 8 = argument &&& 0xFFFFFF)
    (hhigh : high.toUInt8 = (argument >>> 24).toUInt8) :
    low >>> 8 ||| (high &&& 0xFF) <<< 24 = argument := by
  have hargument := argument.toNat_lt
  have hbyte : high.toNat % 256 = argument.toNat / 2 ^ 24 := by
    have hnat := congrArg UInt8.toNat hhigh
    simp only [UInt32.toNat_toUInt8, UInt32.toNat_shiftRight, UInt32.reduceToNat,
      Nat.shiftRight_eq_div_pow, Nat.reduceMod, Nat.reducePow] at hnat
    omega
  have hfirst : (argument &&& 0xFFFFFF).toNat = argument.toNat % 2 ^ 24 :=
    toNat_and_sub_one (by decide : isPowerOfTwo 0x1000000 = true) argument
  have hlast : ((high &&& 0xFF) <<< 24).toNat = 2 ^ 24 * (argument.toNat / 2 ^ 24) := by
    have hmask : (high &&& 0xFF).toNat = high.toNat % 256 :=
      toNat_and_sub_one (by decide : isPowerOfTwo 0x100 = true) high
    rw [UInt32.toNat_shiftLeft, hmask, hbyte, Nat.shiftLeft_eq]
    simp only [UInt32.reduceToNat, Nat.reduceMod, Nat.reducePow]
    omega
  apply UInt32.toNat_inj.1
  rw [hlow, UInt32.toNat_or, hfirst, hlast, Nat.or_comm,
    ← Nat.two_pow_add_eq_or_of_lt (Nat.mod_lt _ (Nat.two_pow_pos 24)), Nat.div_add_mod]

/-- What is spelled is what is put to the card. -/
theorem Host.Spells.request_eq {h : Host κ} {r : Request} (hs : h.Spells r) : h.request = r := by
  have hcommand : ((h.commandHigh >>> 8) &&& ~~~0x40).toUInt8 = r.command := by
    rw [UInt32.toUInt8_and]
    exact and_not_start_of_index hs.index_lt hs.index
  rw [Host.request, hcommand, or_shiftLeft_of_halves hs.low hs.high]

end Commands

theorem bigEndian_eq_wordOfBytes (b0 b1 b2 b3 : UInt8) :
    bigEndian b0 b1 b2 b3 = wordOfBytes b3 b2 b1 b0 := by
  rw [bigEndian, wordOfBytes, UInt32.or_comm _ b3.toUInt32, UInt32.or_comm _ (b2.toUInt32 <<< 8),
    UInt32.or_comm (b0.toUInt32 <<< 24), UInt32.or_assoc, UInt32.or_assoc]

/-- The bytes of a big-endian word stand in it from the top down. -/
theorem byteOfWord_bigEndian (b0 b1 b2 b3 : UInt8) {i : Nat} (hi : i < 4) :
    byteOfWord (bigEndian b0 b1 b2 b3) (3 - i) = #v[b0, b1, b2, b3][i] := by
  have hbyte {k : Nat} (hk : k < 4) :=
    byteOfWord_wordOfBytes (fun k => [b3, b2, b1, b0].getD k 0) hk
  have hcases : i = 0 ∨ i = 1 ∨ i = 2 ∨ i = 3 := by omega
  rw [bigEndian_eq_wordOfBytes]
  rcases hcases with rfl | rfl | rfl | rfl <;> exact hbyte (by decide)

def shortPayload (words : Vector UInt32 4) : Vector UInt8 4 :=
  #v[byteOfWord (words.get 1) 0, byteOfWord (words.get 0) 3, byteOfWord (words.get 0) 2,
    byteOfWord (words.get 0) 1]

def longPayload (words : Vector UInt32 4) : Vector UInt8 16 :=
  Vector.ofFn fun i => byteOfWord words[3 - i.val / 4] (3 - i.val % 4)

theorem shortPayload_of_responseWords {b : Vector UInt8 4} {words : Vector UInt32 4}
    (hwords : responseWords (.short b) = some words) : shortPayload words = b := by
  cases hwords
  have hfirst {i : Nat} (hi : i < 4) := byteOfWord_bigEndian b[1] b[2] b[3] 0 hi
  have hlast : byteOfWord (bigEndian 0 0 0 b[0]) 0 = b[0] :=
    byteOfWord_bigEndian 0 0 0 b[0] (i := 3) (by decide)
  apply Vector.ext
  intro i hi
  have hcases : i = 0 ∨ i = 1 ∨ i = 2 ∨ i = 3 := by omega
  rcases hcases with rfl | rfl | rfl | rfl
  · exact hlast
  · exact hfirst (i := 0) (by decide)
  · exact hfirst (i := 1) (by decide)
  · exact hfirst (i := 2) (by decide)

theorem longPayload_of_responseWords {b : Vector UInt8 16} {words : Vector UInt32 4}
    (hwords : responseWords (.long b) = some words) : longPayload words = b := by
  cases hwords
  -- The words stand the other way round, and so do the bytes of each.
  have hword {q : Nat} (hq : q < 4) : #v[
      bigEndian b[12] b[13] b[14] b[15], bigEndian b[8] b[9] b[10] b[11],
      bigEndian b[4] b[5] b[6] b[7], bigEndian b[0] b[1] b[2] b[3]][3 - q] =
        bigEndian b[4 * q] b[4 * q + 1] b[4 * q + 2] b[4 * q + 3] := by
    have hcases : q = 0 ∨ q = 1 ∨ q = 2 ∨ q = 3 := by omega
    rcases hcases with rfl | rfl | rfl | rfl <;> rfl
  have hbyte {q r : Nat} (hq : q < 4) (hr : r < 4) :
      byteOfWord (bigEndian b[4 * q] b[4 * q + 1] b[4 * q + 2] b[4 * q + 3]) (3 - r) =
        b[4 * q + r] := by
    rw [byteOfWord_bigEndian _ _ _ _ hr]
    have hcases : r = 0 ∨ r = 1 ∨ r = 2 ∨ r = 3 := by omega
    rcases hcases with rfl | rfl | rfl | rfl <;> rfl
  apply Vector.ext
  intro i hi
  rw [longPayload, Vector.getElem_ofFn, hword (by omega), hbyte (by omega) (by omega)]
  simp only [Nat.div_add_mod]

end Digic.Sd
