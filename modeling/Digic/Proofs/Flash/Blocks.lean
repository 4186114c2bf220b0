import Digic.Proofs.Flash.Cells
/-!
# Erase blocks

A bank is divided into blocks, each of which is erased as a whole. Parts of 32 megabits have small
blocks at both ends and large ones between; the size is looked up by the word that an erase is
addressed to. At the upper end the small blocks are meant to begin at the word 0x1F0000, but that
word itself is still taken for one of a large block, which covers eight small ones. Everywhere else
two blocks are the same or have nothing in common.
-/
namespace Digic.Flash.Bank

open Memory

/-- Whether an erase at an offset fills a place, whatever the cells were. -/
def Fills (b : Bank) (offset x : UInt32) : Prop :=
  ∀ cells, ({ b with cells }.eraseBlock offset).cells.byte x = 0xFF

/-- Whether a byte lies in the word where the small blocks of the upper end should begin. -/
def AtUpperEdge (offset : UInt32) : Prop := offset >>> 1 = 0x1F0000

variable {b : Bank}

theorem fills_iff {offset : UInt32} (hoffset : offset < b.size) (x : UInt32) :
    b.Fills offset x ↔ x < b.size ∧ x.toNat / (b.blockSize (offset >>> 1)).toNat =
      offset.toNat / (b.blockSize (offset >>> 1)).toNat := by
  have hbyte (cells : Memory) := { b with cells }.byte_eraseBlock hoffset x
  constructor
  · intro hfills
    by_contra hout
    have hblank := hfills (.blank 0)
    rw [hbyte, byte_blank] at hblank
    exact absurd (hblank.symm.trans (if_neg hout)) (by decide)
  · intro hin cells
    rw [hbyte]
    exact if_pos hin

theorem toNat_word (offset : UInt32) : (offset >>> 1).toNat = offset.toNat / 2 := by
  simp [UInt32.toNat_shiftRight, Nat.shiftRight_eq_div_pow]

theorem atUpperEdge_iff (offset : UInt32) :
    AtUpperEdge offset ↔ offset.toNat = 0x3E0000 ∨ offset.toNat = 0x3E0001 := by
  rw [AtUpperEdge, ← UInt32.toNat_inj, toNat_word]
  simp only [UInt32.reduceToNat]
  omega

theorem blockSize_eq_or (b : Bank) (word : UInt32) :
    b.blockSize word = 0x10000 ∨ b.size = 0x400000 ∧ b.blockSize word = 0x2000 := by
  rw [blockSize]
  split
  case isTrue h => exact .inr ⟨h.1, rfl⟩
  case isFalse => exact .inl rfl

theorem blockSize_uniform (hsize : b.size ≠ 0x400000) (word : UInt32) :
    b.blockSize word = 0x10000 :=
  (b.blockSize_eq_or word).resolve_right fun h => hsize h.1

/-- Which blocks of a part of 32 megabits are small, by the byte that they are erased at. -/
theorem blockSize_boot (hsize : b.size = 0x400000) (offset : UInt32) :
    offset.toNat < 0x10000 ∧ b.blockSize (offset >>> 1) = 0x2000 ∨
    (0x10000 ≤ offset.toNat ∧ offset.toNat < 0x3E0002) ∧ b.blockSize (offset >>> 1) = 0x10000 ∨
    0x3E0002 ≤ offset.toNat ∧ b.blockSize (offset >>> 1) = 0x2000 := by
  have hword := toNat_word offset
  simp only [blockSize, hsize, true_and, UInt32.lt_iff_toNat_lt, hword, UInt32.reduceToNat]
  split <;> simp <;> omega

/-- A place that is filled by an erase has a block of the same size as the place that the erase is
addressed to, unless just one of the two lies at the upper edge. -/
theorem blockSize_eq_iff {first second : UInt32} (hfirst : first < b.size)
    (hfills : b.Fills first second) :
    b.blockSize (second >>> 1) = b.blockSize (first >>> 1) ↔
      (b.size = 0x400000 → (AtUpperEdge first ↔ AtUpperEdge second)) := by
  obtain ⟨-, hblock⟩ := (fills_iff hfirst second).1 hfills
  by_cases hsize : b.size = 0x400000
  · rw [← UInt32.toNat_inj]
    simp only [hsize, forall_const, atUpperEdge_iff]
    rcases blockSize_boot hsize first with ⟨hf, hs⟩ | ⟨hf, hs⟩ | ⟨hf, hs⟩ <;>
      rcases blockSize_boot hsize second with ⟨hf', hs'⟩ | ⟨hf', hs'⟩ | ⟨hf', hs'⟩ <;>
      simp only [hs, hs', UInt32.reduceToNat, true_iff] at hblock ⊢ <;>
      omega
  · simp [blockSize_uniform hsize, hsize]

/-- A large block is no small one. -/
theorem not_alike_of_sizes {large small : UInt32} (hlarge : large < b.size) (hsmall : small < b.size)
    (hsize : b.size = 0x400000) (hl : b.blockSize (large >>> 1) = 0x10000)
    (hs : b.blockSize (small >>> 1) = 0x2000) : ¬ ∀ x, b.Fills large x ↔ b.Fills small x := by
  intro halike
  -- The first and the last place of a large block are too far from each other for a small one.
  have hlow := halike (large &&& ~~~(0x10000 - 1))
  have hhigh := halike ((large &&& ~~~(0x10000 - 1)) + 0xFFFF)
  have hstart := toNat_and_not_sub_one (by decide : isPowerOfTwo 0x10000 = true) large
  have hlt := hlarge
  rw [hsize, UInt32.lt_iff_toNat_lt] at hlt
  simp only [fills_iff hlarge, fills_iff hsmall, hsize, hl, hs, UInt32.lt_iff_toNat_lt,
    UInt32.toNat_add, hstart, UInt32.reduceToNat] at hlow hhigh hlt
  omega

theorem alike_iff_blockSize_eq {first second : UInt32} (hfirst : first < b.size)
    (hfills : b.Fills first second) :
    (∀ x, b.Fills second x ↔ b.Fills first x) ↔
      b.blockSize (second >>> 1) = b.blockSize (first >>> 1) := by
  obtain ⟨hsecond, hblock⟩ := (fills_iff hfirst second).1 hfills
  constructor
  · intro halike
    rcases b.blockSize_eq_or (first >>> 1) with hf | ⟨hsize, hf⟩ <;>
      rcases b.blockSize_eq_or (second >>> 1) with hs | ⟨hsize', hs⟩
    · rw [hf, hs]
    · exact absurd (fun x => (halike x).symm) (not_alike_of_sizes hfirst hsecond hsize' hf hs)
    · exact absurd halike (not_alike_of_sizes hsecond hfirst hsize hs hf)
    · rw [hf, hs]
  · intro heq x
    rw [fills_iff hsecond, fills_iff hfirst, heq, hblock]

/-- An erase at a place that another erase fills has the same block to fill, unless just one of the
two is addressed to the upper edge of a part of 32 megabits. -/
theorem erases_alike_iff {first second : UInt32} (hfirst : first < b.size)
    (hfills : b.Fills first second) :
    (∀ x, b.Fills second x ↔ b.Fills first x) ↔
      (b.size = 0x400000 → (AtUpperEdge first ↔ AtUpperEdge second)) :=
  (alike_iff_blockSize_eq hfirst hfills).trans (blockSize_eq_iff hfirst hfills)

def bootPart : Bank := ⟨0xF8000000, 0x400000, .blank 0, .ready, 0⟩

/-- The last byte of the small blocks at the lower end, and the first byte of its block. -/
theorem erases_alike_iff_small :
    bootPart.Fills 0xFFFF 0xE000 ∧
      ∀ x, bootPart.Fills 0xE000 x ↔ bootPart.Fills 0xFFFF x := by
  have hfirst : (0xFFFF : UInt32) < bootPart.size := by decide
  have hfills : bootPart.Fills 0xFFFF 0xE000 := (fills_iff hfirst _).2 (by decide)
  refine ⟨hfills, (erases_alike_iff hfirst hfills).2 fun _ => ?_⟩
  simp only [atUpperEdge_iff, UInt32.reduceToNat]
  decide

/-- An erase in the first small block of the upper end fills the word at the edge, and an erase at
that word fills more. -/
theorem blocks_overlap_at_edge :
    isPowerOfTwo bootPart.size = true ∧ bootPart.Fills 0x3E0004 0x3E0000 ∧
      ¬ ∀ x, bootPart.Fills 0x3E0000 x ↔ bootPart.Fills 0x3E0004 x := by
  have hsmall : (0x3E0004 : UInt32) < bootPart.size := by decide
  have hlarge : (0x3E0000 : UInt32) < bootPart.size := by decide
  refine ⟨by decide, (fills_iff hsmall _).2 (by decide), ?_⟩
  exact not_alike_of_sizes hlarge hsmall rfl (by decide) (by decide)

end Digic.Flash.Bank
