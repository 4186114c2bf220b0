import Digic.Memory.Basic
/-!
# What is found in memory after a write

One lemma per operation that says which byte is found at an address afterwards: a run of bytes that
was stored is found from its start on, around the top of the address space too, and every other byte
is what it was. Words are read back as they were written.
-/
namespace Digic.Memory

theorem byte_blank (fill : UInt8) (a : UInt32) : (blank fill).byte a = fill := by
  simp [byte, blank]

theorem byte_eq_get_page (m : Memory) (a : UInt32) :
    m.byte a = (m.page (pageNumber a)).get (pageOffset a) := by
  unfold byte page
  cases m.pages[pageNumber a]? with
  | none => rw [Option.getD_none, Page.get_tabulate]
  | some p => rw [Option.getD_some]

theorem addressOf_pageNumber (a : UInt32) : addressOf (pageNumber a) (pageOffset a) = a := by
  apply UInt32.toNat_inj.1
  have := a.toNat_lt
  simp only [addressOf, pageNumber, pageOffset, pageSize, UInt32.toNat_add, UInt32.toNat_mul,
    UInt32.toNat_div, Nat.toUInt32, UInt32.toNat_ofNat', UInt32.reduceToNat]
  omega

theorem eq_of_pageNumber_eq {a b : UInt32} (hn : pageNumber a = pageNumber b)
    (ho : pageOffset a = pageOffset b) : a = b := by
  rw [← addressOf_pageNumber a, hn, ho, addressOf_pageNumber]

/-- A byte is found where it was stored, and nothing else is changed. -/
theorem byte_setByte (m : Memory) (a x : UInt32) (b : UInt8) :
    (m.setByte a b).byte x = if x = a then b else m.byte x := by
  by_cases hn : pageNumber a = pageNumber x
  · have hpage : (m.pages[pageNumber x]?).getD (Page.tabulate fun _ => m.fill) =
        m.page (pageNumber x) := rfl
    by_cases hx : x = a
    · subst hx
      simp [byte, setByte, Page.get_set]
    · have ho : pageOffset a ≠ pageOffset x := fun ho => hx (eq_of_pageNumber_eq hn ho).symm
      rw [if_neg hx, byte_eq_get_page m x]
      simp [byte, setByte, Page.get_set, hn, ho, hpage]
  · have hx : x ≠ a := fun e => hn (by rw [e])
    simp [byte, setByte, Std.HashMap.getElem?_alter, hn, hx]

theorem byte_overlayPage (start : UInt32) (length : Nat) (f : Nat → UInt8) (m : Memory)
    (number x : UInt32) :
    (overlayPage start length f m number).byte x =
      if pageNumber x = number ∧ (x - start).toNat < length then f (x - start).toNat
      else m.byte x := by
  by_cases hn : number = pageNumber x
  · subst hn
    rw [byte_eq_get_page m x]
    simp [byte, overlayPage, Page.get_tabulate, addressOf_pageNumber]
  · simp [byte, overlayPage, Std.HashMap.getElem?_insert, hn, Ne.symm hn]

theorem byte_foldl_overlayPage (start : UInt32) (length : Nat) (f : Nat → UInt8)
    (numbers : List UInt32) (m : Memory) (x : UInt32) :
    (numbers.foldl (overlayPage start length f) m).byte x =
      if pageNumber x ∈ numbers ∧ (x - start).toNat < length then f (x - start).toNat
      else m.byte x := by
  induction numbers generalizing m with
  | nil => simp
  | cons number numbers ih =>
    rw [List.foldl_cons, ih, byte_overlayPage]
    by_cases hn : pageNumber x = number <;> by_cases hm : pageNumber x ∈ numbers <;>
      by_cases hl : (x - start).toNat < length <;> simp [hn, hm, hl]

/-- Every address of a run lies on a page that the run touches. -/
theorem pageNumber_mem_touchedPages {start x : UInt32} {length : Nat}
    (h : (x - start).toNat < length) : pageNumber x ∈ touchedPages start length := by
  have hx := x.toNat_lt
  have hs := start.toNat_lt
  have hd : (x - start).toNat = (2 ^ 32 - start.toNat + x.toNat) % 2 ^ 32 := UInt32.toNat_sub ..
  have hwrap : x.toNat = (start.toNat + (x - start).toNat) % 2 ^ 32 := by omega
  have hk := (x - start).toNat_lt
  generalize (x - start).toNat = k at h hwrap hk
  let place := (start.toNat % pageSize + k) / pageSize % 2 ^ 20
  simp only [touchedPages, List.mem_map, List.mem_range]
  refine ⟨place, ?_, ?_⟩
  · simp only [place, pageSize]
    omega
  · apply UInt32.toNat_inj.1
    simp only [place, pageNumber, pageSize, UInt32.toNat_add, UInt32.toNat_mod, UInt32.toNat_div,
      Nat.toUInt32, UInt32.toNat_ofNat', UInt32.reduceToNat]
    omega

/-- What is stored from an address on is found there, and nothing else is changed. -/
theorem byte_overlay (m : Memory) (start : UInt32) (length : Nat) (f : Nat → UInt8) (x : UInt32) :
    (m.overlay start length f).byte x =
      if (x - start).toNat < length then f (x - start).toNat else m.byte x := by
  rw [overlay, byte_foldl_overlayPage]
  by_cases h : (x - start).toNat < length
  · simp [h, pageNumber_mem_touchedPages h]
  · simp [h]

theorem byte_write (m : Memory) (start : UInt32) (bytes : ByteArray) (x : UInt32) :
    (m.write start bytes).byte x = (bytes[(x - start).toNat]?).getD (m.byte x) := by
  rw [write, byte_overlay]
  by_cases h : (x - start).toNat < bytes.size <;> simp [h]

/-- How far a place lies behind an address that is moved on, around the top of memory. -/
theorem toNat_sub_add (x a k : UInt32) :
    (x - (a + k)).toNat = (0x100000000 - k.toNat + (x - a).toNat) % 0x100000000 := by
  have hsub : x - (a + k) = x - a - k := by grind
  rw [hsub]
  exact UInt32.toNat_sub ..

/-- A word is stored as four bytes, the lowest first. -/
theorem byte_writeWord (m : Memory) (a w x : UInt32) :
    (m.writeWord a w).byte x =
      if (x - a).toNat < 4 then byteOfWord w (x - a).toNat else m.byte x := by
  obtain ⟨k, rfl⟩ : ∃ k, x = a + k := ⟨x - a, by rw [UInt32.add_comm, UInt32.sub_add_cancel]⟩
  have hk : a + k - a = k := by rw [UInt32.add_comm, UInt32.add_sub_cancel]
  have h0 : a + k = a ↔ k = 0 := by simp
  simp only [writeWord, byte_setByte, hk, h0, UInt32.add_right_inj]
  by_cases h : k.toNat < 4
  · have : k = 0 ∨ k = 1 ∨ k = 2 ∨ k = 3 := by
      simp only [← UInt32.toNat_inj, UInt32.reduceToNat]
      omega
    rcases this with rfl | rfl | rfl | rfl <;> rfl
  · have h3 : k ≠ 3 ∧ k ≠ 2 ∧ k ≠ 1 ∧ k ≠ 0 := by
      simp only [ne_eq, ← UInt32.toNat_inj, UInt32.reduceToNat]
      omega
    simp [h, h3]

theorem getLsbD_byteOfWord (w : UInt32) (i j : Nat) (hi : i < 4) :
    (byteOfWord w i).toBitVec.getLsbD j =
      (decide (j < 8) && w.toBitVec.getLsbD (8 * i + j)) := by
  simp only [byteOfWord, UInt32.toBitVec_toUInt8, UInt32.toBitVec_shiftRight,
    BitVec.getLsbD_setWidth, BitVec.ushiftRight_eq', BitVec.getLsbD_ushiftRight, Nat.toUInt32]
  congr 3
  simp
  omega

theorem wordOfBytes_byteOfWord (w : UInt32) :
    wordOfBytes (byteOfWord w 0) (byteOfWord w 1) (byteOfWord w 2) (byteOfWord w 3) = w := by
  apply UInt32.toBitVec_inj.1
  apply BitVec.eq_of_getLsbD_eq
  intro j hj
  simp [wordOfBytes, getLsbD_byteOfWord]
  grind

/-- A word is read back as it was written. -/
theorem readWord_writeWord (m : Memory) (a w : UInt32) : (m.writeWord a w).readWord a = w := by
  have h (k : UInt32) : a + k - a = k := by rw [UInt32.add_comm, UInt32.add_sub_cancel]
  simpa [readWord, byte_writeWord, h] using wordOfBytes_byteOfWord w

theorem byteOfWord_wordOfBytes (b : Nat → UInt8) {i : Nat} (hi : i < 4) :
    byteOfWord (wordOfBytes (b 0) (b 1) (b 2) (b 3)) i = b i := by
  apply UInt8.toBitVec_inj.1
  apply BitVec.eq_of_getLsbD_eq
  intro j hj
  have hcases : i = 0 ∨ i = 1 ∨ i = 2 ∨ i = 3 := by omega
  rw [getLsbD_byteOfWord _ _ _ hi]
  rcases hcases with rfl | rfl | rfl | rfl <;> simp [wordOfBytes] <;> grind

/-- The bits that two words share are those that their bytes share. -/
theorem wordOfBytes_and (x₀ x₁ x₂ x₃ y₀ y₁ y₂ y₃ : UInt8) :
    wordOfBytes (x₀ &&& y₀) (x₁ &&& y₁) (x₂ &&& y₂) (x₃ &&& y₃) =
      wordOfBytes x₀ x₁ x₂ x₃ &&& wordOfBytes y₀ y₁ y₂ y₃ := by
  apply UInt32.toBitVec_inj.1
  apply BitVec.eq_of_getLsbD_eq
  intro j hj
  simp [wordOfBytes]
  grind

/-- The bytes of a word that is read are those that stand there. -/
theorem byteOfWord_readWord (m : Memory) (a : UInt32) {i : Nat} (hi : i < 4) :
    byteOfWord (m.readWord a) i = m.byte (a + i.toUInt32) := by
  have hbytes := byteOfWord_wordOfBytes (fun i => m.byte (a + i.toUInt32)) hi
  simpa [readWord] using hbytes

theorem toList_readInto (m : Memory) (a : UInt32) (n : Nat) (acc : ByteArray) :
    (readInto m a n acc).data.toList =
      acc.data.toList ++ (List.range n).map fun i => m.byte (a + i.toUInt32) := by
  induction n generalizing a acc with
  | zero => simp [readInto]
  | succ n ih =>
    have next (i : Nat) : a + 1 + i.toUInt32 = a + (i + 1).toUInt32 := by
      simp [UInt32.ofNat_add, UInt32.add_assoc, UInt32.add_comm 1]
    rw [readInto, ih, List.range_succ_eq_map]
    simp [next]

/-- The bytes that are read are those from the start on. -/
theorem toList_read (m : Memory) (start : UInt32) (length : Nat) :
    (m.read start length).data.toList =
      (List.range length).map fun i => m.byte (start + i.toUInt32) := by
  rw [read, toList_readInto]
  rfl

theorem size_read (m : Memory) (start : UInt32) (length : Nat) :
    (m.read start length).size = length := by
  rw [← ByteArray.size_data, ← Array.length_toList, toList_read]
  simp

/-- Byte `i` of what is read stands `i` places behind the start. -/
theorem getElem?_read (m : Memory) (start : UInt32) {length i : Nat} (h : i < length) :
    (m.read start length)[i]? = some (m.byte (start + i.toUInt32)) := by
  have hlist : (m.read start length).data.toList[i]? = some (m.byte (start + i.toUInt32)) := by
    rw [toList_read]
    simp [h]
  rw [← hlist, Array.getElem?_toList]
  rfl

/-- What is read at one place and stored at another is found there. -/
theorem byte_write_read (m : Memory) (source destination : UInt32) (length : Nat) (x : UInt32) :
    (m.write destination (m.read source length)).byte x =
      if (x - destination).toNat < length then m.byte (source + (x - destination))
      else m.byte x := by
  have hsize := m.size_read source length
  rw [byte_write]
  split
  case isTrue h =>
    rw [getElem?_read m source h, Option.getD_some, Nat.toUInt32, UInt32.ofNat_toNat]
  case isFalse h =>
    rw [getElem?_neg _ _ (by omega), Option.getD_none]

end Digic.Memory
