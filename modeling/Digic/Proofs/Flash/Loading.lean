import Digic.Proofs.Flash.Banks
/-!
# Images in a bank

An image that is copied into a bank stands there byte by byte, and whatever command was going on in
the bank is ended. An image that reaches past the end of the bank is refused. The other bank has no
part in it.
-/
namespace Digic.Flash

/-- A bank after `length` bytes were put into it from a place on: they stand there, the command that
was going on is ended, and all else is as it was. -/
structure Bank.Loaded (b b' : Bank) (start length : Nat) (bytes : Nat → Option UInt8) : Prop where
  inside : ∀ i < length, bytes i = some (b'.cells.byte (start + i).toUInt32)
  outside : ∀ place : UInt32, ¬ (start ≤ place.toNat ∧ place.toNat < start + length) →
    b'.cells.byte place = b.cells.byte place
  state : b'.state = .ready
  base : b'.base = b.base
  size : b'.size = b.size
  statusReads : b'.statusReads = b.statusReads

structure Banks.Loaded (f f' : Banks) (n : Fin 2) (start length : Nat)
    (bytes : Nat → Option UInt8) : Prop where
  bank : (f.bank n).Loaded (f'.bank n) start length bytes
  other : ∀ m, m ≠ n → f'.bank m = f.bank m
  commands : f'.commands = f.commands

/-- Only the bytes that were put there matter. -/
theorem Banks.Loaded.congr {f f' : Banks} {n : Fin 2} {start length : Nat}
    {bytes bytes' : Nat → Option UInt8} (h : f.Loaded f' n start length bytes)
    (hbytes : ∀ i < length, bytes' i = bytes i) : f.Loaded f' n start length bytes' where
  bank := { h.bank with inside := fun i hi => (hbytes i hi).trans (h.bank.inside i hi) }
  other := h.other
  commands := h.commands

def Bank.withImage (b : Bank) (offset : UInt32) (image : ByteArray) : Bank :=
  { b with cells := b.cells.write offset image, state := .ready }

/-- Within a bank an image does not wrap around the top of its cells. -/
theorem Bank.loaded_withImage (b : Bank) {offset : UInt32} {image : ByteArray}
    (hfits : offset.toNat + image.size ≤ b.size.toNat) :
    b.Loaded (b.withImage offset image) offset.toNat image.size (image[·]?) := by
  have hsize := b.size.toNat_lt
  refine ⟨fun i hi => ?_, fun place hplace => ?_, rfl, rfl, rfl, rfl⟩
  · have hback : ((offset.toNat + i).toUInt32 - offset).toNat = i := by
      have hplace : offset.toNat + i < 2 ^ 32 := by omega
      rw [UInt32.toNat_sub, Nat.toUInt32_eq, UInt32.toNat_ofNat_of_lt' hplace]
      omega
    rw [withImage, Memory.byte_write, hback, getElem?_pos image i hi, Option.getD_some]
  · have hpast : image.size ≤ (place - offset).toNat := by
      have hlt := place.toNat_lt
      rw [UInt32.toNat_sub]
      omega
    rw [withImage, Memory.byte_write, getElem?_neg image _ (by omega), Option.getD_none]

theorem get?_eq_bank (f : Banks) (n : Fin 2) : f.get? n = some (f.bank n) := get?_eq_some f n

theorem bank_set (f : Banks) (b : Bank) (m n : Fin 2) :
    (f.set m b).bank n = if m = n then b else f.bank n :=
  getElem_set f b m n

theorem Banks.load_of_fits (f : Banks) (n : Fin 2) {offset : UInt32} {image : ByteArray}
    (hfits : offset.toNat + image.size ≤ (f.bank n).size.toNat) :
    f.load n offset image = (f.set n ((f.bank n).withImage offset image), .ok ()) := by
  rw [load, get?_eq_bank f n]
  simp only [Bank.load, if_pos hfits]
  rfl

theorem Banks.load_of_not_fits (f : Banks) (n : Fin 2) {offset : UInt32} {image : ByteArray}
    (hfits : ¬ offset.toNat + image.size ≤ (f.bank n).size.toNat) :
    f.load n offset image = (f, .error (.romTooLarge n offset image.size (f.bank n).size)) := by
  rw [load, get?_eq_bank f n]
  simp only [Bank.load, if_neg hfits]
  rw [bank, set_self]

theorem Banks.load_of_le (f : Banks) {number : Nat} (h : 2 ≤ number) (offset : UInt32)
    (image : ByteArray) : f.load number offset image = (f, .error (.romBankMissing number)) := by
  rw [load, get?_eq_none f h]

/-- An image that fits into its bank changes that bank. Any other is refused, and changes none. -/
theorem Banks.load_cases (f : Banks) (number : Nat) (offset : UInt32) (image : ByteArray) :
    (∃ n : Fin 2, n = number ∧ offset.toNat + image.size ≤ (f.bank n).size.toNat ∧
      f.load number offset image = (f.set n ((f.bank n).withImage offset image), .ok ())) ∨
    ((∀ n : Fin 2, n = number → ¬ offset.toNat + image.size ≤ (f.bank n).size.toNat) ∧
      ∃ e, f.load number offset image = (f, .error e)) := by
  by_cases hmissing : 2 ≤ number
  · exact .inr ⟨fun n hn => by omega, _, f.load_of_le hmissing offset image⟩
  · obtain ⟨n, rfl⟩ : ∃ n : Fin 2, n = number := ⟨⟨number, by omega⟩, rfl⟩
    by_cases hfits : offset.toNat + image.size ≤ (f.bank n).size.toNat
    · exact .inl ⟨n, rfl, hfits, f.load_of_fits n hfits⟩
    · refine .inr ⟨fun n' hn => ?_, _, f.load_of_not_fits n hfits⟩
      rwa [Fin.ext hn]

theorem Banks.loaded_set (f : Banks) (n : Fin 2) {offset : UInt32} {image : ByteArray}
    (hfits : offset.toNat + image.size ≤ (f.bank n).size.toNat) :
    f.Loaded (f.set n ((f.bank n).withImage offset image)) n offset.toNat image.size
      (image[·]?) where
  bank := by
    rw [bank_set, if_pos rfl]
    exact (f.bank n).loaded_withImage hfits
  other m hm := by rw [bank_set, if_neg hm.symm]
  commands := rfl

end Digic.Flash
