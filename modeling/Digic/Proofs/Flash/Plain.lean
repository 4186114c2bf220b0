import Digic.Proofs.Flash.Loading
/-!
# Banks as plain memory

When writes are no cycles of commands, a bank is memory that repeats across its window. The bytes of
images and words are stored one after the other, each at its place in the bank, and what is read is
what was stored last. Where nothing was stored yet, the bank is erased. Of an image that is refused
nothing is stored.
-/
namespace Digic.Flash

open Bus Memory

/-- A use of the banks: an image is copied into one of them, or firmware accesses one. -/
inductive Use where
  | load (number : Nat) (offset : UInt32) (image : ByteArray)
  | access (a : Access)

def Banks.after (f : Banks) : Use → Banks
  | .load number offset image => (f.load number offset image).1
  | .access a => f.take a

def Banks.afterAll (f : Banks) (uses : List Use) : Banks := uses.foldl Banks.after f

/-- What a use stores in bank `n`, byte by byte, with the place of each byte in the bank. -/
def Use.stores (n : Fin 2) (l : RomLayout) : Use → List (Nat × UInt8)
  | .load number offset image =>
    if number = n ∧ offset.toNat + image.size ≤ l.size.toNat then
      (List.finRange image.size).map fun i : Fin image.size => (offset.toNat + i.val, image[i])
    else []
  | .access (.write c addr value) =>
    if c.window.param.toNat = n then
      (List.range 4).map fun j =>
        (((addr - l.base).toNat + j) % l.size.toNat, byteOfWord value j)
    else []
  | .access (.read _ _) => []

/-- The last byte that was stored at a place, if any; else what an erased bank holds. -/
def lastStored (stores : List (Nat × UInt8)) (place : Nat) : UInt8 :=
  (stores.filterMap fun e => if e.1 = place then some e.2 else none).getLast?.getD 0xFF

/-- A bank holds at each place what was stored there last. -/
structure Bank.Remembers (b : Bank) (l : RomLayout) (stores : List (Nat × UInt8)) : Prop where
  base : b.base = l.base
  size : b.size = l.size
  byte : ∀ place < l.size.toNat, b.cells.byte place.toUInt32 = lastStored stores place

theorem lastStored_concat (stores : List (Nat × UInt8)) (e : Nat × UInt8) (place : Nat) :
    lastStored (stores ++ [e]) place = if e.1 = place then e.2 else lastStored stores place := by
  rw [lastStored, List.filterMap_append]
  split
  · next h => simp [h]
  · next h => simp [h, lastStored]

theorem lastStored_of_mem {stores more : List (Nat × UInt8)} {place : Nat} {value : UInt8}
    (hvalue : ∀ e ∈ more, e.1 = place → e.2 = value) (hmem : ∃ e ∈ more, e.1 = place) :
    lastStored (stores ++ more) place = value := by
  induction more using List.reverseRecOn with
  | nil => simp at hmem
  | append_singleton more e ih =>
    rw [← List.append_assoc, lastStored_concat]
    split
    · next h => exact hvalue e (by simp) h
    · next h =>
      obtain ⟨first, hfirst, hplace⟩ := hmem
      have hmore : first ∈ more := by
        rcases List.mem_append.1 hfirst with hmore | hlast
        · exact hmore
        · exact absurd (List.mem_singleton.1 hlast ▸ hplace) h
      exact ih (fun e he => hvalue e (List.mem_append_left _ he)) ⟨first, hmore, hplace⟩

theorem lastStored_of_not_mem {stores more : List (Nat × UInt8)} {place : Nat}
    (h : ∀ e ∈ more, e.1 ≠ place) :
    lastStored (stores ++ more) place = lastStored stores place := by
  induction more using List.reverseRecOn with
  | nil => rw [List.append_nil]
  | append_singleton more e ih =>
    rw [← List.append_assoc, lastStored_concat, if_neg (h e (by simp))]
    exact ih fun e he => h e (List.mem_append_left _ he)

section Bank

variable {b : Bank} {l : RomLayout} {stores : List (Nat × UInt8)}

theorem toNat_toUInt32_place {place : Nat} (h : place < l.size.toNat) :
    place.toUInt32.toNat = place :=
  UInt32.toNat_ofNat_of_lt' (h.trans l.size.toNat_lt)

theorem remembers_ofLayout (l : RomLayout) : (Bank.ofLayout l).Remembers l [] :=
  ⟨rfl, rfl, fun place _ => byte_blank 0xFF place.toUInt32⟩

theorem remembers_updateByte (hsize : isPowerOfTwo l.size = true) (h : b.Remembers l stores)
    (offset : UInt32) (j : Nat) (value : UInt8) :
    (b.updateByte offset j fun _ => value).Remembers l
      (stores ++ [((offset.toNat + j) % l.size.toNat, value)]) := by
  refine ⟨h.base, h.size, fun place hplace => ?_⟩
  have hsame : place.toUInt32 = b.place offset j ↔ (offset.toNat + j) % l.size.toNat = place := by
    rw [← UInt32.toNat_inj, toNat_toUInt32_place hplace,
      Bank.toNat_place_of_isPowerOfTwo (h.size ▸ hsize), h.size]
    exact eq_comm
  rw [Bank.byte_updateByte, lastStored_concat]
  simp only [hsame, h.byte place hplace]

/-- The bytes of a word are stored one after the other, so that in a bank that has no room for all
of them the higher ones stay. -/
theorem remembers_store (hsize : isPowerOfTwo l.size = true) (h : b.Remembers l stores)
    (offset value : UInt32) :
    (b.store offset value).Remembers l (stores ++ (List.range 4).map fun j =>
      ((offset.toNat + j) % l.size.toNat, byteOfWord value j)) := by
  rw [Bank.store, Bank.updateWord]
  induction List.range 4 generalizing b stores with
  | nil => simpa using h
  | cons j js ih =>
    have hrest := ih (remembers_updateByte hsize h offset j (byteOfWord value j))
    rwa [List.append_assoc] at hrest

theorem remembers_withImage (h : b.Remembers l stores) {offset : UInt32} {image : ByteArray}
    (hfits : offset.toNat + image.size ≤ b.size.toNat) :
    (b.withImage offset image).Remembers l (stores ++ (List.finRange image.size).map
      fun i : Fin image.size => (offset.toNat + i.val, image[i])) := by
  have hloaded := b.loaded_withImage hfits
  refine ⟨hloaded.base.trans h.base, hloaded.size.trans h.size, fun place hplace => ?_⟩
  by_cases hin : offset.toNat ≤ place ∧ place < offset.toNat + image.size
  · obtain ⟨i, rfl⟩ : ∃ i, place = offset.toNat + i := ⟨place - offset.toNat, by omega⟩
    have hi : i < image.size := by omega
    have hbyte := hloaded.inside i hi
    rw [getElem?_pos image i hi] at hbyte
    rw [← Option.some.inj hbyte]
    refine (lastStored_of_mem ?_ ⟨(offset.toNat + i, image[i]), ?_, rfl⟩).symm
    · simp only [List.mem_map, List.mem_finRange, true_and]
      rintro e ⟨k, rfl⟩ hk
      obtain rfl : k.val = i := Nat.add_left_cancel hk
      rfl
    · exact List.mem_map.2 ⟨⟨i, hi⟩, List.mem_finRange _, rfl⟩
  · rw [hloaded.outside _ (by rwa [toNat_toUInt32_place hplace]), h.byte place hplace]
    refine (lastStored_of_not_mem ?_).symm
    simp only [List.mem_map, List.mem_finRange, true_and]
    rintro e ⟨k, rfl⟩ hk
    have hk' : offset.toNat + k.val = place := hk
    omega

/-- A word is read as what was stored last at each of its places. -/
theorem byteOfWord_readWord_of_remembers (hsize : isPowerOfTwo l.size = true)
    (h : b.Remembers l stores) (addr : UInt32) {i : Nat} (hi : i < 4) :
    byteOfWord (b.readWord (b.offset addr)) i =
      lastStored stores (((addr - l.base).toNat + i) % l.size.toNat) := by
  have hplace := Bank.toNat_place_offset_of_isPowerOfTwo (b := b) (h.size ▸ hsize) addr i
  rw [h.base, h.size] at hplace
  have hlt := Nat.mod_lt ((addr - l.base).toNat + i) (toNat_pos_of_isPowerOfTwo hsize)
  rw [Bank.byteOfWord_readWord hi, ← h.byte _ hlt, ← hplace, Nat.toUInt32, UInt32.ofNat_toNat]

end Bank

section Banks

variable {f : Banks} {c : Context} {n : Fin 2}

theorem read_plain (hplain : f.commands = false) (hn : c.window.param.toNat = n) (addr : UInt32)
    (effects : Array Effect) :
    Flash.read c addr ⟨f, effects⟩ =
      .ok ((f.bank n).readWord ((f.bank n).offset addr)) ⟨f, effects⟩ := by
  simp [-bind_pure_comp, Flash.read, Action.bind_apply, Action.device_apply, hn, get?_eq_bank,
    Banks.read, hplain, Action.update_apply, Action.pure_apply]

theorem take_write_plain (hplain : f.commands = false) (hn : c.window.param.toNat = n)
    (addr value : UInt32) :
    f.take (.write c addr value) =
      f.set n ((f.bank n).store ((f.bank n).offset addr) value) := by
  simp [-bind_pure_comp, Banks.take, stateAfter, Flash.write, Action.bind_apply,
    Action.device_apply, hn, get?_eq_bank, Banks.write, hplain, Action.update_apply,
    Action.pure_apply]

theorem take_read_plain (hplain : f.commands = false) (c : Context) (addr : UInt32) :
    f.take (.read c addr) = f := by
  by_cases hmissing : 2 ≤ c.window.param.toNat
  · exact take_of_le f hmissing
  · have hread := read_plain (n := ⟨c.window.param.toNat, by omega⟩) hplain rfl addr #[]
    rw [Banks.take, stateAfter, hread]

theorem state_store (b : Bank) (offset value : UInt32) :
    (b.store offset value).state = b.state := by
  rw [Bank.store, Bank.updateWord]
  induction List.range 4 generalizing b with
  | nil => rfl
  | cons j js ih => exact ih (b.updateByte offset j fun _ => byteOfWord value j)

/-- An access changes at most the cells of the bank that it names. -/
theorem frame_take (hplain : f.commands = false) (a : Access) :
    (f.take a).commands = f.commands ∧ ∀ m : Fin 2,
      ((f.take a).bank m).state = (f.bank m).state ∧
      (a.number ≠ m → (f.take a).bank m = f.bank m) := by
  cases a with
  | read c addr =>
    rw [take_read_plain hplain]
    exact ⟨rfl, fun m => ⟨rfl, fun _ => rfl⟩⟩
  | write c addr value =>
    by_cases hmissing : 2 ≤ c.window.param.toNat
    · rw [take_of_le f (a := .write c addr value) hmissing]
      exact ⟨rfl, fun m => ⟨rfl, fun _ => rfl⟩⟩
    · obtain ⟨k, hk⟩ : ∃ k : Fin 2, c.window.param.toNat = k :=
        ⟨⟨c.window.param.toNat, by omega⟩, rfl⟩
      rw [take_write_plain hplain hk]
      refine ⟨rfl, fun m => ⟨?_, fun hother => ?_⟩⟩
      · rw [bank_set]
        split
        · next h =>
          subst h
          rw [state_store]
        · rfl
      · have hne : k ≠ m := fun h => hother (h ▸ hk)
        rw [bank_set, if_neg hne]

/-- An image changes at most the bank that it is meant for. -/
theorem frame_load (f : Banks) (number : Nat) (offset : UInt32) (image : ByteArray) :
    (f.load number offset image).1.commands = f.commands ∧
      ∀ m : Fin 2, number ≠ m → (f.load number offset image).1.bank m = f.bank m := by
  rcases f.load_cases number offset image with ⟨k, rfl, -, h⟩ | ⟨-, e, h⟩ <;> rw [h]
  · refine ⟨rfl, fun m hother => ?_⟩
    rw [bank_set, if_neg fun h => hother (congrArg Fin.val h)]
  · exact ⟨rfl, fun m _ => rfl⟩

variable {l : RomLayout} {stores : List (Nat × UInt8)}

theorem remembers_after (hplain : f.commands = false) (hsize : isPowerOfTwo l.size = true)
    (h : (f.bank n).Remembers l stores) (use : Use) :
    (f.after use).commands = false ∧
      ((f.after use).bank n).Remembers l (stores ++ use.stores n l) := by
  cases use with
  | load number offset image =>
    have hframe := frame_load f number offset image
    refine ⟨hframe.1.trans hplain, ?_⟩
    rw [Banks.after, Use.stores, ← h.size]
    rcases f.load_cases number offset image with ⟨k, rfl, hfits, hload⟩ | ⟨hrefused, e, hload⟩
    · by_cases hk : k = n
      · subst hk
        rw [hload, bank_set, if_pos rfl, if_pos ⟨rfl, hfits⟩]
        exact remembers_withImage h hfits
      · have hother : k.val ≠ n.val := fun e => hk (Fin.ext e)
        rw [hframe.2 n hother, if_neg fun hn => hother hn.1, List.append_nil]
        exact h
    · rw [hload, if_neg fun hn => hrefused n hn.1.symm hn.2, List.append_nil]
      exact h
  | access a =>
    have hframe := frame_take hplain a
    refine ⟨hframe.1.trans hplain, ?_⟩
    rw [Banks.after]
    cases a with
    | read c addr =>
      rw [take_read_plain hplain, Use.stores, List.append_nil]
      exact h
    | write c addr value =>
      by_cases hn : c.window.param.toNat = n
      · have hoffset : ((f.bank n).offset addr).toNat = (addr - l.base).toNat % l.size.toNat := by
          rw [Bank.offset, Bank.wrap, h.base, h.size, toNat_and_sub_one hsize]
        have hstored := remembers_store hsize h ((f.bank n).offset addr) value
        simp only [hoffset, Nat.mod_add_mod] at hstored
        rw [take_write_plain hplain hn, bank_set, if_pos rfl, Use.stores, if_pos hn]
        exact hstored
      · rw [(hframe.2 n).2 hn, Use.stores, if_neg hn, List.append_nil]
        exact h

theorem remembers_afterAll (hplain : f.commands = false) (hsize : isPowerOfTwo l.size = true)
    (hbank : f.bank n = .ofLayout l) (uses : List Use) :
    (f.afterAll uses).commands = false ∧
      ((f.afterAll uses).bank n).Remembers l (uses.flatMap (Use.stores n l)) := by
  induction uses using List.reverseRecOn with
  | nil => exact ⟨hplain, hbank ▸ remembers_ofLayout l⟩
  | append_singleton uses use ih =>
    rw [Banks.afterAll, List.foldl_concat, List.flatMap_append, List.flatMap_singleton]
    exact remembers_after ih.1 hsize ih.2 use

/-- An erased bank, of any size that is a power of two, and any uses of it and the other one while
writes are no cycles of commands, images that are refused among them. Then

* a read, at any address, is silent and gives the word each byte of which was stored last at its
  place in the bank,
* a read leaves both banks as they are,
* no access changes how a bank takes cycles of commands,
* neither an access nor an image changes a bank for which it is not meant. -/
theorem plain_read_last_stored (hplain : f.commands = false) (hsize : isPowerOfTwo l.size = true)
    (hbank : f.bank n = .ofLayout l) (uses : List Use) :
    let f' := f.afterAll uses
    (∀ (c : Context) (addr : UInt32) (effects : Array Effect), c.window.param.toNat = n →
      ∃ w, Flash.read c addr ⟨f', effects⟩ = .ok w ⟨f', effects⟩ ∧
        ∀ i < 4, byteOfWord w i = lastStored (uses.flatMap (Use.stores n l))
          (((addr - l.base).toNat + i) % l.size.toNat)) ∧
    (∀ c addr, f'.take (.read c addr) = f') ∧
    (∀ (a : Access) (m : Fin 2), ((f'.take a).bank m).state = (f'.bank m).state ∧
      (a.number ≠ m → (f'.take a).bank m = f'.bank m)) ∧
    ∀ (number : Nat) (offset : UInt32) (image : ByteArray) (m : Fin 2), number ≠ m →
      (f'.load number offset image).1.bank m = f'.bank m := by
  intro f'
  obtain ⟨hplain', hremembers⟩ := remembers_afterAll hplain hsize hbank uses
  refine ⟨fun c addr effects hn => ?_, take_read_plain hplain',
    fun a => (frame_take hplain' a).2,
    fun number offset image => (frame_load f' number offset image).2⟩
  refine ⟨_, read_plain hplain' hn addr effects, fun i hi => ?_⟩
  exact byteOfWord_readWord_of_remembers hsize hremembers addr hi

end Banks

/-- An image at the second place, and a word around the end of a bank of eight bytes. The word at
the start, read where the bank repeats, has two bytes of the word, one of the image and one that was
never stored. -/
theorem plain_read_last_stored_wrapping :
    let f : Banks := ⟨#v[.ofLayout ⟨0xF8000000, 4⟩, .ofLayout ⟨0xF0000000, 8⟩], false⟩
    let c : Context := ⟨⟨"ROM1", .rom, 1⟩, 0, .standard⟩
    let uses : List Use := [.load 1 1 ⟨#[7, 8]⟩, .access (.write c 0xF000000E 0x44332211)]
    isPowerOfTwo 8 = true ∧ ∃ w, Flash.read c 0xF0000010 ⟨f.afterAll uses, #[]⟩ =
        .ok w ⟨f.afterAll uses, #[]⟩ ∧
      byteOfWord w 0 = 0x33 ∧ byteOfWord w 1 = 0x44 ∧ byteOfWord w 2 = 8 ∧
      byteOfWord w 3 = 0xFF := by
  intro f c uses
  have hsize : isPowerOfTwo 8 = true := by decide
  obtain ⟨hread, -⟩ := plain_read_last_stored (f := f) (n := 1) (l := ⟨0xF0000000, 8⟩) rfl hsize rfl
    uses
  obtain ⟨w, hw, hbytes⟩ := hread c 0xF0000010 #[] rfl
  refine ⟨hsize, w, hw, ?_, ?_, ?_, ?_⟩
  · exact (hbytes 0 (by decide)).trans (by decide)
  · exact (hbytes 1 (by decide)).trans (by decide)
  · exact (hbytes 2 (by decide)).trans (by decide)
  · exact (hbytes 3 (by decide)).trans (by decide)

end Digic.Flash
