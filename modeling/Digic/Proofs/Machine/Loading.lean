import Digic.Proofs.Flash.Loading
import Digic.Proofs.Machine.Reachable
/-!
# Loading ROM

An image is loaded as a whole or not at all, and of a file as much is loaded as the bank can hold.
Either way nothing but the bank and the journal is changed, and what is refused changes not even
these.
-/
namespace Digic.Machine

open Flash

variable {κ δ : Type}

/-- What may come of loading an image, with the machine afterwards: the bank is missing, the image
is too large, or it stands in the bank. -/
inductive LoadsRom (s : Machine κ δ) (bank : Nat) (offset : UInt32) (image : ByteArray) :
    Machine κ δ × Except ConfigError Unit → Prop where
  | bankMissing (h : 2 ≤ bank) : LoadsRom s bank offset image (s, .error (.romBankMissing bank))
  | tooLarge (n : Fin 2) (hn : n = bank)
      (h : (s.flash.bank n).size.toNat < offset.toNat + image.size) :
      LoadsRom s bank offset image
        (s, .error (.romTooLarge bank offset image.size (s.flash.bank n).size))
  | loaded (n : Fin 2) (hn : n = bank)
      (h : offset.toNat + image.size ≤ (s.flash.bank n).size.toNat)
      (flash : Banks) (journal : Array Log.Notice)
      (hloaded : s.flash.Loaded flash n offset.toNat image.size (image[·]?)) :
      LoadsRom s bank offset image ({ s with flash, journal }, .ok ())

/-- What may come of loading a file, with the machine afterwards: the file cannot be read, loading
is to begin past its end, the bank is missing, or as much of the file as the bank can hold stands
there. -/
inductive LoadsFile (s : Machine κ δ) (bank : Nat) (file : ImageFile) (offset : Nat) :
    Machine κ δ × Except ConfigError Unit → Prop where
  | unreadable (reason : String) (hfile : file.contents = .error reason) :
      LoadsFile s bank file offset (s, .error (.unreadable file.path reason))
  | offsetTooLarge (data : ByteArray) (hfile : file.contents = .ok data)
      (h : data.size < offset) :
      LoadsFile s bank file offset (s, .error (.romOffsetTooLarge file.path offset data.size))
  | bankMissing (data : ByteArray) (hfile : file.contents = .ok data) (h : offset ≤ data.size)
      (hbank : 2 ≤ bank) : LoadsFile s bank file offset (s, .error (.romBankMissing bank))
  | loaded (data : ByteArray) (hfile : file.contents = .ok data) (h : offset ≤ data.size)
      (n : Fin 2) (hn : n = bank) (flash : Banks) (journal : Array Log.Notice)
      (hloaded : s.flash.Loaded flash n 0 (min (data.size - offset) (s.flash.bank n).size.toNat)
        fun i => data[offset + i]?) :
      LoadsFile s bank file offset ({ s with flash, journal }, .ok ())

theorem loadRom_of_load {s : Machine κ δ} {bank : Nat} {offset : UInt32} {image : ByteArray}
    {flash : Banks} (h : s.flash.load bank offset image = (flash, .ok ())) :
    s.loadRom bank offset image = ({ s with
      flash, journal := s.journal.push (.romLoaded bank image.size offset) }, .ok ()) := by
  rw [loadRom, h]
  rfl

/-- If the banks are as before, all else is. -/
theorem loadRom_of_error {s : Machine κ δ} {bank : Nat} {offset : UInt32} {image : ByteArray}
    {e : ConfigError} (h : s.flash.load bank offset image = (s.flash, .error e)) :
    s.loadRom bank offset image = (s, .error e) := by
  rw [loadRom, h]

theorem loadsRom_loadRom (s : Machine κ δ) (bank : Nat) (offset : UInt32) (image : ByteArray) :
    s.LoadsRom bank offset image (s.loadRom bank offset image) := by
  by_cases hmissing : 2 ≤ bank
  · rw [loadRom_of_error (s.flash.load_of_le hmissing offset image)]
    exact .bankMissing hmissing
  · obtain ⟨n, rfl⟩ : ∃ n : Fin 2, n = bank := ⟨⟨bank, by omega⟩, rfl⟩
    by_cases hfits : offset.toNat + image.size ≤ (s.flash.bank n).size.toNat
    · rw [loadRom_of_load (s.flash.load_of_fits n hfits)]
      exact .loaded n rfl hfits _ _ (s.flash.loaded_set n hfits)
    · rw [loadRom_of_error (s.flash.load_of_not_fits n hfits)]
      exact .tooLarge n rfl (by omega)

/-- What is left of a file is cut off where the bank ends. -/
theorem size_extract_file (data : ByteArray) (offset size : Nat) :
    ((data.extract offset data.size).extract 0 size).size = min (data.size - offset) size := by
  simp only [ByteArray.size_extract]
  omega

theorem getElem?_extract_file {data : ByteArray} {offset size i : Nat}
    (hi : i < min (data.size - offset) size) :
    ((data.extract offset data.size).extract 0 size)[i]? = data[offset + i]? := by
  have hsize := size_extract_file data offset size
  rw [getElem?_pos _ i (by omega), getElem?_pos data (offset + i) (by omega),
    ByteArray.getElem_extract, ByteArray.getElem_extract]
  simp

theorem loadsFile_loadRomFile (s : Machine κ δ) (bank : Nat) (file : ImageFile) (offset : Nat) :
    s.LoadsFile bank file offset (s.loadRomFile bank file offset) := by
  unfold loadRomFile
  split
  · next reason hfile => exact .unreadable reason hfile
  · next data hfile =>
    split
    · next hlarge => exact .offsetTooLarge data hfile hlarge
    · next hwithin =>
      by_cases hmissing : 2 ≤ bank
      · rw [get?_eq_none s.flash hmissing]
        exact .bankMissing data hfile (by omega) hmissing
      · obtain ⟨n, rfl⟩ : ∃ n : Fin 2, n = bank := ⟨⟨bank, by omega⟩, rfl⟩
        have hsize := size_extract_file data offset (s.flash.bank n).size.toNat
        have hfits : (0 : UInt32).toNat + ((data.extract offset data.size).extract 0
            (s.flash.bank n).size.toNat).size ≤ (s.flash.bank n).size.toNat := by
          rw [hsize, UInt32.toNat_zero]
          omega
        have hloaded := s.flash.loaded_set n hfits
        rw [hsize] at hloaded
        have hdata := hloaded.congr fun i hi => (getElem?_extract_file hi).symm
        have hflash := s.flash.load_of_fits n hfits
        rw [get?_eq_bank s.flash n]
        dsimp only
        -- The notice that the file was cut off leaves the banks as they are.
        split_ifs with hcut
        · rw [loadRom_of_load (s := s.tell (.romTruncated ..)) hflash]
          exact .loaded data hfile (by omega) n rfl _ _ hdata
        · rw [loadRom_of_load hflash]
          exact .loaded data hfile (by omega) n rfl _ _ hdata

/-- The outcomes exclude each other. -/
theorem LoadsRom.ok_iff {s : Machine κ δ} {bank : Nat} {offset : UInt32} {image : ByteArray}
    {result : Machine κ δ × Except ConfigError Unit} (h : s.LoadsRom bank offset image result) :
    result.2 = .ok () ↔
      ∃ n : Fin 2, n = bank ∧ offset.toNat + image.size ≤ (s.flash.bank n).size.toNat := by
  cases h with
  | bankMissing h =>
    refine iff_of_false (by simp) ?_
    rintro ⟨n, rfl, -⟩
    omega
  | tooLarge n hn h =>
    refine iff_of_false (by simp) ?_
    rintro ⟨n', hn', hfits⟩
    obtain rfl : n' = n := Fin.ext (hn'.trans hn.symm)
    omega
  | loaded n hn h flash journal hloaded => exact iff_of_true rfl ⟨n, hn, h⟩

theorem LoadsRom.eq_of_refused {s : Machine κ δ} {bank : Nat} {offset : UInt32} {image : ByteArray}
    {result : Machine κ δ × Except ConfigError Unit} (h : s.LoadsRom bank offset image result)
    (hrefused : result.2 ≠ .ok ()) : result.1 = s := by
  cases h with
  | bankMissing => rfl
  | tooLarge => rfl
  | loaded => exact absurd rfl hrefused

/-- Machine, bank, image and file may be any.

* A file that cannot be read is refused, then one that ends before loading is to begin, then one
  for a bank that does not exist, and the machine is as it was. Any other is loaded: as much of it
  as the bank can hold stands at the start of the bank.
* An image is loaded exactly if the bank exists and the image fits into it at its offset. Otherwise
  the machine is as it was.

What is loaded changes the bytes of its place in its bank, ends the command that was going on there,
and is told of in the journal. Nothing else is changed. -/
theorem rom_loaded_exactly (s : Machine κ δ) (bank : Nat) :
    (∀ file offset, s.LoadsFile bank file offset (s.loadRomFile bank file offset)) ∧
    ∀ offset image, s.LoadsRom bank offset image (s.loadRom bank offset image) ∧
      ((s.loadRom bank offset image).2 = .ok () ↔
        ∃ n : Fin 2, n = bank ∧ offset.toNat + image.size ≤ (s.flash.bank n).size.toNat) ∧
      ((s.loadRom bank offset image).2 ≠ .ok () → (s.loadRom bank offset image).1 = s) := by
  refine ⟨s.loadsFile_loadRomFile bank, fun offset image => ?_⟩
  have hloads := s.loadsRom_loadRom bank offset image
  exact ⟨hloads, hloads.ok_iff, hloads.eq_of_refused⟩

/-- Three bytes are left of the file, of which the bank can hold two. -/
theorem rom_loaded_exactly_cut :
    let s : Machine Empty Empty := ofModel
      { Model.standard with rom := #v[⟨0xF8000000, 4⟩, ⟨0xF0000000, 2⟩] }
    let file : ImageFile := ⟨"rom1.bin", .ok ⟨#[1, 2, 3, 4, 5]⟩⟩
    ∃ t, s.loadRomFile 1 file 2 = (t, .ok ()) ∧ (t.flash.bank 1).cells.byte 0 = 3 ∧
      (t.flash.bank 1).cells.byte 1 = 4 ∧ (t.flash.bank 1).cells.byte 2 = 0xFF ∧
      (t.flash.bank 0).cells.byte 0 = 0xFF := by
  intro s file
  have hloads := (rom_loaded_exactly s 1).1 file 2
  generalize s.loadRomFile 1 file 2 = result at hloads ⊢
  cases hloads with
  | unreadable reason hfile => cases hfile
  | offsetTooLarge data hfile h =>
    cases hfile
    exact absurd h (by decide)
  | bankMissing data hfile h hbank => omega
  | loaded data hfile h n hn flash journal hloaded =>
    cases hfile
    obtain rfl : n = 1 := Fin.ext hn
    have hbanks (n : Fin 2) : s.flash.bank n = .ofLayout _ := banks_ofModel _ n
    have hsize : (s.flash.bank 1).size.toNat = 2 := by
      rw [hbanks]
      rfl
    have hblank (n : Fin 2) (place : UInt32) : (s.flash.bank n).cells.byte place = 0xFF := by
      rw [hbanks]
      exact Memory.byte_blank 0xFF place
    rw [hsize] at hloaded
    obtain ⟨hinside, houtside, -⟩ := hloaded.bank
    have hfirst := Option.some.inj (hinside 0 (by decide))
    have hsecond := Option.some.inj (hinside 1 (by decide))
    have hother := congrArg (·.cells.byte 0) (hloaded.other 0 (by decide))
    exact ⟨_, rfl, hfirst.symm, hsecond.symm, (houtside 2 (by decide)).trans (hblank 1 2),
      hother.trans (hblank 0 0)⟩

end Digic.Machine
