import Digic.Proofs.Flash.Protocol
/-!
# A word is programmed in a bank

Three cycles announce a program and a fourth one programs a word. It is laid over what stood at its
place, so that what is read there afterwards is what the old word and the new one share.
-/
namespace Digic.Flash.Bank

open Bus Memory

variable {b b' : Bank}

theorem byteOfWord_readWord {offset : UInt32} {i : Nat} (hi : i < 4) :
    byteOfWord (b.readWord offset) i = b.cells.byte (b.place offset i) :=
  byteOfWord_wordOfBytes (b.byteAt offset) hi

/-- A word that was programmed reads as what both words share. -/
theorem readWord_of_programmed {offset value : UInt32} (h : b.Programmed b' offset value)
    (hsize : b'.size = b.size) : b'.readWord offset = b.readWord offset &&& value := by
  have hbyte (i : Nat) (hi : i < 4) :
      b'.byteAt offset i = b.byteAt offset i &&& byteOfWord value i := by
    have hplace : b'.place offset i = b.place offset i := by
      rw [place, place, wrap, wrap, hsize]
    have hprogrammed := h.1 i hi
    rw [← hplace] at hprogrammed
    simpa [byteAt, place, wrap, hsize] using hprogrammed
  rw [readWord, hbyte 0 (by decide), hbyte 1 (by decide), hbyte 2 (by decide),
    hbyte 3 (by decide), wordOfBytes_and, wordOfBytes_byteOfWord]
  rfl

/-- A cycle with which the command goes on changes the state only. -/
theorem command_proceed {offset value : UInt32} {state : State} {remark : String}
    (h : b.response offset value = .proceed state remark) :
    b.command offset value = { b with state } := by
  simp [command, h, Response.proceed, perform]

/-- The three cycles that announce a program. -/
theorem command_unlock (hready : b.state = .ready) :
    ((b.command 0xAAA 0xAA).command 0x554 0x55).command 0xAAA 0xA0 =
      { b with state := .program } := by
  have hfirst : b.command 0xAAA 0xAA = { b with state := .halfUnlocked } := by
    apply command_proceed
    simp [response, hready]
    rfl
  have hsecond : ({ b with state := .halfUnlocked } : Bank).command 0x554 0x55 =
      { b with state := .unlocked } := by
    apply command_proceed
    rfl
  have hthird : ({ b with state := .unlocked } : Bank).command 0xAAA 0xA0 =
      { b with state := .program } := by
    apply command_proceed
    rfl
  rw [hfirst, hsecond, hthird]

/-- The cycle after them. -/
theorem programmed_command (hb : b.Sound) {offset : UInt32} (hoffset : offset < b.size)
    (value : UInt32) {b' : Bank}
    (h : ({ b with state := .program } : Bank).command offset value = b') :
    b'.state = .ready ∧ b'.base = b.base ∧ b'.size = b.size ∧ b.Programmed b' offset value := by
  subst h
  have hresponse : ({ b with state := .program } : Bank).response offset value =
    Response.program := rfl
  obtain ⟨hprogrammed, hstate⟩ := command_of_response (b := { b with state := .program })
    ⟨hb.powerOfTwo, hb.word⟩ hoffset hresponse
  obtain ⟨hbase, hsize⟩ := layout_command { b with state := .program } offset value
  exact ⟨hstate, hbase, hsize, hprogrammed⟩

/-- No cycle moves a bank, so that addresses keep their offsets. -/
theorem offset_command (b : Bank) (o value addr : UInt32) :
    (b.command o value).offset addr = b.offset addr := by
  obtain ⟨hbase, hsize⟩ := b.layout_command o value
  simp [offset, wrap, hbase, hsize]

/-- Where an address lies that is read in a bank. -/
theorem toNat_offset (hb : b.Sound) (addr : UInt32) :
    (b.offset addr).toNat = (addr - b.base).toNat % b.size.toNat := toNat_wrap hb (addr - b.base)

/-- A bank in which some offset is not among the first four has room for a word. -/
theorem sound_of_offset (hsize : isPowerOfTwo b.size = true) {addr : UInt32}
    (h : b.offset addr = 0xAAA) : b.Sound := by
  have hmod := toNat_and_sub_one hsize (addr - b.base)
  have hlt := Nat.mod_lt (addr - b.base).toNat (toNat_pos_of_isPowerOfTwo hsize)
  have hoffset : (addr - b.base &&& (b.size - 1)).toNat = 0xAAA := congrArg UInt32.toNat h
  exact ⟨hsize, by omega⟩

/-- Where the bytes of the word at an address lie. -/
theorem toNat_place_offset_of_isPowerOfTwo (hsize : isPowerOfTwo b.size = true) (addr : UInt32)
    (i : Nat) :
    (b.place (b.offset addr) i).toNat = ((addr - b.base).toNat + i) % b.size.toNat := by
  rw [toNat_place_of_isPowerOfTwo hsize, offset, wrap, toNat_and_sub_one hsize, Nat.mod_add_mod]

theorem toNat_place_offset (hb : b.Sound) (addr : UInt32) (i : Nat) :
    (b.place (b.offset addr) i).toNat = ((addr - b.base).toNat + i) % b.size.toNat :=
  toNat_place_offset_of_isPowerOfTwo hb.powerOfTwo addr i

/-- A bank repeats with its size. -/
theorem offset_congr (hb : b.Sound) {x y : UInt32} (h : x.toNat ≡ y.toNat [MOD b.size.toNat]) :
    b.offset x = b.offset y := by
  have hdvd := toNat_dvd_of_isPowerOfTwo hb.powerOfTwo
  apply UInt32.toNat_inj.1
  rw [toNat_offset hb, toNat_offset hb, UInt32.toNat_sub, UInt32.toNat_sub,
    Nat.mod_mod_of_dvd _ hdvd, Nat.mod_mod_of_dvd _ hdvd]
  exact h.add_left _

end Digic.Flash.Bank
