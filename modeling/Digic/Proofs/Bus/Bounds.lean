import Digic.Board.Boot
import Digic.Cf.Registers
import Digic.Display.Registers
import Digic.Dma.Engine
import Digic.Edmac.Engine
import Digic.Proofs.Flash.Cells
import Digic.Proofs.Handler.Windows
import Digic.Sd.Registers
/-!
# Indices in bounds

What an address or a value spells as an index lies within the table that it is an index of.
-/
namespace Digic

open Handler

theorem misSizedBank?_eq_none_iff (bank : Nat) {roms : List RomLayout} :
    misSizedBank? bank roms = none ↔ ∀ rom ∈ roms, isPowerOfTwo rom.size = true := by
  induction roms generalizing bank with
  | nil => simp [misSizedBank?]
  | cons rom rest ih =>
    rw [misSizedBank?]
    split
    · next h => rw [ih, List.forall_mem_cons, and_iff_right h]
    · next h => simp [h]

/-- In a model that is sound the size of each bank is a power of two. -/
theorem Model.isPowerOfTwo_of_validate {m : Model} (h : m.validate = .ok ()) :
    ∀ rom ∈ m.rom.toList, isPowerOfTwo rom.size = true := by
  rw [← misSizedBank?_eq_none_iff 0]
  unfold validate at h
  split at h
  · cases h
  · next hnone => exact hnone

namespace Flash.Bank

variable {b : Bank}

theorem wrap_lt_of_isPowerOfTwo (h : isPowerOfTwo b.size = true) (offset : UInt32) :
    b.wrap offset < b.size := by
  rw [UInt32.lt_iff_toNat_lt, wrap, toNat_and_sub_one h]
  exact Nat.mod_lt _ (toNat_pos_of_isPowerOfTwo h)

/-- An erase block begins at the offset or before. -/
theorem blockStart_le (b : Bank) (offset : UInt32) : b.blockStart offset ≤ offset := by
  rw [UInt32.le_iff_toNat_le, blockStart, toNat_and_not_sub_one (b.isPowerOfTwo_blockSize _)]
  exact Nat.div_mul_le_self _ _

end Flash.Bank

/-- Each window of DMA names a channel. -/
theorem Dma.param_of_window :
    ∀ h ∈ standardTable, h.kind = .dma → h.param ≠ 0 ∧ h.param.toNat < Dma.channelCount := by
  decide +kernel

namespace Edmac

theorem channelOf_lt_of_param {param : UInt32} (h : param < 3) (addr : UInt32) :
    channelOf param addr < channelCount := by
  have hslot : (addr >>> 8 &&& 0xF).toNat < 16 := by
    have hmod := toNat_and_sub_one (by decide : isPowerOfTwo 0x10 = true) (addr >>> 8)
    have hlt := Nat.mod_lt (addr >>> 8).toNat (by decide : (0x10 : UInt32).toNat > 0)
    rw [← hmod] at hlt
    exact hlt
  have hparam : param.toNat < 3 := UInt32.lt_iff_toNat_lt.1 h
  have hall : ∀ p < 3, ∀ k < 16,
      (Nat.toUInt32 p <<< 4 ||| Nat.toUInt32 k).toNat < channelCount := by decide
  have hchannel := hall param.toNat hparam _ hslot
  rwa [Nat.toUInt32_eq, Nat.toUInt32_eq, UInt32.ofNat_toNat, UInt32.ofNat_toNat] at hchannel

/-- Each window of image DMA has sixteen channels. -/
theorem channelOf_lt :
    ∀ h ∈ standardTable, h.kind.device = .edmac → ∀ addr,
      channelOf h.param addr < channelCount := by
  have hparam : ∀ h ∈ standardTable, h.kind.device = .edmac → h.param < 3 := by decide +kernel
  exact fun h hmem hdevice addr => channelOf_lt_of_param (hparam h hmem hdevice) addr

variable {offset value connection : UInt32} {feeding : Option Nat} {fed channel : Nat}

theorem connection_lt (h : Route.ofWrite? offset value = some (.feed feeding fed)) :
    fed < readConnectionCount := by
  unfold Route.ofWrite? at h
  split_ifs at h with hfeed
  · obtain ⟨-, hhigh⟩ := hfeed
    cases h
    rw [UInt32.le_iff_toNat_le] at hhigh
    have hbound : (0xE0 : UInt32).toNat = 0xE0 := rfl
    unfold readConnectionCount
    omega
  · cases h
  · cases h

theorem drain_lt (h : Route.ofWrite? offset value = some (.drain connection channel)) :
    channel < channelCount := by
  unfold Route.ofWrite? at h
  have hlower : (offset &&& 0x1F).toNat = offset.toNat % 0x20 :=
    toNat_and_sub_one (by decide : isPowerOfTwo 0x20 = true) offset
  have hupper : (offset &&& 0x3F).toNat = offset.toNat % 0x40 :=
    toNat_and_sub_one (by decide : isPowerOfTwo 0x40 = true) offset
  split_ifs at h
  · cases h
  · cases h
    rw [lowerWriteChannel, hlower, channelCount]
    split <;> omega
  · cases h
    rw [upperWriteChannel, hupper, channelCount]
    split <;> omega

end Edmac

theorem Sd.response_lt {addr : UInt32} {n : Nat} (h : Register.ofAddress addr = .response n) :
    n < 4 := by
  unfold Register.ofAddress at h
  split at h <;> cases h <;> decide

theorem Cf.taskFile_mem {addr : UInt32} {n : UInt8} (h : Register.ofAddress addr = .taskFile n) :
    1 ≤ n.toNat ∧ n.toNat ≤ 7 := by
  unfold Register.ofAddress at h
  dsimp only at h
  split_ifs at h with hready henable hstatus hdata hfile hcontrol
  cases h
  have hlow : (addr &&& 0xFFFF &&& 0xF).toNat = (addr &&& 0xFFFF).toNat % 0x10 :=
    toNat_and_sub_one (by decide : isPowerOfTwo 0x10 = true) _
  simp only [UInt32.le_iff_toNat_le, UInt32.toNat_ofNat] at hfile
  rw [UInt32.toNat_toUInt8, hlow]
  omega

namespace Display

variable {param addr : UInt32} {index : Nat}

theorem palette4_lt (h : Register.ofAddress param addr = .palette4 index) : index < 16 := by
  unfold Register.ofAddress at h
  dsimp only at h
  split_ifs at h with hwindow hbitmap himage hpalette4 hpalette8
  · split at h <;> cases h
  · cases h
    simp only [UInt32.le_iff_toNat_le, UInt32.toNat_ofNat] at hpalette4
    omega

theorem palette8_lt (h : Register.ofAddress param addr = .palette8 index) : index < 256 := by
  unfold Register.ofAddress at h
  dsimp only at h
  split_ifs at h with hwindow hbitmap himage hpalette4 hpalette8
  · split at h <;> cases h
  · cases h
    simp only [UInt32.le_iff_toNat_le, UInt32.toNat_ofNat] at hpalette8
    omega

end Display

theorem Board.Power.index_lt (addr : UInt32) : Power.index addr < 64 := by
  have hlow : (addr &&& 0xFF).toNat = addr.toNat % 0x100 :=
    toNat_and_sub_one (by decide : isPowerOfTwo 0x100 = true) addr
  rw [index, hlow]
  omega

end Digic
