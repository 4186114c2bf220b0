import Digic.Cf.Registers
import Digic.Memory.Lemmas
/-!
# A drive on record

A drive can be put on record: whatever goes through its data register is written down, byte by byte,
and nothing else is changed. Two transfers of the data register make the four bytes of a word.
-/
namespace Digic.Cf

open Memory

/-- A drive with the bytes that went through its data register so far. -/
structure Recorded (δ : Type) where
  drive : δ
  /-- What the drive gave. -/
  given : List UInt8
  /-- What the drive took. -/
  taken : List UInt8

def bytesOfHalf (v : UInt16) : List UInt8 := [v.toUInt8, (v >>> 8).toUInt8]

def bytesOfWord (w : UInt32) : List UInt8 :=
  [byteOfWord w 0, byteOfWord w 1, byteOfWord w 2, byteOfWord w 3]

namespace Recorded

variable {δ : Type}

def fresh (drive : δ) : Recorded δ := ⟨drive, [], []⟩

def change (f : δ → δ) (r : Recorded δ) : Recorded δ := { r with drive := f r.drive }

instance [AtaDrive δ] : AtaDrive (Recorded δ) where
  readRegister r n :=
    let (value, drive) := AtaDrive.readRegister r.drive n
    (value, { r with drive })
  writeRegister r n value := { r with drive := AtaDrive.writeRegister r.drive n value }
  readData16 r :=
    let (value, drive) := AtaDrive.readData16 r.drive
    (value, { r with drive, given := r.given ++ bytesOfHalf value })
  writeData16 r value :=
    { r with
      drive := AtaDrive.writeData16 r.drive value
      taken := r.taken ++ bytesOfHalf value }
  status r := AtaDrive.status r.drive
  writeControl r value := { r with drive := AtaDrive.writeControl r.drive value }

variable [AtaDrive δ]

theorem dataReady_drive (r : Recorded δ) :
    AtaDrive.dataReady r.drive = AtaDrive.dataReady r := rfl

end Recorded

theorem length_bytesOfWord (w : UInt32) : (bytesOfWord w).length = 4 := rfl

theorem getElem_bytesOfWord (w : UInt32) {i : Nat} (hi : i < (bytesOfWord w).length) :
    (bytesOfWord w)[i] = byteOfWord w i := by
  rw [length_bytesOfWord] at hi
  have hcases : i = 0 ∨ i = 1 ∨ i = 2 ∨ i = 3 := by omega
  rcases hcases with rfl | rfl | rfl | rfl <;> rfl

/-- Four bytes are those of a word if they hold its bits. -/
theorem eq_bytesOfWord {bytes : List UInt8} (hlength : bytes.length = 4) {w : UInt32}
    (h : ∀ i (hi : i < 4), ∀ j < 8, bytes[i].toBitVec.getLsbD j = w.toBitVec.getLsbD (8 * i + j)) :
    bytes = bytesOfWord w := by
  refine List.ext_getElem hlength fun i hi hword => ?_
  have hi' : i < 4 := hword
  rw [getElem_bytesOfWord w hword]
  apply UInt8.toBitVec_inj.1
  apply BitVec.eq_of_getLsbD_eq
  intro j hj
  rw [getLsbD_byteOfWord _ _ _ hi', h i hi' j hj]
  simp [hj]

theorem bytesOfHalf_append (low high : UInt16) :
    bytesOfHalf low ++ bytesOfHalf high =
      bytesOfWord (low.toUInt32 ||| high.toUInt32 <<< 16) := by
  apply eq_bytesOfWord rfl
  intro i hi j hj
  have hcases : i = 0 ∨ i = 1 ∨ i = 2 ∨ i = 3 := by omega
  rcases hcases with rfl | rfl | rfl | rfl <;> simp [bytesOfHalf] <;> grind

theorem bytesOfHalf_split (w : UInt32) :
    bytesOfHalf w.toUInt16 ++ bytesOfHalf (w >>> 16).toUInt16 = bytesOfWord w := by
  apply eq_bytesOfWord rfl
  intro i hi j hj
  have hcases : i = 0 ∨ i = 1 ∨ i = 2 ∨ i = 3 := by omega
  rcases hcases with rfl | rfl | rfl | rfl <;> simp [bytesOfHalf] <;> grind

namespace Recorded

variable {δ : Type} [AtaDrive δ]

/-- To read a word records its bytes as given. -/
theorem record_readData32 (r : Recorded δ) :
    (AtaDrive.readData32 r).2.given = r.given ++ bytesOfWord (AtaDrive.readData32 r).1 ∧
      (AtaDrive.readData32 r).2.taken = r.taken := by
  refine ⟨?_, rfl⟩
  have hbytes := bytesOfHalf_append (AtaDrive.readData16 r).1
    (AtaDrive.readData16 (AtaDrive.readData16 r).2).1
  change (r.given ++ _) ++ _ = r.given ++ _
  rw [List.append_assoc]
  exact congrArg (r.given ++ ·) hbytes

/-- To write a word records its bytes as taken. -/
theorem record_writeData32 (r : Recorded δ) (word : UInt32) :
    (AtaDrive.writeData32 r word).taken = r.taken ++ bytesOfWord word ∧
      (AtaDrive.writeData32 r word).given = r.given := by
  refine ⟨?_, rfl⟩
  change (r.taken ++ _) ++ _ = r.taken ++ _
  rw [List.append_assoc]
  exact congrArg (r.taken ++ ·) (bytesOfHalf_split word)

end Recorded

section Host

variable {δ : Type}

def Host.recorded (h : Host δ) : Host (Recorded δ) := { h with drive := h.drive.map .fresh }

def Bench.unrecorded (b : Bench (Recorded δ)) : Bench δ :=
  { b with drive := b.drive.map (·.drive) }

end Host

end Digic.Cf
