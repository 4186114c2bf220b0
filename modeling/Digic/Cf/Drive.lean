/-!
# ATA drives

What the CF host asks of a drive, through the registers of the task file and its data register.
-/
namespace Digic.Cf

/-- A drive of state `δ`. -/
class AtaDrive (δ : Type) where
  /-- Reads a task-file register, 1 to 7. -/
  readRegister : δ → UInt8 → UInt8 × δ
  writeRegister : δ → UInt8 → UInt8 → δ
  readData16 : δ → UInt16 × δ
  writeData16 : δ → UInt16 → δ
  /-- The status, read without acknowledging anything. -/
  status : δ → UInt8
  writeControl : δ → UInt8 → δ

namespace AtaDrive

variable {δ : Type} [AtaDrive δ]

def dataReady (drive : δ) : Bool := status drive &&& 0x08 != 0

/-- Two transfers, the low half first. -/
def readData32 (drive : δ) : UInt32 × δ :=
  let (low, drive) := readData16 drive
  let (high, drive) := readData16 drive
  (low.toUInt32 ||| high.toUInt32 <<< 16, drive)

/-- Two transfers, the low half first. -/
def writeData32 (drive : δ) (value : UInt32) : δ :=
  writeData16 (writeData16 drive value.toUInt16) (value >>> 16).toUInt16

end AtaDrive

end Digic.Cf
