import Digic.Bus.Action
import Digic.Display.Color
/-!
# Registers of the display

Where the planes of a frame lie in memory, and two palettes. Which palette was written last decides
how the bitmap is read: four bits a pixel as in the boot loader, or eight.
-/
namespace Digic.Display

open Bus

structure Registers where
  bitmap : UInt32
  image : UInt32
  palette4 : Vector PaletteEntry 16
  palette8 : Vector PaletteEntry 256
  /-- The bitmap has four bits a pixel. -/
  fourBit : Bool
  /-- Bytes from one row of the bitmap to the next. -/
  pitch : UInt32
  /-- The size of the output, zero while firmware has not set it. -/
  width : UInt32
  height : UInt32
  /-- How many writes there were. -/
  generation : Nat

def pitch4 : UInt32 := 360

def pitch8 : UInt32 := 960

namespace Registers

def new : Registers where
  bitmap := 0
  image := 0
  palette4 := Vector.replicate 16 .black
  palette8 := Vector.replicate 256 .black
  fourBit := false
  pitch := pitch8
  width := 0
  height := 0
  generation := 0

def resolution? (r : Registers) : Option (Nat × Nat) :=
  if r.width ≠ 0 ∧ r.height ≠ 0 then some (r.width.toNat, r.height.toNat) else none

end Registers

inductive Register where
  | bitmap | image | palette4 (index : Nat) | palette8 (index : Nat)
  /-- Width in the low half, height in the high half. -/
  | resolution
  /-- The bitmap's address without its low byte; its pitch becomes the width. -/
  | bitmapPage
  | pitch
  | other
  deriving DecidableEq, Repr

/-- The parameter of the windows of the sixth generation. -/
def digic6Window : UInt32 := 6

def Register.ofAddress (param addr : UInt32) : Register :=
  let offset := addr &&& 0xFFF
  if param = digic6Window then
    match addr with
    | 0xD2013800 | 0xD201381C | 0xD2018200 | 0xD2018230 => .resolution
    | 0xD2030108 => .bitmapPage
    | 0xD2018228 => .bitmap
    | 0xD201822C => .pitch
    | _ => .other
  else if offset = 0x0D0 then .bitmap
  else if offset = 0x0E0 then .image
  else if 0x080 ≤ offset ∧ offset ≤ 0x0BC then .palette4 ((offset.toNat - 0x080) / 4)
  else if 0x800 ≤ offset ∧ offset ≤ 0xBFC then .palette8 ((offset.toNat - 0x800) / 4)
  else .other

def Registers.set (r : Registers) (matrix : ColorMatrix) (value : UInt32) : Register → Registers
  | .bitmap => { r with bitmap := value }
  | .image => { r with image := value }
  | .palette4 index =>
    { r with
      palette4 := r.palette4.setIfInBounds index (.ofRegister matrix value)
      fourBit := true
      pitch := pitch4 }
  | .palette8 index =>
    { r with
      palette8 := r.palette8.setIfInBounds index (.ofRegister matrix value)
      fourBit := false
      pitch := pitch8 }
  | .resolution => { r with width := value &&& 0xFFFF, height := value >>> 16 }
  | .bitmapPage => { r with bitmap := value <<< 8, pitch := r.width }
  | .pitch => { r with pitch := value }
  | .other => r

def paletteRemark (matrix : ColorMatrix) (index : Nat) (value : UInt32) : String :=
  let entry := PaletteEntry.ofRegister matrix value
  let part (shift : UInt32) := Text.decimalAtLeast 3 (entry.rgb >>> shift &&& 0xFF).toNat
  let transparent := if entry.opacity = 3 then "" else " transparent?"
  if value = 0 then s!"Palette[{Text.upperHex index}] -> empty"
  else s!"Palette[{Text.upperHex index}] -> R{part 16} G{part 8} B{part 0}{transparent}"

def remark (matrix : ColorMatrix) (value : UInt32) : Register → String
  | .bitmap | .bitmapPage => "BMP VRAM"
  | .image => "YUV VRAM"
  | .palette4 index | .palette8 index => paletteRemark matrix index value
  | .resolution => "Display resolution"
  | .pitch => "BMP pitch"
  | .other => ""

def read (c : Context) (addr : UInt32) : Action Registers UInt32 := c.answer addr 0 ""

/-- Writes a register. Each write counts, whether or not it sets anything. -/
def write (c : Context) (addr value : UInt32) : Action Registers Unit := do
  let register := Register.ofAddress c.window.param addr
  let matrix := c.model.colorMatrix
  Action.update fun r => { r.set matrix value register with generation := r.generation + 1 }
  c.traceWrite addr value (remark matrix value register)

end Digic.Display
