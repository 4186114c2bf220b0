import Digic.Model
/-!
# Colours

Colours are packed `0x00RRGGBB`. Luma and chroma are converted with fixed-point coefficients; what a
chroma byte contributes is rounded down and the sums are clamped to a byte.
-/
namespace Digic.Display

/-- The coefficients of a colour matrix, in units of 1/1024. -/
structure Coefficients where
  redV : Int
  greenU : Int
  greenV : Int
  blueU : Int

def Coefficients.of : ColorMatrix → Coefficients
  | .bt601 => ⟨1437, -352, -731, 1812⟩
  | .bt709 => ⟨1608, -191, -478, 1900⟩

/-- A byte as a number from -128 to 127. -/
def signed (b : UInt8) : Int := if b < 128 then b.toNat else (b.toNat : Int) - 256

def contribution (coefficient : Int) (chroma : UInt8) : Int := coefficient * signed chroma / 1024

def clamp (x : Int) : UInt32 := (max 0 (min 255 x)).toNat.toUInt32

def pack (red green blue : UInt32) : UInt32 := red <<< 16 ||| green <<< 8 ||| blue

def rgb (matrix : ColorMatrix) (y u v : UInt8) : UInt32 :=
  let k := Coefficients.of matrix
  let luma : Int := y.toNat
  pack (clamp (luma + contribution k.redV v))
    (clamp (luma + contribution k.greenU u + contribution k.greenV v))
    (clamp (luma + contribution k.blueU u))

/-- The colour of luma and chroma that has its zero at 128, as in an image plane. -/
def planeRgb (matrix : ColorMatrix) (y u v : UInt8) : UInt32 :=
  rgb matrix y (u ^^^ 0x80) (v ^^^ 0x80)

structure PaletteEntry where
  rgb : UInt32
  /-- Three stands for opaque. -/
  opacity : UInt8
  deriving DecidableEq, Repr

namespace PaletteEntry

def black : PaletteEntry := ⟨0, 0⟩

/-- The entry that a register value spells: opacity, luma and two chroma bytes from the top. -/
def ofRegister (matrix : ColorMatrix) (value : UInt32) : PaletteEntry where
  rgb := Display.rgb matrix (value >>> 16).toUInt8 (value >>> 8).toUInt8 value.toUInt8
  opacity := (value >>> 24).toUInt8

end PaletteEntry

end Digic.Display
