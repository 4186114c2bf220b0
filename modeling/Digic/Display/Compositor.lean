import Digic.Display.FrameBuffer
import Digic.Display.Geometry
import Digic.Memory.Basic
/-!
# Composing frames

A frame is made from a bitmap over an image plane, with the card lamp in its corner. The compositor
keeps the bytes that each row was made from and makes only those rows again for which something has
changed since.
-/
namespace Digic.Display

inductive CardLed where
  /-- Never driven. -/
  | unknown
  | on
  | off
  deriving DecidableEq, Repr

/-- Where the bitmap lies until firmware says so. -/
def defaultBitmap : UInt32 := 0x08000000

/-- The bytes that a row is made from. The image part is empty if there is no image plane. -/
structure RowSource where
  bitmap : ByteArray
  image : ByteArray

instance : DecidableEq RowSource := fun a b =>
  let _ : DecidableEq ByteArray := ByteArray.instDecidableEq
  decidable_of_iff (a.bitmap = b.bitmap ∧ a.image = b.image) (by cases a; cases b; simp)

/-- What determines a frame besides memory. -/
structure Scene where
  matrix : ColorMatrix
  registers : Registers
  geometry : Geometry
  led : CardLed

namespace Scene

def hasImage (s : Scene) : Bool := !s.registers.fourBit && s.registers.image != 0

def bitmapBase (s : Scene) : UInt32 :=
  if s.registers.bitmap = 0 then defaultBitmap else s.registers.bitmap

def bitmapLength (s : Scene) : Nat :=
  if s.registers.fourBit then (s.geometry.width + 1) / 2 else s.geometry.width

def imageLength (s : Scene) : Nat := s.geometry.imageWidth * 2

/-- The bytes of the image plane from one pixel of a row to the next. -/
def imageStep (s : Scene) : Nat := s.imageLength / s.geometry.width

def bitmapRow (s : Scene) (y : Nat) : UInt32 := s.bitmapBase + y.toUInt32 * s.registers.pitch

/-- The address of the row of the image plane that lies under a row. -/
def imageRow (s : Scene) (y : Nat) : UInt32 :=
  s.registers.image +
    (y * s.geometry.imageHeight / s.geometry.height * s.imageLength).toUInt32

def source (s : Scene) (m : Memory) (y : Nat) : RowSource where
  bitmap := m.read (s.bitmapRow y) s.bitmapLength
  image := if s.hasImage then m.read (s.imageRow y) s.imageLength else .empty

/-- A pixel of the bitmap in four-bit mode. The low half of a byte is the left pixel. -/
def color4 (s : Scene) (row : RowSource) (x : Nat) : UInt32 :=
  let b := row.bitmap[x / 2]?.getD 0
  let index := if x % 2 = 1 then b >>> 4 else b &&& 0xF
  (s.registers.palette4[index.toNat]?.getD .black).rgb

/-- A pixel of the image plane. Four bytes give two pixels that share their chroma. -/
def imageColor (s : Scene) (row : RowSource) (x : Nat) : UInt32 :=
  let place := x * s.imageStep
  let group := place / 4 * 4
  match row.image[group]?, row.image[group + 1]?, row.image[group + 2]?, row.image[group + 3]? with
  | some u, some y1, some v, some y2 =>
    planeRgb s.matrix (if place % 4 = 0 then y1 else y2) u v
  | _, _, _, _ => 0

/-- A pixel in eight-bit mode. Index zero of the bitmap is transparent. -/
def color8 (s : Scene) (row : RowSource) (x : Nat) : UInt32 :=
  let index := row.bitmap[x]?.getD 0
  if index ≠ 0 then (s.registers.palette8[index.toNat]?.getD .black).rgb
  else if s.hasImage then imageColor s row x
  else 0

/-- A pixel of the lamp, where it is drawn: a disc with a black rim near the lower right corner. -/
def ledColor? (s : Scene) (x y : Nat) : Option UInt32 :=
  let paint (color : UInt32) : Option UInt32 :=
    let dx : Int := x - ((s.geometry.width : Int) - 8)
    let dy : Int := y - ((s.geometry.height : Int) - 8)
    let square := dx * dx + dy * dy
    if s.geometry.width < 16 ∨ s.geometry.height < 16 ∨ 25 ≤ square then none
    else if 16 ≤ square then some 0
    else some color
  match s.led with
  | .unknown => none
  | .on => paint 0xFF0000
  | .off => paint 0x404040

def color (s : Scene) (row : RowSource) (x y : Nat) : UInt32 :=
  match s.ledColor? x y with
  | some lamp => lamp
  | none => if s.registers.fourBit then s.color4 row x else s.color8 row x

end Scene

structure Compositor where
  /-- The bytes that each row was last made from. -/
  rows : Array RowSource
  /-- The next frame is made anew as a whole. -/
  invalid : Bool
  /-- The writes to the display that the last frame took into account. -/
  generation : Nat
  led : CardLed

namespace Compositor

def new : Compositor := ⟨#[], true, 0, .unknown⟩

def invalidate (c : Compositor) : Compositor := { c with invalid := true }

def isLedRow (height y : Nat) : Bool := height - 13 ≤ y && y < height - 3

/-- Whether all rows have to be made, whatever their bytes. -/
def isStale (c : Compositor) (s : Scene) (f : FrameBuffer) : Bool :=
  c.invalid || (f.width, f.height) != (s.geometry.width, s.geometry.height) ||
    c.rows.size != s.geometry.height || s.registers.generation != c.generation

def needsRow (c : Compositor) (s : Scene) (stale : Bool) (y : Nat) (row : RowSource) : Bool :=
  stale || (s.led != c.led && isLedRow s.geometry.height y) || c.rows[y]? != some row

/-- Makes a frame. Gives the first and the last row that were made, if any, and reports them to the
surface. -/
def refresh (c : Compositor) (s : Scene) (m : Memory) (f : FrameBuffer) :
    Option (Nat × Nat) × Compositor × FrameBuffer :=
  let height := s.geometry.height
  let stale := c.isStale s f
  let f := if (f.width, f.height) = (s.geometry.width, height) then f
    else f.resize s.geometry.width height
  let rows := Array.ofFn fun y : Fin height => s.source m y.val
  let needed := Array.ofFn fun y : Fin height =>
    c.needsRow s stale y.val (rows[y.val]?.getD ⟨.empty, .empty⟩)
  let redrawn := (List.range height).filter fun y => needed[y]?.getD false
  let next : Compositor := ⟨rows, false, s.registers.generation, s.led⟩
  match redrawn.head?, redrawn.getLast? with
  | some first, some last =>
    let f := f.redraw (fun y => needed[y]?.getD false)
      fun x y => s.color (rows[y]?.getD ⟨.empty, .empty⟩) x y
    (some (first, last), next, f.blit first last)
  | _, _ => (none, next, f)

end Compositor

end Digic.Display
