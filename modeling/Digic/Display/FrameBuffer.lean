/-!
# Frame buffers

A surface holds one pixel for each column of each row. What is on it is seen through `pixel?`.
-/
namespace Digic.Display

structure FrameBuffer where
  width : Nat
  height : Nat
  pixels : Array UInt32
  size_pixels : pixels.size = width * height := by simp
  /-- The first and the last row of each report of changed rows, the latest report first. -/
  blits : List (Nat × Nat)

namespace FrameBuffer

def lastBlit (f : FrameBuffer) : Option (Nat × Nat) := f.blits.head?

def new : FrameBuffer where
  width := 0
  height := 0
  pixels := #[]
  blits := []

/-- A black surface of another size. -/
def resize (f : FrameBuffer) (width height : Nat) : FrameBuffer where
  width := width
  height := height
  pixels := Array.replicate (width * height) 0
  blits := f.blits

def pixel? (f : FrameBuffer) (x y : Nat) : Option UInt32 :=
  if x < f.width then f.pixels[y * f.width + x]? else none

def blit (f : FrameBuffer) (first last : Nat) : FrameBuffer :=
  { f with blits := (first, last) :: f.blits }

def fill (f : FrameBuffer) (color : UInt32) : FrameBuffer where
  width := f.width
  height := f.height
  pixels := f.pixels.map fun _ => color
  size_pixels := by rw [Array.size_map, f.size_pixels]
  blits := f.blits

/-- Changes the pixel in place `i`, counted row by row, if there is one. -/
def setAt (f : FrameBuffer) (i : Nat) (color : UInt32) : FrameBuffer where
  width := f.width
  height := f.height
  pixels := f.pixels.setIfInBounds i color
  size_pixels := by rw [Array.size_setIfInBounds, f.size_pixels]
  blits := f.blits

/-- Makes all pixels of the rows for which `redrawn` holds anew. -/
def redraw (f : FrameBuffer) (redrawn : Nat → Bool) (color : Nat → Nat → UInt32) :
    FrameBuffer where
  width := f.width
  height := f.height
  pixels := Array.ofFn fun k : Fin (f.width * f.height) =>
    have bound : k.val < f.pixels.size := Nat.lt_of_lt_of_eq k.isLt f.size_pixels.symm
    let y := k.val / f.width
    if redrawn y then color (k.val % f.width) y else f.pixels[k.val]
  blits := f.blits

theorem pixel?_blit (f : FrameBuffer) (first last x y : Nat) :
    (f.blit first last).pixel? x y = f.pixel? x y := rfl

/-- A place in a row that is on the surface is one of its pixels. -/
theorem place_lt {width height x y : Nat} (hx : x < width) (hy : y < height) :
    y * width + x < width * height := by
  calc y * width + x < y * width + width := Nat.add_lt_add_left hx _
    _ = (y + 1) * width := (Nat.succ_mul y width).symm
    _ ≤ height * width := Nat.mul_le_mul_right width hy
    _ = width * height := Nat.mul_comm height width

theorem pixel?_resize (f : FrameBuffer) {width height x y : Nat} (hx : x < width)
    (hy : y < height) : (f.resize width height).pixel? x y = some 0 := by
  simp [pixel?, resize, hx, place_lt hx hy]

/-- After rows were made anew, a pixel of one of them has its new colour, and any other the old. -/
theorem pixel?_redraw (f : FrameBuffer) (redrawn : Nat → Bool) (color : Nat → Nat → UInt32)
    {x y : Nat} (hx : x < f.width) (hy : y < f.height) :
    (f.redraw redrawn color).pixel? x y =
      if redrawn y then some (color x y) else f.pixel? x y := by
  have hk := place_lt hx hy
  have hs : y * f.width + x < f.pixels.size := Nat.lt_of_lt_of_eq hk f.size_pixels.symm
  have hrow : (y * f.width + x) / f.width = y := by
    rw [Nat.add_comm, Nat.add_mul_div_right _ _ (by omega), Nat.div_eq_of_lt hx, Nat.zero_add]
  have hcolumn : (y * f.width + x) % f.width = x := by
    rw [Nat.add_comm, Nat.add_mul_mod_self_right, Nat.mod_eq_of_lt hx]
  cases hr : redrawn y <;> simp [pixel?, redraw, hx, hk, hs, hrow, hcolumn, hr]

end FrameBuffer

end Digic.Display
