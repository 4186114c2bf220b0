import Digic.Memory.Lemmas
import Digic.Proofs.Display.Frames
/-!
# What a frame is composed of

Each pixel of a frame goes back to a few bytes in memory: one byte of the bitmap, and where that
one is transparent, four bytes of the image plane, which two pixels of the plane share. The lamp
lies over a small square of pixels and hides nothing else.
-/
namespace Digic.Display

def level (x : Int) : Nat := (max 0 (min 255 x)).toNat

/-- The colour of luma and chroma that has its zero at 128, one byte for each of red, green and
blue. What a chroma byte contributes is rounded down. -/
def offsetColor (matrix : ColorMatrix) (y u v : UInt8) : Nat :=
  let k := Coefficients.of matrix
  let red : Int := y.toNat + k.redV * (v.toNat - 128) / 1024
  let green : Int := y.toNat + k.greenU * (u.toNat - 128) / 1024 + k.greenV * (v.toNat - 128) / 1024
  let blue : Int := y.toNat + k.blueU * (u.toNat - 128) / 1024
  level red * 0x10000 + level green * 0x100 + level blue

theorem level_lt (x : Int) : level x < 0x100 := by
  unfold level
  omega

theorem toNat_clamp (x : Int) : (clamp x).toNat = level x := by
  have hlt := level_lt x
  exact UInt32.toNat_ofNat_of_lt' (show level x < 2 ^ 32 by omega)

/-- To flip the top bit moves the zero of a chroma byte. -/
theorem signed_xor (b : UInt8) : signed (b ^^^ 0x80) = (b.toNat : Int) - 128 := by
  have hall : ∀ n : Fin 256, signed (UInt8.ofNat n.val ^^^ 0x80) = (n.val : Int) - 128 := by
    decide +kernel
  have hb := hall ⟨b.toNat, b.toNat_lt⟩
  rwa [UInt8.ofNat_toNat] at hb

/-- Three bytes side by side. -/
theorem toNat_pack {red green blue : UInt32} (hred : red.toNat < 2 ^ 8)
    (hgreen : green.toNat < 2 ^ 8) (hblue : blue.toNat < 2 ^ 8) :
    (pack red green blue).toNat = red.toNat * 0x10000 + green.toNat * 0x100 + blue.toNat := by
  have hlow := Nat.shiftLeft_add_eq_or_of_lt hblue (red.toNat <<< 8 ||| green.toNat)
  have hhigh := Nat.shiftLeft_add_eq_or_of_lt hgreen red.toNat
  have hred' : red.toNat <<< 16 % 0x100000000 = red.toNat <<< 16 := by
    rw [Nat.shiftLeft_eq]
    omega
  have hgreen' : green.toNat <<< 8 % 0x100000000 = green.toNat <<< 8 := by
    rw [Nat.shiftLeft_eq]
    omega
  have hpack : (pack red green blue).toNat =
      (red.toNat <<< 8 ||| green.toNat) <<< 8 ||| blue.toNat := by
    rw [Nat.shiftLeft_or_distrib, ← Nat.shiftLeft_add]
    simp [pack, hred', hgreen']
  rw [hpack, ← hlow, ← hhigh, Nat.shiftLeft_eq, Nat.shiftLeft_eq]
  omega

/-- The colour of a pixel of an image plane. -/
theorem toNat_planeRgb (matrix : ColorMatrix) (y u v : UInt8) :
    (planeRgb matrix y u v).toNat = offsetColor matrix y u v := by
  have hbyte (x : Int) : (clamp x).toNat < 0x100 := by
    rw [toNat_clamp]
    exact level_lt x
  rw [planeRgb, rgb, toNat_pack (hbyte _) (hbyte _) (hbyte _)]
  simp only [toNat_clamp, contribution, signed_xor]
  rfl

/-- The half of a byte that is the index of a pixel: the low one for an even pixel, the high one
for an odd pixel. -/
def halfByte (b : UInt8) (x : Nat) : Fin 16 :=
  Fin.ofNat 16 (if x % 2 = 0 then b.toNat % 16 else b.toNat / 16)

theorem toNat_halfByte (b : UInt8) (x : Nat) :
    (if x % 2 = 1 then b >>> 4 else b &&& 0xF).toNat = (halfByte b x).val := by
  have hb := b.toNat_lt
  have hlow : (b &&& 0xF).toNat = b.toNat % 16 := Nat.and_two_pow_sub_one_eq_mod b.toNat 4
  have hhigh : (b >>> 4).toNat = b.toNat / 16 := Nat.shiftRight_eq_div_pow b.toNat 4
  rcases Nat.mod_two_eq_zero_or_one x with hx | hx
  · simp [halfByte, hx, hlow]
  · have hlt : b.toNat / 16 < 16 := by omega
    simp [halfByte, hx, hhigh, Nat.mod_eq_of_lt hlt]

namespace Scene

/-- Byte `i` of a row of the bitmap, which lies at `0x08000000` until firmware says where. -/
def bitmapByte (s : Scene) (m : Memory) (y i : Nat) : UInt8 :=
  let start : UInt32 := if s.registers.bitmap = 0 then 0x08000000 else s.registers.bitmap
  m.byte (start.toNat + y * s.registers.pitch.toNat + i).toUInt32

/-- Byte `i` of row `j` of the image plane, which has two bytes to a pixel. -/
def imageByte (s : Scene) (m : Memory) (j i : Nat) : UInt8 :=
  m.byte (s.registers.image.toNat + j * (2 * s.geometry.imageWidth) + i).toUInt32

/-- Pixel `k` of row `j` of the image plane. Two pixels make a group of four bytes: the chroma byte
U, the luma of the first pixel, the chroma byte V, the luma of the second. -/
def planeColor (s : Scene) (m : Memory) (j k : Nat) : UInt32 :=
  let group := fun i => s.imageByte m j (4 * (k / 2) + i)
  (offsetColor s.matrix (group (if k % 2 = 0 then 1 else 3)) (group 0) (group 2)).toUInt32

variable {s : Scene} {m : Memory} {x y : Nat}

/-- Addresses count on around the top of memory. -/
theorem toUInt32_row (start : UInt32) (row i : Nat) :
    (start.toNat + row + i).toUInt32 = start + row.toUInt32 + i.toUInt32 := by
  simp only [Nat.toUInt32_eq, UInt32.ofNat_add, UInt32.ofNat_toNat]

theorem bitmap_source {i : Nat} (hi : i < s.bitmapLength) :
    (s.source m y).bitmap[i]? = some (s.bitmapByte m y i) := by
  have hrow : (y * s.registers.pitch.toNat).toUInt32 = y.toUInt32 * s.registers.pitch := by
    simp only [Nat.toUInt32_eq, UInt32.ofNat_mul, UInt32.ofNat_toNat]
  rw [bitmapByte, toUInt32_row, hrow]
  exact m.getElem?_read (s.bitmapRow y) hi

theorem image_source (himage : s.hasImage = true) {i : Nat} (hi : i < s.imageLength) :
    (s.source m y).image[i]? =
      some (s.imageByte m (y * s.geometry.imageHeight / s.geometry.height) i) := by
  have hlength : 2 * s.geometry.imageWidth = s.imageLength := Nat.mul_comm ..
  rw [source, if_pos himage, imageByte, toUInt32_row, hlength]
  exact m.getElem?_read (s.imageRow y) hi

/-- In four-bit mode a byte of the bitmap holds two pixels. -/
theorem color4_source (hfour : s.registers.fourBit = true) (hx : x < s.geometry.width) :
    s.color4 (s.source m y) x =
      s.registers.palette4[halfByte (s.bitmapByte m y (x / 2)) x].rgb := by
  have hlength : x / 2 < s.bitmapLength := by
    rw [bitmapLength, if_pos hfour]
    omega
  rw [color4, bitmap_source hlength, Option.getD_some, toNat_halfByte]
  simp

/-- Where the bitmap is transparent, a pixel of the image plane shows, each `q`th one if the plane
is `q` times as wide as the output. -/
theorem imageColor_source (himage : s.hasImage = true) {q : Nat}
    (hq : s.geometry.imageWidth = q * s.geometry.width) (heven : s.geometry.imageWidth % 2 = 0)
    (hpos : 0 < s.geometry.imageWidth) (hx : x < s.geometry.width) :
    s.imageColor (s.source m y) x =
      s.planeColor m (y * s.geometry.imageHeight / s.geometry.height) (q * x) := by
  have hstep : s.imageStep = 2 * q := by
    have hwidth : 0 < s.geometry.width := Nat.zero_lt_of_lt hx
    rw [imageStep, imageLength, hq, Nat.mul_right_comm, Nat.mul_div_cancel _ hwidth, Nat.mul_comm]
  have hplace : x * s.imageStep = 2 * (q * x) := by
    rw [hstep, Nat.mul_comm, Nat.mul_assoc]
  have hinside : q * x < s.geometry.imageWidth := by
    rw [hq] at hpos ⊢
    exact Nat.mul_lt_mul_of_pos_left hx (Nat.pos_of_mul_pos_right hpos)
  have hgroup : 2 * (q * x) / 4 * 4 = 4 * (q * x / 2) := by omega
  have hfirst : 2 * (q * x) % 4 = 0 ↔ q * x % 2 = 0 := by omega
  have hbyte (i : Nat) (hi : i < 4) : (s.source m y).image[4 * (q * x / 2) + i]? =
      some (s.imageByte m (y * s.geometry.imageHeight / s.geometry.height)
        (4 * (q * x / 2) + i)) := by
    apply image_source himage
    rw [imageLength]
    omega
  have hcolor (y u v : UInt8) :
      planeRgb s.matrix y u v = (offsetColor s.matrix y u v).toUInt32 := by
    rw [← toNat_planeRgb, Nat.toUInt32_eq, UInt32.ofNat_toNat]
  have hzero := hbyte 0 (by decide)
  rw [Nat.add_zero] at hzero
  simp only [imageColor, hplace, hgroup, hfirst, hzero, hbyte 1 (by decide), hbyte 2 (by decide),
    hbyte 3 (by decide), hcolor, planeColor]
  split <;> rfl

/-- In eight-bit mode a byte of the bitmap is a pixel. -/
theorem color8_source {q : Nat} (hfour : s.registers.fourBit = false)
    (hq : s.geometry.imageWidth = q * s.geometry.width) (heven : s.geometry.imageWidth % 2 = 0)
    (hpos : 0 < s.geometry.imageWidth) (hx : x < s.geometry.width) :
    s.color8 (s.source m y) x =
      if s.bitmapByte m y x ≠ 0 then
        s.registers.palette8[Fin.ofNat 256 (s.bitmapByte m y x).toNat].rgb
      else if s.registers.image = 0 then 0
      else s.planeColor m (y * s.geometry.imageHeight / s.geometry.height) (q * x) := by
  have hlength : x < s.bitmapLength := by
    rwa [bitmapLength, hfour, if_neg Bool.false_ne_true]
  have hindex (b : UInt8) : b.toNat = (Fin.ofNat 256 b.toNat).val :=
    (Nat.mod_eq_of_lt b.toNat_lt).symm
  have himage : s.hasImage = true ↔ s.registers.image ≠ 0 := by
    simp [hasImage, hfour]
  rw [color8, bitmap_source hlength, Option.getD_some]
  by_cases hzero : s.bitmapByte m y x = 0
  · by_cases hset : s.registers.image = 0
    · simp [hzero, hset, hasImage]
    · simp [hzero, hset, himage.2 hset, imageColor_source (himage.2 hset) hq heven hpos hx]
  · rw [if_pos hzero, if_pos hzero]
    have hentry (k : Fin 256) : s.registers.palette8[k.val]?.getD .black =
        s.registers.palette8[k] := by simp
    exact (congrArg (fun k : Nat => (s.registers.palette8[k]?.getD .black).rgb)
      (hindex _)).trans (congrArg PaletteEntry.rgb (hentry _))

/-- The lamp lies within a square of nine pixels near the lower right corner. -/
theorem within_of_ledColor?_ne_none (h : s.ledColor? x y ≠ none) :
    (16 ≤ s.geometry.width ∧ 16 ≤ s.geometry.height) ∧
    (s.geometry.width - 12 ≤ x ∧ x ≤ s.geometry.width - 4) ∧
    (s.geometry.height - 12 ≤ y ∧ y ≤ s.geometry.height - 4) := by
  let dx : Int := x - ((s.geometry.width : Int) - 8)
  let dy : Int := y - ((s.geometry.height : Int) - 8)
  have hdrawn : 16 ≤ s.geometry.width ∧ 16 ≤ s.geometry.height ∧ dx * dx + dy * dy < 25 := by
    by_contra hnot
    have houtside : s.geometry.width < 16 ∨ s.geometry.height < 16 ∨ 25 ≤ dx * dx + dy * dy := by
      omega
    apply h
    unfold ledColor?
    cases s.led with
    | unknown => rfl
    | on | off => exact if_pos houtside
  obtain ⟨hwidth, hheight, hsquare⟩ := hdrawn
  have hnear (a b : Int) (hsum : a * a + b * b < 25) : -5 < a ∧ a < 5 := by
    have hb : 0 ≤ b * b := mul_self_nonneg b
    constructor <;> nlinarith
  have hx := hnear dx dy hsquare
  have hy := hnear dy dx (by omega)
  refine ⟨⟨hwidth, hheight⟩, ?_, ?_⟩ <;> omega

def withLed (s : Scene) (led : CardLed) : Scene := { s with led }

/-- A lamp that was never driven leaves all pixels to the two planes. -/
theorem color_withLed_unknown (s : Scene) (row : RowSource) (x y : Nat) :
    (s.withLed .unknown).color row x y =
      if s.registers.fourBit then s.color4 row x else s.color8 row x := rfl

/-- A lamp changes no pixel that it does not cover. -/
theorem color_withLed_of_none {led : CardLed} (h : (s.withLed led).ledColor? x y = none)
    (row : RowSource) : (s.withLed led).color row x y = (s.withLed .unknown).color row x y := by
  rw [color, h]
  rfl

end Scene

/-- An image plane has an even number of pixels in a row. -/
theorem Geometry.imageWidth_even (m : Model) (r : Registers) :
    (ofDisplay m r).imageWidth % 2 = 0 ∧ 0 < (ofDisplay m r).imageWidth := by
  have hmodel : (ofModel m).imageWidth % 2 = 0 ∧ 0 < (ofModel m).imageWidth := by
    unfold ofModel
    cases m.screen <;> simp [ofScreen] <;> split <;> simp
  unfold ofDisplay
  split <;> exact hmodel

namespace Panel

/-- The surface after a frame that is made anew as a whole, with the lamp in some state. -/
def wholeFrame (p : Panel) (led : CardLed) : FrameBuffer :=
  (p.run [.led led, .invalidate, .update]).surface

theorem wholeFrame_drawn (p : Panel) (led : CardLed) : Compositor.Drawn (p.scene.withLed led)
    p.memory (fun _ => true) p.surface (p.wholeFrame led) :=
  (p.happen (.led led)).drawn_invalidate_update

/-- Memory and the registers of the display may be any, so that all places are taken modulo
`2 ^ 32`. A frame that is made anew as a whole, while the lamp was never driven, shows

* in four-bit mode the palette entry that the half of a byte of the bitmap names,
* in eight-bit mode the palette entry that a byte of the bitmap names if it is not zero, and
  otherwise black or, if there is an image plane, the pixel of the plane that lies there when each
  of its rows is `q` times as wide as the output.

A lamp that was driven changes some pixels in a square of nine near the lower right corner, if both
sides of the output are at least 16 long. -/
theorem whole_frame_composes (p : Panel) {q : Nat}
    (hq : p.scene.geometry.imageWidth = q * p.scene.geometry.width) :
    let g := p.scene.geometry
    let r := p.registers
    let bitmap := p.scene.bitmapByte p.memory
    (∀ led, (p.wholeFrame led).width = g.width ∧ (p.wholeFrame led).height = g.height) ∧
    (∀ x y, x < g.width → y < g.height → (p.wholeFrame .unknown).pixel? x y = some (
      if r.fourBit then r.palette4[halfByte (bitmap y (x / 2)) x].rgb
      else if bitmap y x ≠ 0 then r.palette8[Fin.ofNat 256 (bitmap y x).toNat].rgb
      else if r.image = 0 then 0
      else p.scene.planeColor p.memory (y * g.imageHeight / g.height) (q * x))) ∧
    ∀ led x y, x < g.width → y < g.height →
      (p.wholeFrame led).pixel? x y ≠ (p.wholeFrame .unknown).pixel? x y →
      (16 ≤ g.width ∧ 16 ≤ g.height) ∧ (g.width - 12 ≤ x ∧ x ≤ g.width - 4) ∧
        (g.height - 12 ≤ y ∧ y ≤ g.height - 4) := by
  intro g r bitmap
  obtain ⟨heven, hpos⟩ := Geometry.imageWidth_even p.model p.registers
  have hpixel (led : CardLed) {x y : Nat} (hx : x < g.width) (hy : y < g.height) :
      (p.wholeFrame led).pixel? x y =
        some ((p.scene.withLed led).color (p.scene.source p.memory y) x y) :=
    (p.wholeFrame_drawn led).pixel x y hx hy
  refine ⟨fun led => ⟨(p.wholeFrame_drawn led).width, (p.wholeFrame_drawn led).height⟩, ?_, ?_⟩
  · intro x y hx hy
    rw [hpixel .unknown hx hy, Scene.color_withLed_unknown]
    by_cases hfour : p.registers.fourBit = true
    · exact congrArg some
        ((if_pos hfour).trans ((Scene.color4_source hfour hx).trans (if_pos hfour).symm))
    · have hbyte : p.scene.registers.fourBit = false := eq_false_of_ne_true hfour
      exact congrArg some ((if_neg hfour).trans
        ((Scene.color8_source hbyte hq heven hpos hx).trans (if_neg hfour).symm))
  · intro led x y hx hy hdifferent
    by_contra hoff
    apply hdifferent
    have hnone : (p.scene.withLed led).ledColor? x y = none := by
      by_contra hlamp
      exact hoff (Scene.within_of_ledColor?_ne_none (s := p.scene.withLed led) hlamp)
    rw [hpixel led hx hy, hpixel .unknown hx hy, Scene.color_withLed_of_none hnone]

/-- The plane is twice as wide and twice as high as the output. A pixel of the second row shows the
second group of four bytes in the third row of the plane. -/
theorem whole_frame_composes_scaled :
    let p : Panel := ⟨{ Model.standard with screen := .hdmi1080 },
      (Memory.blank 0).write 0x2001E04 ⟨#[0x80, 0x10, 0x80, 0x20]⟩,
      { Registers.new with image := 0x2000000 }, .on, .new, .new, none⟩
    p.scene.geometry.imageWidth = 2 * p.scene.geometry.width ∧
      (p.wholeFrame .unknown).pixel? 1 1 = some 0x101010 := by
  intro p
  have hq : p.scene.geometry.imageWidth = 2 * p.scene.geometry.width := rfl
  obtain ⟨-, hpixel, -⟩ := whole_frame_composes p hq
  have hbyte (k : Nat) : p.memory.byte k.toUInt32 =
      ((⟨#[0x80, 0x10, 0x80, 0x20]⟩ : ByteArray)[(k.toUInt32 - 0x2001E04).toNat]?).getD 0 := by
    rw [Memory.byte_write, Memory.byte_blank]
  have hindex : p.scene.bitmapByte p.memory 1 1 = 0 := by
    rw [Scene.bitmapByte, hbyte]
    decide +kernel
  have hplane : p.scene.planeColor p.memory
      (1 * p.scene.geometry.imageHeight / p.scene.geometry.height) (2 * 1) = 0x101010 := by
    simp only [Scene.planeColor, Scene.imageByte, hbyte]
    decide +kernel
  refine ⟨hq, (hpixel 1 1 (by decide) (by decide)).trans ?_⟩
  rw [if_neg (by decide), if_neg (by simp [hindex]), if_neg (by decide)]
  exact congrArg some hplane

end Panel

end Digic.Display
