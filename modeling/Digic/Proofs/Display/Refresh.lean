import Digic.Display.Compositor
import Mathlib.Data.List.Pairwise
import Mathlib.Tactic.Linarith
/-!
# One frame

A frame makes some rows of the surface anew and leaves the others. Of a row that it leaves neither
the bytes have changed nor, if it holds part of the lamp, the lamp.
-/
namespace Digic.Display

namespace FrameBuffer

/-- Surfaces of one size that show the same hold the same pixels. -/
theorem pixels_ext {f g : FrameBuffer} (hwidth : f.width = g.width) (hheight : f.height = g.height)
    (h : ∀ x y, x < f.width → y < f.height → f.pixel? x y = g.pixel? x y) :
    f.pixels = g.pixels := by
  apply Array.ext_getElem?
  intro k
  by_cases hk : k < f.width * f.height
  · have hpos : 0 < f.width := Nat.pos_of_mul_pos_right (Nat.zero_lt_of_lt hk)
    have hx : k % f.width < f.width := Nat.mod_lt k hpos
    have hy : k / f.width < f.height := Nat.div_lt_of_lt_mul hk
    have hpixel := h _ _ hx hy
    have hplace : k / f.width * f.width + k % f.width = k := Nat.div_add_mod' k f.width
    simpa [pixel?, hx, ← hwidth, hplace] using hpixel
  · have hf : f.pixels[k]? = none := by simp [f.size_pixels]; omega
    have hg : g.pixels[k]? = none := by simp [g.size_pixels, ← hwidth, ← hheight]; omega
    rw [hf, hg]

end FrameBuffer

namespace Scene

/-- The lamp lies within the rows that are made anew for it. -/
theorem ledColor?_eq_none {s : Scene} {y : Nat}
    (h : Compositor.isLedRow s.geometry.height y = false) (x : Nat) : s.ledColor? x y = none := by
  have houtside (hheight : ¬ s.geometry.height < 16) (dx : Int) :
      25 ≤ dx * dx + ((y : Int) - ((s.geometry.height : Int) - 8)) *
        ((y : Int) - ((s.geometry.height : Int) - 8)) := by
    have hfar : (y : Int) - ((s.geometry.height : Int) - 8) ≤ -5 ∨
        5 ≤ (y : Int) - ((s.geometry.height : Int) - 8) := by
      simp [Compositor.isLedRow] at h
      omega
    have hdx : 0 ≤ dx * dx := mul_self_nonneg dx
    rcases hfar with hfar | hfar <;> nlinarith
  unfold ledColor?
  cases s.led with
  | unknown => rfl
  | on | off =>
    by_cases hheight : s.geometry.height < 16
    · simp [hheight]
    · simp [houtside hheight]

/-- Outside of these rows the lamp does not matter. -/
theorem color_setLed (s : Scene) (led : CardLed) (row : RowSource) {x y : Nat}
    (h : led = s.led ∨ Compositor.isLedRow s.geometry.height y = false) :
    ({ s with led } : Scene).color row x y = s.color row x y := by
  rcases h with rfl | hrow
  · rfl
  · have hnew : ({ s with led } : Scene).ledColor? x y = none :=
      ledColor?_eq_none (s := { s with led := led }) hrow x
    rw [color, color, hnew, ledColor?_eq_none hrow x]
    rfl

end Scene

namespace Compositor

variable {c : Compositor} {s : Scene} {m : Memory} {f : FrameBuffer}

def needs (c : Compositor) (s : Scene) (m : Memory) (f : FrameBuffer) (y : Nat) : Bool :=
  c.needsRow s (c.isStale s f) y (s.source m y)

/-- A surface that shows a frame of which the rows in `needed` were made anew. -/
structure Drawn (s : Scene) (m : Memory) (needed : Nat → Bool) (f f' : FrameBuffer) : Prop where
  width : f'.width = s.geometry.width
  height : f'.height = s.geometry.height
  pixel : ∀ x y, x < s.geometry.width → y < s.geometry.height → f'.pixel? x y =
    if needed y then some (s.color (s.source m y) x y) else f.pixel? x y

/-- When a row is left. -/
theorem needs_eq_false_iff {y : Nat} : c.needs s m f y = false ↔
    (c.invalid = false ∧ (f.width = s.geometry.width ∧ f.height = s.geometry.height) ∧
      c.rows.size = s.geometry.height ∧ s.registers.generation = c.generation) ∧
    (s.led = c.led ∨ isLedRow s.geometry.height y = false) ∧
    c.rows[y]? = some (s.source m y) := by
  by_cases hled : s.led = c.led <;> simp [needs, needsRow, isStale, and_assoc, hled]

theorem needs_of_invalid (h : c.invalid = true) (s : Scene) (m : Memory) (f : FrameBuffer)
    (y : Nat) : c.needs s m f y = true := by
  simp [needs, needsRow, isStale, h]

theorem compositor_refresh (c : Compositor) (s : Scene) (m : Memory) (f : FrameBuffer) :
    (c.refresh s m f).2.1 = ⟨Array.ofFn fun y : Fin s.geometry.height => s.source m y, false,
      s.registers.generation, s.led⟩ := by
  rw [refresh]
  simp only
  split <;> rfl

/-- The least and the greatest number below a bound that has a property. -/
theorem head?_getLast?_filter_range (n : Nat) (p : Nat → Bool) :
    (∀ y < n, p y = false) ∧ ((List.range n).filter p) = [] ∨
    ∃ first last, ((List.range n).filter p).head? = some first ∧
      ((List.range n).filter p).getLast? = some last ∧
      (first < n ∧ p first = true) ∧ (last < n ∧ p last = true) ∧
      ∀ y < n, p y = true → first ≤ y ∧ y ≤ last := by
  by_cases hnone : (List.range n).filter p = []
  · left
    exact ⟨by simpa using hnone, hnone⟩
  · right
    have hsorted : ((List.range n).filter p).Pairwise (· ≤ ·) := List.pairwise_le_range.filter p
    refine ⟨_, _, List.head?_eq_some_head hnone, List.getLast?_eq_some_getLast hnone, ?_, ?_, ?_⟩
    · simpa using List.head_mem hnone
    · simpa using List.getLast_mem hnone
    · intro y hy hp
      have hmem : y ∈ (List.range n).filter p := by simp [hy, hp]
      exact ⟨hsorted.rel_head hmem, hsorted.rel_getLast hmem⟩

def fitted (s : Scene) (f : FrameBuffer) : FrameBuffer :=
  if (f.width, f.height) = (s.geometry.width, s.geometry.height) then f
  else f.resize s.geometry.width s.geometry.height

theorem fitted_size (s : Scene) (f : FrameBuffer) :
    (fitted s f).width = s.geometry.width ∧ (fitted s f).height = s.geometry.height ∧
      (fitted s f).blits = f.blits := by
  rw [fitted]
  split
  · next h => exact ⟨congrArg Prod.fst h, congrArg Prod.snd h, rfl⟩
  · exact ⟨rfl, rfl, rfl⟩

theorem fitted_of_not_needs {y : Nat} (h : c.needs s m f y = false) : fitted s f = f := by
  obtain ⟨⟨-, ⟨hwidth, hheight⟩, -⟩, -⟩ := needs_eq_false_iff.1 h
  rw [fitted, if_pos (by rw [hwidth, hheight])]

/-- What is drawn on a surface in the size of the frame. -/
theorem drawn_redraw {p : Nat → Bool} {k : Nat → Nat → UInt32}
    (hp : ∀ y < s.geometry.height, p y = c.needs s m f y)
    (hk : ∀ x, ∀ y < s.geometry.height, k x y = s.color (s.source m y) x y) :
    Drawn s m (c.needs s m f) f ((fitted s f).redraw p k) := by
  obtain ⟨hwidth, hheight, -⟩ := fitted_size s f
  refine ⟨hwidth, hheight, ?_⟩
  intro x y hx hy
  rw [FrameBuffer.pixel?_redraw _ _ _ (by omega) (by omega), hp y hy, hk x y hy]
  cases hneeds : c.needs s m f y with
  | true => rfl
  | false => rw [fitted_of_not_needs hneeds]

/-- A frame in terms of the rows that it makes anew. -/
theorem refresh_eq (c : Compositor) (s : Scene) (m : Memory) (f : FrameBuffer) :
    let redrawn := (List.range s.geometry.height).filter (c.needs s m f)
    let next : Compositor := ⟨Array.ofFn fun y : Fin s.geometry.height => s.source m y, false,
      s.registers.generation, s.led⟩
    ∃ shown : FrameBuffer, shown.blits = f.blits ∧ Drawn s m (c.needs s m f) f shown ∧
      c.refresh s m f = match redrawn.head?, redrawn.getLast? with
        | some first, some last => (some (first, last), next, shown.blit first last)
        | _, _ => (none, next, fitted s f) := by
  intro redrawn next
  let rows := Array.ofFn fun y : Fin s.geometry.height => s.source m y.val
  let row := fun y : Nat => rows[y]?.getD ⟨.empty, .empty⟩
  let needed := Array.ofFn fun y : Fin s.geometry.height =>
    c.needsRow s (c.isStale s f) y.val (row y.val)
  have hrow : ∀ y < s.geometry.height, row y = s.source m y := by
    intro y hy
    simp [row, rows, hy]
  have hneeded : ∀ y < s.geometry.height, needed[y]?.getD false = c.needs s m f y := by
    intro y hy
    simp [needed, hy, hrow, needs]
  have hredrawn : (List.range s.geometry.height).filter (fun y => needed[y]?.getD false) =
      redrawn := by
    apply List.filter_congr
    intro y hy
    exact hneeded y (by simpa using hy)
  refine ⟨(fitted s f).redraw (fun y => needed[y]?.getD false) fun x y => s.color (row y) x y,
    (fitted_size s f).2.2, drawn_redraw hneeded ?_, ?_⟩
  · intro x y hy
    simp only [hrow y hy]
  · rw [← hredrawn]
    rfl

/-- Either no row was made anew, and nothing was changed or reported, or the first and the last row
that were are given and reported once. -/
theorem refresh_cases (hpos : 0 < s.geometry.height) :
    ((∀ y < s.geometry.height, c.needs s m f y = false) ∧
      (c.refresh s m f).1 = none ∧ (c.refresh s m f).2.2 = f) ∨
    ∃ first last, (c.refresh s m f).1 = some (first, last) ∧
      (first < s.geometry.height ∧ c.needs s m f first = true) ∧
      (last < s.geometry.height ∧ c.needs s m f last = true) ∧
      (∀ y < s.geometry.height, c.needs s m f y = true → first ≤ y ∧ y ≤ last) ∧
      (c.refresh s m f).2.2.blits = (first, last) :: f.blits ∧
      Drawn s m (c.needs s m f) f (c.refresh s m f).2.2 := by
  obtain ⟨shown, hblits, hdrawn, heq⟩ := refresh_eq c s m f
  rcases head?_getLast?_filter_range s.geometry.height (c.needs s m f) with
    ⟨hnone, hempty⟩ | ⟨first, last, hfirst, hlast, hbounds⟩
  · left
    rw [heq, hempty]
    exact ⟨hnone, rfl, fitted_of_not_needs (hnone 0 hpos)⟩
  · right
    rw [heq, hfirst, hlast]
    refine ⟨first, last, rfl, hbounds.1, hbounds.2.1, hbounds.2.2, ?_, ?_⟩
    · simp [FrameBuffer.blit, hblits]
    · exact ⟨hdrawn.width, hdrawn.height, hdrawn.pixel⟩

/-- A frame shows the rows that it makes anew and those that it leaves. -/
theorem drawn_refresh (hpos : 0 < s.geometry.height) :
    Drawn s m (c.needs s m f) f (c.refresh s m f).2.2 := by
  rcases refresh_cases (c := c) (m := m) (f := f) hpos with
    ⟨hnone, -, hsame⟩ | ⟨_, _, -, -, -, -, -, hdrawn⟩
  · obtain ⟨⟨-, ⟨hwidth, hheight⟩, -⟩, -⟩ := needs_eq_false_iff.1 (hnone 0 hpos)
    rw [hsame]
    refine ⟨hwidth, hheight, ?_⟩
    intro x y hx hy
    simp [hnone y hy]
  · exact hdrawn

/-- A row that comes out different was made anew. -/
theorem needs_of_pixel?_ne (hpos : 0 < s.geometry.height) {x y : Nat} (hy : y < s.geometry.height)
    (h : (c.refresh s m f).2.2.pixel? x y ≠ f.pixel? x y) : c.needs s m f y = true := by
  by_contra hleft
  have hneeds : c.needs s m f y = false := by simpa using hleft
  obtain ⟨⟨-, ⟨hwidth, -⟩, -⟩, -⟩ := needs_eq_false_iff.1 hneeds
  have hdrawn := drawn_refresh (c := c) (m := m) (f := f) hpos
  apply h
  by_cases hx : x < s.geometry.width
  · rw [hdrawn.pixel x y hx hy, hneeds]
    rfl
  · simp [FrameBuffer.pixel?, hdrawn.width, hwidth, hx]

end Compositor

end Digic.Display
