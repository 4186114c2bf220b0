import Digic.Proofs.Bus.Effects
import Digic.Proofs.Display.Refresh
import Mathlib.Data.List.Induction
/-!
# Runs of frames

Between two frames the guest may write to memory and to the display, the lamp may change, and the
surface may be put aside for one of another size. Still, whatever came before, a frame that makes
only some rows anew shows what a whole one would.
-/
namespace Digic.Display

/-- A display, the surface that its frames are drawn on, and what they are drawn from. -/
structure Panel where
  model : Model
  memory : Memory
  registers : Registers
  led : CardLed
  compositor : Compositor
  surface : FrameBuffer
  /-- The surface as the last frame left it, if there was one. -/
  drawn : Option FrameBuffer

inductive Event where
  | memory (memory : Memory)
  | register (window : Handler.Window) (pc addr value : UInt32)
  | led (led : CardLed)
  | invalidate
  /-- Another surface takes the place of the one before, or that one is changed by others. -/
  | replace (surface : FrameBuffer)
  | update

namespace Panel

def scene (p : Panel) : Scene :=
  ⟨p.model.colorMatrix, p.registers, .ofDisplay p.model p.registers, p.led⟩

def frame (p : Panel) : Option (Nat × Nat) × Compositor × FrameBuffer :=
  p.compositor.refresh p.scene p.memory p.surface

def happen (p : Panel) : Event → Panel
  | .memory memory => { p with memory }
  | .register window pc addr value =>
    { p with
      registers :=
        (stateAfter (write ⟨window, pc, p.model⟩ addr value) ⟨p.registers, #[]⟩).device }
  | .led led => { p with led }
  | .invalidate => { p with compositor := p.compositor.invalidate }
  | .replace surface => { p with surface }
  | .update =>
    { p with compositor := p.frame.2.1, surface := p.frame.2.2, drawn := some p.frame.2.2 }

def run (p : Panel) (events : List Event) : Panel := events.foldl happen p

/-- The surface shows what the last frame left there, or has another size than that frame. Other
pixels in the same size would go unnoticed, as `frame_replace_update` says. -/
def Presents (p : Panel) : Prop :=
  ∀ f ∈ p.drawn, p.surface.width = f.width → p.surface.height = f.height →
    p.surface.pixels = f.pixels

/-- Before each frame of a run the surface shows what the frame before left there, or has another
size. -/
def Presented (p : Panel) (events : List Event) : Prop :=
  ∀ before, before ++ [.update] <+: events → (p.run before).Presents

/-- Each surface has another size than the one whose place it takes. One that is taken back in the
size of the last frame may still be blank. -/
def Resized : Panel → List Event → Prop
  | _, [] => True
  | p, e :: events =>
    (∀ f, e = .replace f → f.width ≠ p.surface.width ∨ f.height ≠ p.surface.height) ∧
      (p.happen e).Resized events

end Panel

/-- The output has rows, whatever its size is set to. -/
theorem Geometry.height_pos (m : Model) (r : Registers) : 0 < (Geometry.ofDisplay m r).height := by
  have hmodel : 0 < (Geometry.ofModel m).height := by
    unfold ofModel
    cases m.screen <;> simp [ofScreen] <;> split <;> simp
  unfold ofDisplay Registers.resolution?
  split
  · next width height h =>
    simp at h
    have hheight := h.1.2
    rw [← UInt32.toNat_inj] at hheight
    simp at hheight
    simp
    omega
  · exact hmodel

namespace Panel

variable {p : Panel}

theorem height_pos (p : Panel) : 0 < p.scene.geometry.height :=
  Geometry.height_pos p.model p.registers

/-- What the compositor remembers of the last frame: the surface `f` that it left, and in its cache
the bytes that the rows of `f` were made from while the registers were `r`. -/
structure Remembers (p : Panel) (r : Registers) (f : FrameBuffer) : Prop where
  drawn : p.drawn = some f
  generation : p.compositor.generation = r.generation
  /-- Registers that were not written since are the same. -/
  registers : r.generation < p.registers.generation ∨ p.registers = r
  width : f.width = (Geometry.ofDisplay p.model r).width
  height : f.height = (Geometry.ofDisplay p.model r).height
  pixel : ∀ x y row, x < f.width → y < f.height → p.compositor.rows[y]? = some row →
    f.pixel? x y = some (Scene.color
      ⟨p.model.colorMatrix, r, .ofDisplay p.model r, p.compositor.led⟩ row x y)

/-- Between frames the compositor remembers the last one, or is to make all of the next. -/
def Ready (p : Panel) : Prop := p.compositor.invalid = true ∨ ∃ r f, p.Remembers r f

/-- A row that is left is shown as it would be made. -/
theorem pixel_of_not_needs (h : p.Ready) (hpresents : p.Presents) {x y : Nat}
    (hx : x < p.scene.geometry.width) (hy : y < p.scene.geometry.height)
    (hneeds : p.compositor.needs p.scene p.memory p.surface y = false) :
    p.surface.pixel? x y = some (p.scene.color (p.scene.source p.memory y) x y) := by
  obtain ⟨⟨hvalid, ⟨hwidth, hheight⟩, -, hgeneration⟩, hled, hrow⟩ :=
    Compositor.needs_eq_false_iff.1 hneeds
  rcases h with hinvalid | ⟨r, f, hr⟩
  · simp [hvalid] at hinvalid
  · have hregisters : p.registers = r := by
      rcases hr.registers with hlt | heq
      · have hsame : p.registers.generation = r.generation := hgeneration.trans hr.generation
        omega
      · exact heq
    subst hregisters
    have hfw : p.surface.width = f.width := hwidth.trans hr.width.symm
    have hfh : p.surface.height = f.height := hheight.trans hr.height.symm
    have hpixels : p.surface.pixels = f.pixels := hpresents f hr.drawn hfw hfh
    have hshown : p.surface.pixel? x y = f.pixel? x y := by
      simp [FrameBuffer.pixel?, hfw, hpixels]
    have hold := hr.pixel x y _ (by omega) (by omega) hrow
    rw [hshown, hold]
    exact congrArg some (p.scene.color_setLed p.compositor.led _ (hled.imp_left Eq.symm))

theorem drawn_update (p : Panel) : Compositor.Drawn p.scene p.memory
    (p.compositor.needs p.scene p.memory p.surface) p.surface (p.happen .update).surface :=
  Compositor.drawn_refresh p.height_pos

/-- After `invalidate` all rows are made anew, whatever stands on the surface. -/
theorem drawn_invalidate_update (p : Panel) : Compositor.Drawn p.scene p.memory (fun _ => true)
    p.surface ((p.happen .invalidate).happen .update).surface := by
  have hneeds : (p.happen .invalidate).compositor.needs p.scene p.memory p.surface =
      fun _ => true := funext fun y => Compositor.needs_of_invalid rfl _ _ _ y
  exact hneeds ▸ (p.happen .invalidate).drawn_update

/-- Whatever was left of it, a frame shows each pixel as it would be made. -/
theorem pixel_update (h : p.Ready) (hpresents : p.Presents) {x y : Nat}
    (hx : x < p.scene.geometry.width) (hy : y < p.scene.geometry.height) :
    (p.happen .update).surface.pixel? x y =
      some (p.scene.color (p.scene.source p.memory y) x y) := by
  have hpixel := p.drawn_update.pixel x y hx hy
  cases hneeds : p.compositor.needs p.scene p.memory p.surface y with
  | true => simpa [hneeds] using hpixel
  | false =>
    rw [pixel_of_not_needs h hpresents hx hy hneeds] at hpixel
    simpa [hneeds] using hpixel

/-- After a frame the cache holds what the rows would be made from now. -/
theorem compositor_update (p : Panel) : (p.happen .update).compositor =
    ⟨Array.ofFn fun y : Fin p.scene.geometry.height => p.scene.source p.memory y, false,
      p.registers.generation, p.led⟩ := Compositor.compositor_refresh ..

theorem happen_replace_replace (p : Panel) (f g : FrameBuffer) :
    (p.happen (.replace f)).happen (.replace g) = p.happen (.replace g) := rfl

/-- Nothing tells a frame of another surface in the size of the last one, which stays as it is. -/
theorem frame_replace_update (p : Panel) {f : FrameBuffer}
    (hwidth : f.width = p.scene.geometry.width) (hheight : f.height = p.scene.geometry.height) :
    let q := (p.happen .update).happen (.replace f)
    q.frame.1 = none ∧ (q.happen .update).surface = f := by
  intro q
  have hleft : ∀ y < q.scene.geometry.height,
      q.compositor.needs q.scene q.memory q.surface y = false := by
    intro y (hy : y < p.scene.geometry.height)
    have hcompositor : q.compositor = _ := p.compositor_update
    have hrow : q.compositor.rows[y]? = some (p.scene.source p.memory y) := by
      simp [hcompositor, hy]
    have hrows : q.compositor.rows.size = p.scene.geometry.height := by
      simp [hcompositor]
    have hgeneration : q.compositor.generation = p.registers.generation := by rw [hcompositor]
    have hled : q.compositor.led = p.led := by rw [hcompositor]
    have hvalid : q.compositor.invalid = false := by rw [hcompositor]
    exact Compositor.needs_eq_false_iff.2
      ⟨⟨hvalid, ⟨hwidth, hheight⟩, hrows, hgeneration.symm⟩, .inl hled.symm, hrow⟩
  rcases Compositor.refresh_cases (c := q.compositor) (m := q.memory) (f := q.surface)
    q.height_pos with ⟨-, hnone, hsame⟩ | ⟨first, last, -, hfirst, -⟩
  · exact ⟨hnone, hsame⟩
  · simp [hleft first hfirst.1] at hfirst

/-- After a frame the compositor remembers it. -/
theorem remembers_update (h : p.Ready) (hpresents : p.Presents) :
    (p.happen .update).Remembers p.registers (p.happen .update).surface := by
  have hcompositor := p.compositor_update
  refine ⟨rfl, ?_, .inr rfl, p.drawn_update.width, p.drawn_update.height, ?_⟩
  · rw [hcompositor]
  · intro x y row hx hy hrow
    rw [p.drawn_update.width] at hx
    rw [p.drawn_update.height] at hy
    have hsource : p.scene.source p.memory y = row := by
      simpa [hcompositor, hy] using hrow
    rw [pixel_update h hpresents hx hy, hsource, hcompositor]
    rfl

/-- Nothing that happens makes the compositor forget, if each frame finds what it left. -/
theorem ready_happen (h : p.Ready) (e : Event) (hpresents : e = .update → p.Presents) :
    (p.happen e).Ready := by
  cases e with
  | memory | led | replace =>
    refine h.imp_right ?_
    rintro ⟨r, f, hr⟩
    exact ⟨r, f, hr.drawn, hr.generation, hr.registers, hr.width, hr.height, hr.pixel⟩
  | register window pc addr value =>
    refine h.imp_right ?_
    rintro ⟨r, f, hr⟩
    have hlt : r.generation < p.registers.generation + 1 := by
      rcases hr.registers with hlt | rfl <;> omega
    exact ⟨r, f, hr.drawn, hr.generation, .inl hlt, hr.width, hr.height, hr.pixel⟩
  | invalidate => exact .inl rfl
  | update => exact .inr ⟨_, _, remembers_update h (hpresents rfl)⟩

theorem run_concat (p : Panel) (events : List Event) (e : Event) :
    p.run (events ++ [e]) = (p.run events).happen e := by
  simp [run]

theorem Presented.of_concat {events : List Event} {e : Event}
    (h : p.Presented (events ++ [e])) : p.Presented events := by
  intro before hbefore
  exact h before (hbefore.trans (List.prefix_append events [e]))

theorem ready_run (h : p.Ready) (events : List Event) (hpresented : p.Presented events) :
    (p.run events).Ready := by
  induction events using List.reverseRecOn with
  | nil => exact h
  | append_singleton events e ih =>
    rw [run_concat]
    apply ready_happen (ih hpresented.of_concat)
    rintro rfl
    exact hpresented events List.prefix_rfl

/-- A display starts with a compositor that has drawn nothing. Memory, registers, lamp and surface
may be any. After any events, in which each frame finds on the surface what the frame before left
there or a surface of another size, the next frame

* shows in each pixel what the bytes of its row, the registers and the lamp give by then,
* shows what it would show if all of it were made anew,
* gives no rows only if it changes nothing on the surface, and reports nothing to it,
* otherwise gives the first and the last row that it makes anew, between which all rows lie that it
  makes anew or that come out different, and reports these two once. -/
theorem frame_shows_whole (hnew : p.compositor = .new) (events : List Event)
    (hpresented : p.Presented (events ++ [.update])) :
    let q := p.run events
    let shown := (q.happen .update).surface
    let whole := ((q.happen .invalidate).happen .update).surface
    let needs := q.compositor.needs q.scene q.memory q.surface
    (shown.width = q.scene.geometry.width ∧ shown.height = q.scene.geometry.height ∧
      ∀ x y, x < shown.width → y < shown.height →
        shown.pixel? x y = some (q.scene.color (q.scene.source q.memory y) x y)) ∧
    (shown.width = whole.width ∧ shown.height = whole.height ∧ shown.pixels = whole.pixels) ∧
    (q.frame.1 = none → shown = q.surface) ∧
    ∀ first last, q.frame.1 = some (first, last) →
      (first < shown.height ∧ needs first = true) ∧ (last < shown.height ∧ needs last = true) ∧
      (∀ y < shown.height, needs y = true ∨ (∃ x, shown.pixel? x y ≠ q.surface.pixel? x y) →
        first ≤ y ∧ y ≤ last) ∧
      shown.blits = (first, last) :: q.surface.blits := by
  intro q shown whole needs
  have hq : q.Ready := ready_run (.inl (by rw [hnew]; rfl)) events hpresented.of_concat
  have hpresents : q.Presents := hpresented events List.prefix_rfl
  have hwidth : shown.width = q.scene.geometry.width := q.drawn_update.width
  have hheight : shown.height = q.scene.geometry.height := q.drawn_update.height
  have hwhole := q.drawn_invalidate_update
  have hcases := Compositor.refresh_cases (c := q.compositor) (m := q.memory) (f := q.surface)
    q.height_pos
  have hpixel (x y : Nat) (hx : x < shown.width) (hy : y < shown.height) :
      shown.pixel? x y = some (q.scene.color (q.scene.source q.memory y) x y) :=
    pixel_update hq hpresents (hwidth ▸ hx) (hheight ▸ hy)
  refine ⟨⟨hwidth, hheight, hpixel⟩,
    ⟨hwidth.trans hwhole.width.symm, hheight.trans hwhole.height.symm, ?_⟩, ?_, ?_⟩
  · apply FrameBuffer.pixels_ext (hwidth.trans hwhole.width.symm)
      (hheight.trans hwhole.height.symm)
    intro x y hx hy
    have hanew := hwhole.pixel x y (hwidth ▸ hx) (hheight ▸ hy)
    exact (hpixel x y hx hy).trans hanew.symm
  · intro hnone
    rcases hcases with ⟨-, -, hsame⟩ | ⟨first, last, hsome, -⟩
    · exact hsame
    · exact absurd (hsome.symm.trans hnone) (by simp)
  · intro first last hrows
    rcases hcases with ⟨-, hnone, -⟩ | ⟨first', last', hsome, hfirst, hlast, hbounds, hblits, -⟩
    · exact absurd (hnone.symm.trans hrows) (by simp)
    · obtain ⟨rfl, rfl⟩ : first' = first ∧ last' = last := by
        simpa using hsome.symm.trans hrows
      rw [hheight]
      refine ⟨hfirst, hlast, ?_, hblits⟩
      rintro y hy (hneeds | ⟨x, hx⟩)
      · exact hbounds y hy hneeds
      · exact hbounds y hy (Compositor.needs_of_pixel?_ne q.height_pos hy hx)

/-- The surface is put aside for an empty one after the first frame, and the lamp is lit after the
second, of which the third frame leaves most. -/
theorem frame_shows_whole_lamp :
    let p : Panel := ⟨.standard, .blank 0, .new, .unknown, .new, .new, none⟩
    let events : List Event := [.update, .replace .new, .update, .led .on]
    p.compositor = .new ∧ p.Presented (events ++ [.update]) ∧
      ((p.run events).happen .update).surface.pixels =
        (((p.run events).happen .invalidate).happen .update).surface.pixels := by
  intro p events
  have hpresented (p : Panel) (hnone : p.drawn = none) : p.Presented (events ++ [.update]) := by
    intro before hprefix
    obtain ⟨rest, hrest⟩ := hprefix
    rcases before with _ | ⟨e₁, _ | ⟨e₂, _ | ⟨e₃, _ | ⟨e₄, _ | ⟨e₅, before⟩⟩⟩⟩⟩ <;>
      simp [events] at hrest
    · intro f hf
      simp [run, hnone] at hf
    · obtain ⟨rfl, rfl, -⟩ := hrest
      intro f hf hwidth hheight
      have hshown : (p.happen .update).surface = f := Option.some.inj hf
      have hsize := p.drawn_update.height
      have hempty : 0 = f.height := hheight
      have hpos := p.height_pos
      rw [hshown] at hsize
      omega
    · obtain ⟨rfl, rfl, rfl, rfl, -⟩ := hrest
      intro f hf hwidth hheight
      have hshown : ((p.run [.update, .replace .new]).happen .update).surface = f :=
        Option.some.inj hf
      exact congrArg FrameBuffer.pixels hshown
  obtain ⟨-, ⟨-, -, hpixels⟩, -⟩ := frame_shows_whole (p := p) rfl events (hpresented p rfl)
  exact ⟨rfl, hpresented p rfl, hpixels⟩

/-- After the first frame the surface is put aside for an empty one, and that for a black one of the
first size. The lamp is lit all the time, but the second frame leaves the surface black. -/
theorem resized_back_left_blank :
    let p : Panel := ⟨.standard, .blank 0, .new, .on, .new, .new, none⟩
    let black := FrameBuffer.new.resize 720 480
    let events : List Event := [.update, .replace .new, .replace black]
    let q := p.run events
    let shown := (q.happen .update).surface
    let whole := ((q.happen .invalidate).happen .update).surface
    p.compositor = .new ∧ p.Resized (events ++ [.update]) ∧ q.frame.1 = none ∧
      shown.pixel? 712 472 = some 0 ∧ whole.pixel? 712 472 = some 0xFF0000 ∧
      shown.pixels ≠ whole.pixels := by
  intro p black events q shown whole
  have hpixel : black.pixel? 712 472 = some 0 :=
    FrameBuffer.new.pixel?_resize (by decide) (by decide)
  have hwidth : black.width = 720 := rfl
  have hheight : black.height = 480 := rfl
  clear_value black
  have hgeometry : q.scene.geometry = ⟨720, 480, 720, 480⟩ := rfl
  have hlamp : q.scene.ledColor? 712 472 = some 0xFF0000 := by
    have hled : q.scene.led = .on := rfl
    simp [Scene.ledColor?, hgeometry, hled]
  have hwhole : whole.pixel? 712 472 = some 0xFF0000 := by
    rw [q.drawn_invalidate_update.pixel _ _ (by simp [hgeometry]) (by simp [hgeometry]),
      if_pos rfl, Scene.color, hlamp]
  have hq : q = (p.happen .update).happen (.replace black) :=
    (p.happen .update).happen_replace_replace .new black
  obtain ⟨hnone, hshown⟩ : q.frame.1 = none ∧ shown = black := by
    rw [show shown = (q.happen .update).surface from rfl, hq]
    exact p.frame_replace_update hwidth hheight
  have hresized : p.Resized (events ++ [.update]) := by
    have hfirst : (p.happen .update).surface.width = 720 := p.drawn_update.width
    refine ⟨by simp, ?_, ?_, by simp, trivial⟩
    · rintro f ⟨⟩
      exact .inl (by rw [hfirst]; decide)
    · rintro f ⟨⟩
      exact .inl (by rw [hwidth]; decide)
  have hblack : shown.pixel? 712 472 = some 0 := by rw [hshown, hpixel]
  refine ⟨rfl, hresized, hnone, hblack, hwhole, fun hpixels => ?_⟩
  have hwidths : shown.width = whole.width := by
    rw [hshown, hwidth]
    exact q.drawn_invalidate_update.width.symm
  have hsame : shown.pixel? 712 472 = whole.pixel? 712 472 := by
    simp only [FrameBuffer.pixel?, hwidths, hpixels]
  rw [hblack, hwhole] at hsame
  exact absurd hsame (by decide)

end Panel

end Digic.Display
