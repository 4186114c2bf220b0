import Digic.Display.Registers
/-!
# The geometry of a frame
-/
namespace Digic.Display

structure Geometry where
  width : Nat
  height : Nat
  imageWidth : Nat
  imageHeight : Nat
  deriving DecidableEq, Repr

namespace Geometry

def ofScreen : ScreenKind → Geometry
  | .lcd | .hdmi480 => ⟨720, 480, 720, 480⟩
  | .hdmi1080 => ⟨960, 540, 1920, 1080⟩
  | .sdPal => ⟨720, 576, 540, 572⟩
  | .sdNtsc => ⟨720, 480, 540, 480⟩

/-- The geometry of a model's screen. The output of early generations has half the height. -/
def ofModel (m : Model) : Geometry :=
  let g := ofScreen m.screen
  if m.digicVersion < 4 then { g with height := g.height / 2 } else g

/-- The same with the size of the output that firmware has set, if it has. -/
def ofDisplay (m : Model) (r : Registers) : Geometry :=
  match r.resolution? with
  | some (width, height) => { ofModel m with width, height }
  | none => ofModel m

end Geometry

end Digic.Display
