import Digic.Machine.State
/-!
# The screen of a machine
-/
namespace Digic.Machine

variable {κ δ : Type}

def scene (s : Machine κ δ) : Display.Scene where
  matrix := s.model.colorMatrix
  registers := s.display
  geometry := .ofDisplay s.model s.display
  led := s.led

/-- Makes a frame. Gives the first and the last row that were made, if any. -/
def updateDisplay (s : Machine κ δ) (f : Display.FrameBuffer) :
    Option (Nat × Nat) × Machine κ δ × Display.FrameBuffer :=
  let (rows?, compositor, f) := s.compositor.refresh s.scene s.cpu.memory f
  (rows?, { s with compositor }, f)

def invalidateDisplay (s : Machine κ δ) : Machine κ δ :=
  { s with compositor := s.compositor.invalidate }

end Digic.Machine
