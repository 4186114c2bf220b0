import Digic.Text.Hex
/-!
# Configuration errors

What can be wrong with a model, a ROM image or a handler table. Register accesses never end in one
of these.
-/
namespace Digic

/-- A named range of bus addresses, both ends included. -/
structure NamedRange where
  name : String
  low : UInt32
  high : UInt32
  deriving DecidableEq, Repr

namespace NamedRange

def text (r : NamedRange) : String :=
  s!"{r.name} ({Text.hexAtLeast 8 r.low.toNat}-{Text.hexAtLeast 8 r.high.toNat})"

end NamedRange

inductive ConfigError where
  /-- The size of a ROM bank is no power of two, so that the bank cannot be repeated by a mask. -/
  | romSizeNotPowerOfTwo (bank : Nat) (size : UInt32)
  /-- An image of `length` bytes does not fit into a bank at an offset. -/
  | romTooLarge (bank : Nat) (offset : UInt32) (length : Nat) (size : UInt32)
  | romOffsetTooLarge (path : String) (offset length : Nat)
  | romBankMissing (bank : Nat)
  /-- The second handler is never reached, as the first claims every address of it. -/
  | overlappingHandlers (first second : NamedRange)
  | unreadable (path reason : String)
  deriving DecidableEq, Repr

namespace ConfigError

def message : ConfigError → String
  | romSizeNotPowerOfTwo bank size =>
    s!"ROM{bank} size {Text.hex size.toNat} is not a power of two"
  | romTooLarge bank offset length size =>
    s!"ROM{bank} image of {Text.hex length} bytes does not fit at offset " ++
      s!"{Text.hex offset.toNat} (bank size {Text.hex size.toNat})"
  | romOffsetTooLarge path offset length =>
    s!"offset {Text.hex offset} is past the end of {path} ({Text.hex length} bytes)"
  | romBankMissing bank => s!"no ROM bank {bank}"
  | overlappingHandlers first second => s!"handler {first.text} overlaps {second.text}"
  | unreadable path reason => s!"could not read {path}: {reason}"

/-- The error of another system that lies behind this one. -/
def cause? : ConfigError → Option String
  | unreadable _ reason => some reason
  | _ => none

end ConfigError

end Digic
