/-!
# SD cards

What the host asks of a card. How a card answers is its own affair: any type with the four
operations of `SdCard` will do.
-/
namespace Digic.Sd

structure Request where
  command : UInt8
  argument : UInt32
  deriving DecidableEq, Repr

inductive Response where
  | nothing
  | short (bytes : Vector UInt8 4)
  /-- Sixteen bytes, as identity and capacity registers have them. -/
  | long (bytes : Vector UInt8 16)
  deriving DecidableEq

inductive CardError where
  | illegalCommand (command : UInt8)
  | noCard
  deriving DecidableEq, Repr

def CardError.message : CardError → String
  | illegalCommand command => s!"illegal command CMD{command}"
  | noCard => "no card inserted"

/-- A card of state `κ`. -/
class SdCard (κ : Type) where
  command : κ → Request → Except CardError Response × κ
  readByte : κ → UInt8 × κ
  writeByte : κ → UInt8 → κ
  /-- Whether a read has bytes to give. -/
  dataReady : κ → Bool

def discard {κ : Type} [SdCard κ] : Nat → κ → κ
  | 0, card => card
  | n + 1, card => discard n (SdCard.readByte card).2

end Digic.Sd
