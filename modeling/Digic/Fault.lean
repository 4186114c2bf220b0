import Digic.Text.Hex
/-!
# Faults

A fault is the end of an access that no working firmware makes. What the access did before the
fault stays done.
-/
namespace Digic

inductive Fault where
  | edmacSwitchRead (addr : UInt32)
  | edmacChannelOutOfRange (channel : Nat)
  | edmacChannelWithoutInterrupt (channel : Nat)
  /-- Data was to be written to the card by programmed transfer. -/
  | sdWriteWithoutDma (count blockSize : UInt32)
  | noSdInterrupt
  | noSdDmaInterrupt
  | noCfInterrupt
  | noCfDmaInterrupt
  | cfCountNotWords (count : UInt32)
  | cfWithoutDrive (command : UInt32)
  deriving DecidableEq, Repr

namespace Fault

def message : Fault → String
  | edmacSwitchRead addr => s!"EDMAC channel switch read at {Text.word addr} is not supported"
  | edmacChannelOutOfRange channel => s!"EDMAC channel {channel} out of range"
  | edmacChannelWithoutInterrupt channel => s!"EDMAC channel {channel} has no completion interrupt"
  | sdWriteWithoutDma count blockSize =>
    s!"SDIO write of {count}x{blockSize} bytes without DMA would corrupt the card image"
  | noSdInterrupt => "model has no SD interrupt"
  | noSdDmaInterrupt => "model has no SD DMA interrupt"
  | noCfInterrupt => "model has no CF interrupt"
  | noCfDmaInterrupt => "model has no CF DMA interrupt"
  | cfCountNotWords count => s!"CF DMA count {Text.hex count.toNat} is not a multiple of 4"
  | cfWithoutDrive command =>
    s!"CF DMA command {Text.hex command.toNat} with no ATA device attached"

end Fault

end Digic
