/-!
# Register files

A machine has sixteen register files. Some of them answer in several parts of the address space,
with different registers in each; `Kind` tells these parts apart.
-/
namespace Digic.Handler

inductive Kind where
  | flashGate | rom | interrupts | interruptMasks | timers | clock | compare | dma | edmac
  | edmacSwitch | sdHost | sdDma | cfDma | cfAta | display | console | basic | power | gpio
  | digic6 | imageEngine
  deriving DecidableEq, Repr

inductive Device where
  | flashGate | rom | interrupts | timers | compare | dma | edmac | sd | cf | display | console
  | basic | power | gpio | digic6 | imageEngine
  deriving DecidableEq, Repr

def Kind.device : Kind → Device
  | .flashGate => .flashGate
  | .rom => .rom
  | .interrupts | .interruptMasks => .interrupts
  | .timers | .clock => .timers
  | .compare => .compare
  | .dma => .dma
  | .edmac | .edmacSwitch => .edmac
  | .sdHost | .sdDma => .sd
  | .cfAta | .cfDma => .cf
  | .display => .display
  | .console => .console
  | .basic => .basic
  | .power => .power
  | .gpio => .gpio
  | .digic6 => .digic6
  | .imageEngine => .imageEngine

/-- Through what an access reaches its register file. -/
structure Window where
  /-- The name of the window in traces. -/
  name : String
  kind : Kind
  /-- Which instance, bank or generation. -/
  param : UInt32
  deriving DecidableEq, Repr

end Digic.Handler
