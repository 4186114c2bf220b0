/-!
# What the interrupt controller reports

Events are the controller's whole outward effect: the first two deliveries raise the processor's
interrupt line, a release lowers it, the others are only told.
-/
namespace Digic.Interrupt

inductive Event where
  /-- A request was taken into service at once. -/
  | delivered (id : UInt32)
  /-- The countdown of a line ran out and it was taken into service. -/
  | serviced (id : UInt32)
  /-- A request has to wait. -/
  | deferred (id : UInt32)
  /-- The processor's interrupt line was lowered. -/
  | released
  /-- A request named a line that does not exist. -/
  | unknownRequest (id : UInt32)
  /-- A line that does not exist was to be enabled. -/
  | unknownEnable (id : UInt32)
  deriving DecidableEq, Repr

def Event.delivery? : Event → Option UInt32
  | .delivered id | .serviced id => some id
  | _ => none

end Digic.Interrupt
