import Digic.Machine.Screen
import Digic.Memory.Lemmas
import Digic.Proofs.Cf.Exact
import Digic.Proofs.Interrupt.Requests
import Digic.Proofs.Interrupt.Countdown
import Digic.Proofs.Machine.Reports
import Digic.Proofs.Cf.Interleaving
import Digic.Proofs.Flash.Banks
import Digic.Proofs.Display.Frames
import Digic.Proofs.Sd.WriteOnce
import Digic.Proofs.Sd.Leftover
import Digic.Proofs.Flash.Blocks
import Digic.Proofs.Dma.Copy
import Digic.Proofs.Machine.CompareChannels
import Digic.Proofs.Machine.Faults
import Digic.Proofs.Interrupt.Pass
import Digic.Proofs.Machine.Reads
import Digic.Proofs.Machine.ConsoleLines
import Digic.Proofs.Machine.TickPeriod
import Digic.Proofs.Sd.Buffer
import Digic.Proofs.Flash.Busy
import Digic.Proofs.Edmac.Connections
import Digic.Proofs.Interrupt.Holding
import Digic.Proofs.Display.Composition
import Digic.Proofs.Cf.CommandInterrupt
import Digic.Proofs.Machine.Loading
import Digic.Proofs.Flash.Plain
import Digic.Proofs.Handler.Shadowing
import Digic.Proofs.Machine.Installing
import Digic.Proofs.Machine.Unclaimed
import Digic.Proofs.Interrupt.Masks
import Digic.Proofs.Machine.MaskWrites
import Digic.Proofs.Timer.Period
import Digic.Proofs.Edmac.Directions
import Digic.Proofs.Flash.WriteGate
