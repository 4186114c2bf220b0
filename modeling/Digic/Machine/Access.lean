import Digic.Machine.State
/-!
# Register accesses

An access goes to the register file of the first handler that claims its address. Accesses that
nobody claims read as zero and are reported in moderation.
-/
namespace Digic.Machine

open Bus Handler

variable {κ δ : Type}

def context (s : Machine κ δ) (w : Window) : Context := ⟨w, s.cpu.pc, s.model⟩

def actInterrupts {α : Type} (a : Action Interrupt.Controller α) :
    EStateM Fault (Machine κ δ) α :=
  act interrupts (fun s d => { s with interrupts := d }) a

def actTime {α : Type} (a : Action Timer.Timebase α) : EStateM Fault (Machine κ δ) α :=
  act time (fun s d => { s with time := d }) a

def actFlashGate {α : Type} (a : Action Flash.Gate α) : EStateM Fault (Machine κ δ) α :=
  act flashGate (fun s d => { s with flashGate := d }) a

def actFlash {α : Type} (a : Action Flash.Banks α) : EStateM Fault (Machine κ δ) α :=
  act flash (fun s d => { s with flash := d }) a

def actDma {α : Type} (a : Action Dma.Bench α) : EStateM Fault (Machine κ δ) α :=
  act (fun s => ⟨s.dma, s.cpu.memory⟩)
    (fun s b => { s with dma := b.toEngine, cpu := { s.cpu with memory := b.memory } }) a

def actEdmac {α : Type} (a : Action Edmac.Engine α) : EStateM Fault (Machine κ δ) α :=
  act edmac (fun s d => { s with edmac := d }) a

def actSd {α : Type} (a : Action (Sd.Bench κ) α) : EStateM Fault (Machine κ δ) α :=
  act (fun s => ⟨s.sd, s.cpu.memory⟩)
    (fun s b => { s with sd := b.toHost, cpu := { s.cpu with memory := b.memory } }) a

def actCf {α : Type} (a : Action (Cf.Host δ) α) : EStateM Fault (Machine κ δ) α :=
  act cf (fun s d => { s with cf := d }) a

def actCfBench {α : Type} (a : Action (Cf.Bench δ) α) : EStateM Fault (Machine κ δ) α :=
  act (fun s => ⟨s.cf, s.cpu.memory⟩)
    (fun s b => { s with cf := b.toHost, cpu := { s.cpu with memory := b.memory } }) a

def actDisplay {α : Type} (a : Action Display.Registers α) : EStateM Fault (Machine κ δ) α :=
  act display (fun s d => { s with display := d }) a

def actConsole {α : Type} (a : Action Console.Uart α) : EStateM Fault (Machine κ δ) α :=
  act console (fun s d => { s with console := d }) a

def actBasic {α : Type} (a : Action Board.Basic α) : EStateM Fault (Machine κ δ) α :=
  act basic (fun s d => { s with basic := d }) a

def actPower {α : Type} (a : Action Board.Power α) : EStateM Fault (Machine κ δ) α :=
  act power (fun s d => { s with power := d }) a

def actGpio {α : Type} (a : Action Board.Gpio α) : EStateM Fault (Machine κ δ) α :=
  act gpio (fun s d => { s with gpio := d }) a

def actDigic6 {α : Type} (a : Action Board.Digic6 α) : EStateM Fault (Machine κ δ) α :=
  act digic6 (fun s d => { s with digic6 := d }) a

def actImageEngine {α : Type} (a : Action Board.ImageEngine α) :
    EStateM Fault (Machine κ δ) α :=
  act (fun _ => {}) (fun s _ => s) a

variable [Sd.SdCard κ] [Cf.AtaDrive δ]

def readDevice (d : Device) (w : Window) (addr : UInt32) : EStateM Fault (Machine κ δ) UInt32 := do
  let c := (← get).context w
  match d with
  | .flashGate => actFlashGate (Flash.Gate.read c addr)
  | .rom => actFlash (Flash.read c addr)
  | .interrupts => actInterrupts (Interrupt.read c addr)
  | .timers => actTime (Timer.read c addr)
  | .compare => actTime (Timer.readCompare c addr)
  | .dma => actDma (Dma.read c addr)
  | .edmac => actEdmac (Edmac.read c addr)
  | .sd => actSd (Sd.read c addr)
  | .cf => actCf (Cf.read c addr)
  | .display => actDisplay (Display.read c addr)
  | .console => actConsole (Console.read c addr)
  | .basic => actBasic (Board.Basic.read c addr)
  | .power => actPower (Board.Power.read c addr)
  | .gpio => actGpio (Board.Gpio.read c addr)
  | .digic6 => actDigic6 (Board.Digic6.read c addr)
  | .imageEngine => actImageEngine (Board.ImageEngine.read c addr)

def writeDevice (d : Device) (w : Window) (addr value : UInt32) :
    EStateM Fault (Machine κ δ) Unit := do
  let c := (← get).context w
  match d with
  | .flashGate => actFlashGate (Flash.Gate.write c addr value)
  | .rom => actFlash (Flash.write c addr value)
  | .interrupts => actInterrupts (Interrupt.write c addr value)
  | .timers => actTime (Timer.write c addr value)
  | .compare => actTime (Timer.writeCompare c addr value)
  | .dma => actDma (Dma.write c addr value)
  | .edmac => actEdmac (Edmac.write c addr value)
  | .sd => actSd (Sd.write c addr value)
  | .cf => actCf (Cf.write c addr value)
  | .display => actDisplay (Display.write c addr value)
  | .console => actConsole (Console.write c addr value)
  | .basic => actBasic (Board.Basic.write c addr value)
  | .power => actPower (Board.Power.write c addr value)
  | .gpio => actGpio (Board.Gpio.write c addr value)
  | .digic6 => actDigic6 (Board.Digic6.write c addr value)
  | .imageEngine => actImageEngine (Board.ImageEngine.write c addr value)

def noteUnclaimed (s : Machine κ δ) (addr : UInt32) (direction : Log.Direction) (value : UInt32) :
    Machine κ δ :=
  let limiter := s.limiter.note addr
  let s := { s with limiter }
  if limiter.reports then s.tell (.unclaimed s.cpu.pc addr direction value) else s

/-- One access. A write gives zero. -/
def access (addr : UInt32) (direction : Log.Direction) (value : UInt32) :
    EStateM Fault (Machine κ δ) UInt32 := do
  match find? (← get).handlers addr with
  | none =>
    modify (·.noteUnclaimed addr direction value)
    return 0
  | some h =>
    match direction with
    | .read => readDevice h.kind.device h.toWindow addr
    | .write => do
      writeDevice h.kind.device h.toWindow addr value
      return 0

def read (addr : UInt32) : EStateM Fault (Machine κ δ) UInt32 := access addr .read 0

def write (addr value : UInt32) : EStateM Fault (Machine κ δ) Unit := do
  let _ ← access addr .write value

end Digic.Machine
