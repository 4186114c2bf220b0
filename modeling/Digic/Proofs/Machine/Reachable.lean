import Digic.Machine.Screen
import Digic.Proofs.Flash.Layout
import Digic.Proofs.Machine.Parts
import Digic.Proofs.Machine.Run
/-!
# Everything that can happen to a machine

Besides the steps of a run, whoever owns a machine may load ROM, replace the handler table, switch
the command protocol of ROM, make frames, talk to the console and take the journal. What a machine
can come to is what a list of such changes makes of a new one.
-/
namespace Digic

open Bus

namespace Machine

/-- Whatever can happen to a machine. -/
inductive Change (κ δ : Type) where
  | step (st : Step κ δ)
  | loadRom (bank : Nat) (offset : UInt32) (image : ByteArray)
  | loadRomFile (bank : Nat) (file : ImageFile) (offset : Nat)
  | setHandlers (table : List Handler.Entry)
  /-- Writes to ROM are cycles of commands from now on, or are not. -/
  | setFlashCommands (commands : Bool)
  | updateDisplay (f : Display.FrameBuffer)
  | invalidateDisplay
  /-- A byte arrives at the console. -/
  | offer (b : UInt8)
  /-- The text on the console is taken. -/
  | clearConsole
  | startTicker
  | stopTicker
  | takeJournal

namespace Change

variable {κ δ : Type}

/-- Neither an access nor a tick. -/
def Quiet : Change κ δ → Prop
  | .step (.access _ _ _) | .step .tick => False
  | _ => True

/-- From outside of console and journal, and neither an access nor a tick nor a request. -/
def Outer : Change κ δ → Prop
  | .step (.attachCard _) | .step (.attachDrive _) | .step (.execute _ _ _) => True
  | .loadRom _ _ _ | .loadRomFile _ _ _ | .setHandlers _ | .setFlashCommands _ => True
  | .updateDisplay _ | .invalidateDisplay | .startTicker | .stopTicker => True
  | _ => False

theorem of_not_quiet {c : Change κ δ} (h : ¬ c.Quiet) :
    (∃ addr direction value, c = .step (.access addr direction value)) ∨ c = .step .tick := by
  cases c with
  | step st =>
    cases st with
    | access addr direction value => exact .inl ⟨addr, direction, value, rfl⟩
    | tick => exact .inr rfl
    | request => exact absurd trivial h
    | attachCard => exact absurd trivial h
    | attachDrive => exact absurd trivial h
    | execute => exact absurd trivial h
  | _ => exact absurd trivial h

end Change

variable {κ δ : Type}

/-- What notices and loaded images keep, an image file keeps. -/
theorem loadRomFile_preserves {P : Machine κ δ → Prop} {bank : Nat}
    (htell : ∀ (s : Machine κ δ) (n : Log.Notice), n.event? = none → n.line? = none → P s →
      P (s.tell n))
    (hload : ∀ (s : Machine κ δ) (image : ByteArray), P s → P (s.loadRom bank 0 image).1)
    {s : Machine κ δ} (h : P s) (file : ImageFile) (offset : Nat) :
    P (s.loadRomFile bank file offset).1 := by
  unfold loadRomFile
  split
  · exact h
  · next data _ =>
    split
    · exact h
    · split
      · exact h
      · next b _ =>
        have htruncated : P (if b.size.toNat < (data.extract offset data.size).size then
            s.tell (.romTruncated file.path (data.extract offset data.size).size bank b.size.toNat)
          else s) := by
          split
          · exact htell s _ rfl rfl h
          · exact h
        exact hload _ _ htruncated

/-- Nothing is changed but the banks, and if the image was loaded the journal tells of it. -/
theorem loadRom_fst (s : Machine κ δ) (bank : Nat) (offset : UInt32) (image : ByteArray) :
    let t := { s with flash := (s.flash.load bank offset image).1 }
    (s.loadRom bank offset image).1 = t ∨
      (s.loadRom bank offset image).1 = t.tell (.romLoaded bank image.size offset) := by
  rw [loadRom]
  dsimp only
  split
  · exact .inr rfl
  · exact .inl rfl

/-- A machine that is built is a new one, and its journal tells of it. -/
theorem Apart.assemble {ρ : Type} {part : Machine κ δ → ρ} (hpart : Apart part) {m : Model}
    {s : Machine κ δ} (h : assemble m = .ok s) :
    m.validate = .ok () ∧ part s = part (ofModel m) := by
  unfold Machine.assemble at h
  cases hvalid : m.validate with
  | error e =>
    rw [hvalid] at h
    cases h
  | ok =>
    rw [hvalid] at h
    cases h
    exact ⟨rfl, hpart.tell _ _⟩

/-- A part of the machine that is reached neither by what devices leave for the rest of it nor from
outside. -/
structure Unowned {ρ : Type} (part : Machine κ δ → ρ) : Prop extends Apart part where
  attachCard : ∀ (s : Machine κ δ) (card : κ), part (s.attachCard card) = part s
  attachDrive : ∀ (s : Machine κ δ) (drive : δ), part (s.attachDrive drive) = part s
  execute : ∀ (s : Machine κ δ) (memory : Memory) (pc : UInt32) (halted : Bool),
    part { s with cpu := { s.cpu with memory, pc, halted } } = part s
  flash : ∀ (s : Machine κ δ) (bank : Nat) (offset : UInt32) (image : ByteArray),
    part { s with flash := (s.flash.load bank offset image).1 } = part s
  handlers : ∀ (s : Machine κ δ) (table : List Handler.Entry),
    part { s with handlers := table } = part s
  commands : ∀ (s : Machine κ δ) (commands : Bool),
    part { s with flash := { s.flash with commands } } = part s
  updateDisplay : ∀ (s : Machine κ δ) (f : Display.FrameBuffer),
    part (s.updateDisplay f).2.1 = part s
  invalidateDisplay : ∀ s : Machine κ δ, part s.invalidateDisplay = part s
  console : ∀ (s : Machine κ δ) (u : Console.Uart), part { s with console := u } = part s
  running : ∀ (s : Machine κ δ) (running : Bool), part { s with tickerRunning := running } = part s
  takeJournal : ∀ s : Machine κ δ, part s.takeJournal.2 = part s

theorem Unowned.loadRom {ρ : Type} {part : Machine κ δ → ρ} (h : Unowned part) (s : Machine κ δ)
    (bank : Nat) (offset : UInt32) (image : ByteArray) :
    part (s.loadRom bank offset image).1 = part s := by
  rcases s.loadRom_fst bank offset image with hrom | hrom <;> rw [hrom]
  · exact h.flash s bank offset image
  · exact (h.tell _ _).trans (h.flash s bank offset image)

/-- The model, and where the ROM banks lie. -/
def fixed (s : Machine κ δ) : Model × Vector RomLayout 2 := (s.model, s.flash.layout)

theorem unowned_fixed : Unowned (fixed : Machine κ δ → _) where
  tell := fun _ n => by cases n <;> rfl
  interrupts := fun _ _ => rfl
  limiter := fun _ _ => rfl
  attachCard := fun _ _ => rfl
  attachDrive := fun _ _ => rfl
  execute := fun _ _ _ _ => rfl
  flash := fun s bank offset image =>
    congrArg (Prod.mk s.model) (Flash.layout_load s.flash bank offset image)
  handlers := fun _ _ => rfl
  commands := fun _ _ => rfl
  updateDisplay := fun _ _ => rfl
  invalidateDisplay := fun _ => rfl
  console := fun _ _ => rfl
  running := fun _ _ => rfl
  takeJournal := fun _ => rfl

variable [Sd.SdCard κ] [Cf.AtaDrive δ]

def change (s : Machine κ δ) : Change κ δ → Machine κ δ
  | .step st => s.step st
  | .loadRom bank offset image => (s.loadRom bank offset image).1
  | .loadRomFile bank file offset => (s.loadRomFile bank file offset).1
  | .setHandlers table => (s.setHandlers table).1
  | .setFlashCommands commands => { s with flash := { s.flash with commands } }
  | .updateDisplay f => (s.updateDisplay f).2.1
  | .invalidateDisplay => s.invalidateDisplay
  | .offer b => { s with console := s.console.offer b }
  | .clearConsole => { s with console := s.console.clear }
  | .startTicker => s.startTicker
  | .stopTicker => s.stopTicker
  | .takeJournal => s.takeJournal.2

def after (s : Machine κ δ) (changes : List (Change κ δ)) : Machine κ δ := changes.foldl change s

@[simp] theorem after_nil (s : Machine κ δ) : s.after [] = s := rfl

@[simp] theorem after_cons (s : Machine κ δ) (c : Change κ δ) (changes : List (Change κ δ)) :
    s.after (c :: changes) = (s.change c).after changes := rfl

theorem Unowned.change {ρ : Type} {part : Machine κ δ → ρ} (h : Unowned part) (s : Machine κ δ)
    {c : Change κ δ} (hc : c.Quiet) : part (s.change c) = part s := by
  cases c with
  | step st =>
    cases st with
    | access => exact hc.elim
    | tick => exact hc.elim
    | request id delay => exact h.untold.request s id delay
    | attachCard card => exact h.attachCard s card
    | attachDrive drive => exact h.attachDrive s drive
    | execute memory pc halted => exact h.execute s memory pc halted
  | loadRom bank offset image => exact h.loadRom s bank offset image
  | loadRomFile bank file offset =>
    exact loadRomFile_preserves (P := fun t => part t = part s)
      (fun t n _ _ ht => (h.tell t n).trans ht)
      (fun t image ht => (h.loadRom t bank 0 image).trans ht) rfl file offset
  | setHandlers table =>
    rw [Machine.change, setHandlers]
    cases Handler.check table with
    | error e => rfl
    | ok => exact h.handlers s table
  | setFlashCommands commands => exact h.commands s commands
  | updateDisplay f => exact h.updateDisplay s f
  | invalidateDisplay => exact h.invalidateDisplay s
  | offer b => exact h.console s _
  | clearConsole => exact h.console s _
  | startTicker =>
    rw [Machine.change, startTicker]
    split
    · rfl
    · exact (h.tell _ _).trans (h.running s true)
  | stopTicker =>
    rw [Machine.change, stopTicker]
    split
    · exact (h.tell _ _).trans (h.running s false)
    · rfl
  | takeJournal => exact h.takeJournal s

/-- What holds whatever becomes of the parts that neither serve interrupts nor print, and keeps
holding when something is told that is no interrupt event and no line, holds after every outer
change. -/
theorem change_of_outer {P : Machine κ δ → Prop}
    (hset : ∀ t u : Machine κ δ, u.interrupts = t.interrupts → u.console = t.console →
      u.journal = t.journal → P t → P u)
    (htell : ∀ (t : Machine κ δ) (n : Log.Notice), n.event? = none → n.line? = none → P t →
      P (t.tell n))
    {s : Machine κ δ} (h : P s) {c : Change κ δ} (hc : c.Outer) : P (s.change c) := by
  have hload (t : Machine κ δ) (bank : Nat) (offset : UInt32) (image : ByteArray) (ht : P t) :
      P (t.loadRom bank offset image).1 := by
    rcases t.loadRom_fst bank offset image with hrom | hrom <;> rw [hrom]
    · exact hset t _ rfl rfl rfl ht
    · exact htell _ _ rfl rfl (hset t _ rfl rfl rfl ht)
  cases c with
  | step st =>
    cases st with
    | attachCard card => exact hset s _ rfl rfl rfl h
    | attachDrive drive => exact hset s _ rfl rfl rfl h
    | execute memory pc halted => exact hset s _ rfl rfl rfl h
    | _ => exact hc.elim
  | loadRom bank offset image => exact hload s bank offset image h
  | loadRomFile bank file offset =>
    exact loadRomFile_preserves htell (fun t => hload t bank 0) h file offset
  | setHandlers table =>
    rw [change, setHandlers]
    cases Handler.check table with
    | error e => exact h
    | ok => exact hset s _ rfl rfl rfl h
  | setFlashCommands commands => exact hset s _ rfl rfl rfl h
  | updateDisplay f => exact hset s _ rfl rfl rfl h
  | invalidateDisplay => exact hset s _ rfl rfl rfl h
  | startTicker =>
    rw [change, startTicker]
    split
    · exact h
    · exact htell _ _ rfl rfl (hset s { s with tickerRunning := true } rfl rfl rfl h)
  | stopTicker =>
    rw [change, stopTicker]
    split
    · exact htell _ _ rfl rfl (hset s { s with tickerRunning := false } rfl rfl rfl h)
    · exact h
  | _ => exact hc.elim

theorem fixed_access (s : Machine κ δ) (addr : UInt32) (direction : Log.Direction)
    (value : UInt32) : (stateAfter (access addr direction value) s).fixed = s.fixed := by
  have hapart : Apart (fixed : Machine κ δ → _) := unowned_fixed.toApart
  rw [stateAfter_access]
  split
  · exact hapart.noteUnclaimed s addr _ value
  · next h _ =>
    rw [readDevice, stateAfter_get_bind]
    cases h.kind.device
    case rom =>
      have hlayout := Flash.keeps_layout_read (s.context h.toWindow) addr s.flash.layout
        ⟨s.flash, #[]⟩ rfl
      exact (hapart.untold.act _ _ _ s).trans (congrArg (Prod.mk s.model) hlayout)
    all_goals exact hapart.untold.act _ _ _ s
  · next h _ =>
    rw [writeDevice, stateAfter_get_bind]
    cases h.kind.device
    case rom =>
      have hlayout := Flash.keeps_layout_write (s.context h.toWindow) addr value s.flash.layout
        ⟨s.flash, #[]⟩ rfl
      exact (hapart.untold.act _ _ _ s).trans (congrArg (Prod.mk s.model) hlayout)
    all_goals exact hapart.untold.act _ _ _ s

theorem fixed_change (s : Machine κ δ) (c : Change κ δ) : (s.change c).fixed = s.fixed := by
  by_cases hc : c.Quiet
  · exact unowned_fixed.change s hc
  · obtain ⟨addr, direction, value, rfl⟩ | rfl := Change.of_not_quiet hc
    · exact s.fixed_access addr direction value
    · exact unowned_fixed.untold.tick (fun _ _ => rfl) (fun _ _ => rfl) s

theorem fixed_after (s : Machine κ δ) (changes : List (Change κ δ)) :
    (s.after changes).fixed = s.fixed := by
  induction changes generalizing s with
  | nil => rfl
  | cons c changes ih => exact (ih (s.change c)).trans (s.fixed_change c)

/-- A machine stays the one that was built. -/
theorem fixed_reachable {m : Model} {s : Machine κ δ} (h : assemble m = .ok s)
    (changes : List (Change κ δ)) : (s.after changes).fixed = (m, m.rom) := by
  rw [fixed_after, (unowned_fixed.toApart.assemble h).2]
  exact congrArg (Prod.mk m) (Flash.layout_ofModel m)

end Machine

end Digic
