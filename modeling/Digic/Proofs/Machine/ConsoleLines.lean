import Digic.Proofs.Console.Printing
import Digic.Proofs.Machine.Reachable
import Digic.Proofs.Text.Lines
/-!
# The console and its lines

What firmware transmits is kept until the console is taken, and told of line by line. Nothing else
reaches the console, and nothing else tells of lines. So what was taken and what is kept, the lines
that were told of, and the bytes that were transmitted are the same, whatever else happens to the
machine.
-/
namespace Digic

open Bus Console

namespace Machine

variable {κ δ : Type}

def lines (s : Machine κ δ) : List (List UInt8) := s.journal.toList.filterMap Log.Notice.line?

/-- The lines that stand in the journal, each with its end, and the line so far. -/
def printedBytes (s : Machine κ δ) : List UInt8 := joinLines s.lines ++ s.console.lineBytes

/-- What puts bytes out on the console. -/
structure Prints (s : Machine κ δ) (bytes : List UInt8) (s' : Machine κ δ) : Prop where
  output : s'.console.outputBytes = s.console.outputBytes ++ bytes
  lines : s'.printedBytes = s.printedBytes ++ bytes

theorem Prints.trans {s t u : Machine κ δ} {bytes others : List UInt8} (h : s.Prints bytes t)
    (h' : t.Prints others u) : s.Prints (bytes ++ others) u :=
  ⟨by rw [h'.output, h.output, List.append_assoc], by rw [h'.lines, h.lines, List.append_assoc]⟩

theorem Prints.of_eq {s s' : Machine κ δ} (hconsole : s'.console = s.console)
    (hlines : s'.lines = s.lines) : s.Prints [] s' := by
  constructor
  · rw [hconsole, List.append_nil]
  · rw [printedBytes, printedBytes, hconsole, hlines, List.append_nil]

theorem lines_tell (s : Machine κ δ) (n : Log.Notice) :
    (s.tell n).lines = s.lines ++ n.line?.toList := by
  have hjournal : (s.tell n).journal = s.journal.push n := by cases n <;> rfl
  rw [lines, lines, hjournal, Array.toList_push, List.filterMap_append]
  cases n <;> rfl

theorem lines_tellEvents (s : Machine κ δ) (events : List Interrupt.Event) :
    (s.tellEvents events).lines = s.lines := by
  induction events generalizing s with
  | nil => rfl
  | cons e events ih =>
    have hfirst : (s.tell (.interrupt e)).lines = s.lines :=
      (s.lines_tell _).trans (List.append_nil _)
    exact (ih (s.tell (.interrupt e))).trans hfirst

theorem lines_request (s : Machine κ δ) (id delay : UInt32) :
    (s.request id delay).lines = s.lines := lines_tellEvents _ _

theorem lines_foldl_request (s : Machine κ δ) (ids : List UInt32) :
    (ids.foldl (fun s id => s.request id 0) s).lines = s.lines := by
  induction ids generalizing s with
  | nil => rfl
  | cons id ids ih => exact (ih (s.request id 0)).trans (s.lines_request id 0)

/-- Of all effects only notices of lines tell of them. -/
theorem lines_foldl_absorb (s : Machine κ δ) (effects : List Effect) :
    (effects.foldl absorb s).lines = s.lines ++ effects.filterMap Effect.line? := by
  induction effects generalizing s with
  | nil => exact (List.append_nil _).symm
  | cons e effects ih =>
    rw [List.foldl_cons, ih]
    cases e with
    | note n =>
      have hfirst : (s.absorb (.note n)).lines = s.lines ++ n.line?.toList := s.lines_tell n
      rw [hfirst, List.append_assoc, List.filterMap_cons]
      cases hline : n.line? <;> simp [Effect.line?, hline]
    | request id delay =>
      have hfirst : (s.absorb (.request id delay)).lines = s.lines := s.lines_request id delay
      rw [hfirst]
      rfl

theorem lines_advanceTime (s : Machine κ δ) : s.advanceTime.lines = s.lines := by
  rw [advanceTime]
  generalize s.interrupts.pass s.model.timerInterrupt
    (s.time.advance.timers.reload s.model.osTimer >>> 8) = result
  exact lines_tellEvents _ _

theorem lines_matchChannels (s : Machine κ δ) : s.matchChannels.lines = s.lines := by
  unfold matchChannels
  dsimp only
  split
  · exact lines_request _ _ 0
  · rfl

theorem lines_noteUnclaimed (s : Machine κ δ) (addr : UInt32) (direction : Log.Direction)
    (value : UInt32) : (s.noteUnclaimed addr direction value).lines = s.lines := by
  unfold noteUnclaimed
  dsimp only
  split
  · exact (lines_tell _ _).trans (List.append_nil _)
  · rfl

theorem apart_console : Apart (fun s : Machine κ δ => s.console) :=
  ⟨fun _ n => by cases n <;> rfl, fun _ _ => rfl, fun _ _ => rfl⟩

theorem prints_tell (s : Machine κ δ) {n : Log.Notice} (hn : n.line? = none) :
    s.Prints [] (s.tell n) := by
  refine .of_eq (apart_console.tell s n) ?_
  rw [lines_tell, hn]
  exact List.append_nil _

/-- Only the console prints. -/
theorem Acts.prints {α : Type} {m : Model} {d : Handler.Device} (hd : d ≠ .console)
    {a : EStateM Fault (Machine κ δ) α} {s : Machine κ δ} (h : Acts m d a s) :
    s.Prints [] (stateAfter a s) := by
  obtain ⟨effects, t, hplain, hspares, hconsole, hafter⟩ := h
  have hnone : effects.filterMap Effect.line? = [] := by
    rw [List.filterMap_eq_nil_iff]
    intro e he
    cases e with
    | note n =>
      by_contra hline
      exact hd ((hplain _ he).2 hline)
    | request id delay => rfl
  rw [hafter]
  refine .of_eq ((apart_console.untold.foldl_absorb t effects).trans (hconsole hd)) ?_
  rw [lines_foldl_absorb, hnone, List.append_nil, lines, lines, hspares.journal]

/-- Nor does the interrupt controller. -/
theorem prints_actInterrupts {α : Type} {a : Action Interrupt.Controller α}
    (ha : a.Leaves (·.line? = none)) (s : Machine κ δ) :
    s.Prints [] (stateAfter (actInterrupts a) s) := by
  have hleaves := ha ⟨s.interrupts, #[]⟩ (by simp)
  have hnone : (stateAfter a ⟨s.interrupts, #[]⟩).effects.toList.filterMap Effect.line? = [] :=
    List.filterMap_eq_nil_iff.2 fun e he => hleaves e (Array.mem_toList_iff.1 he)
  refine .of_eq (apart_console.untold.act _ _ a s) ?_
  rw [actInterrupts, stateAfter_act, lines_foldl_absorb, hnone, List.append_nil]
  rfl

/-- What the console prints, the machine prints. -/
theorem prints_actConsole {α : Type} {a : Action Uart α} {bytes : List UInt8}
    (ha : Console.Prints bytes a) (s : Machine κ δ) :
    s.Prints bytes (stateAfter (actConsole a) s) := by
  obtain ⟨houtput, hlines⟩ := ha ⟨s.console, #[]⟩
  have hconsole : (stateAfter (actConsole a) s).console =
      (stateAfter a ⟨s.console, #[]⟩).device := apart_console.untold.act _ _ a s
  have htold : (stateAfter (actConsole a) s).lines =
      s.lines ++ toldLines (stateAfter a ⟨s.console, #[]⟩) := by
    rw [actConsole, stateAfter_act, lines_foldl_absorb]
    rfl
  constructor
  · rw [hconsole, houtput]
  · have hempty : toldLines ⟨s.console, #[]⟩ = [] := rfl
    rw [hempty, joinLines_nil, List.nil_append] at hlines
    rw [printedBytes, printedBytes, hconsole, htold, joinLines_append, List.append_assoc, hlines,
      List.append_assoc]

section Steps

variable [Cf.AtaDrive δ]

theorem prints_readDevice (s : Machine κ δ) (d : Handler.Device) (w : Handler.Window)
    (addr : UInt32) : s.Prints [] (stateAfter (readDevice d w addr) s) := by
  by_cases hinterrupts : d = .interrupts
  · subst hinterrupts
    refine prints_actInterrupts (Interrupt.leaves_read ?_ ?_ ?_ (s.context w) addr) s
    · exact fun _ => rfl
    · exact fun _ => rfl
    · rfl
  · by_cases hconsole : d = .console
    · subst hconsole
      exact prints_actConsole (prints_read (s.context w) addr) s
    · exact (acts_readDevice s.model hinterrupts w addr s).prints hconsole

theorem prints_passCf (s : Machine κ δ) : s.Prints [] (stateAfter passCf s) := by
  have hcf : Handler.Device.cf ≠ .console := by decide
  have htransfers := (acts_transfers s.model s.model s).prints hcf
  obtain ⟨ids, -, hafter⟩ := s.exists_passCf
  rw [hafter]
  exact htransfers.trans (.of_eq (apart_console.untold.foldl_request _ ids) (lines_foldl_request _ ids))

theorem prints_tick (s : Machine κ δ) : s.Prints [] (stateAfter tick s) := by
  by_cases hhalted : s.cpu.halted
  · rw [tick, stateAfter_get_bind, if_pos hhalted]
    exact .of_eq rfl rfl
  · have htime : s.Prints [] s.advanceTime :=
      .of_eq (apart_console.untold.advanceTime (fun _ _ => rfl) s) s.lines_advanceTime
    have hchannels : s.advanceTime.Prints [] s.advanceTime.matchChannels :=
      .of_eq (apart_console.untold.matchChannels (fun _ _ => rfl) _) (lines_matchChannels _)
    rw [tick, stateAfter_get_bind, if_neg hhalted, stateAfter_modify_bind]
    exact (htime.trans hchannels).trans (prints_passCf _)

variable [Sd.SdCard κ]

/-- A write through a window of the console transmits at the register for it. -/
theorem prints_writeDevice (s : Machine κ δ) (w : Handler.Window) (addr value : UInt32) :
    s.Prints (if w.kind = .console then writtenBytes w.param addr value else [])
      (stateAfter (writeDevice w.kind.device w addr value) s) := by
  by_cases hconsole : w.kind = .console
  · have hprints := prints_actConsole (prints_write (s.context w) addr value) s
    rw [if_pos hconsole, hconsole]
    exact hprints
  · have hdevice : w.kind.device ≠ .console := by
      intro h
      cases hkind : w.kind <;> simp_all [Handler.Kind.device]
    rw [if_neg hconsole]
    by_cases hinterrupts : w.kind.device = .interrupts
    · rw [hinterrupts]
      refine prints_actInterrupts (Interrupt.leaves_write ?_ ?_ (s.context w) addr value) s
      · exact fun _ => rfl
      · exact fun _ => rfl
    · exact (acts_writeDevice hinterrupts w addr value s).prints hdevice

end Steps

def transmitted (s : Machine κ δ) (addr value : UInt32) : Log.Direction → List UInt8
  | .read => []
  | .write =>
    match Handler.find? s.handlers addr with
    | some h => if h.kind = .console then writtenBytes h.param addr value else []
    | none => []

theorem prints_access [Cf.AtaDrive δ] [Sd.SdCard κ] (s : Machine κ δ) (addr : UInt32)
    (direction : Log.Direction) (value : UInt32) :
    s.Prints (s.transmitted addr value direction)
      (stateAfter (access addr direction value) s) := by
  rw [stateAfter_access]
  cases hfind : Handler.find? s.handlers addr with
  | none =>
    have hnone : s.transmitted addr value direction = [] := by
      cases direction with
      | read => rfl
      | write => rw [transmitted, hfind]
    rw [hnone]
    exact .of_eq (apart_console.noteUnclaimed s addr direction value)
      (s.lines_noteUnclaimed addr direction value)
  | some h =>
    cases direction with
    | read => exact s.prints_readDevice h.kind.device h.toWindow addr
    | write =>
      rw [transmitted, hfind]
      exact s.prints_writeDevice h.toWindow addr value

theorem stream?_eq_tio_iff (n : Log.Notice) :
    n.stream? = some "eos::tio" ↔ ∃ bytes, n = .consoleLine bytes := by
  cases n <;> simp [Log.Notice.stream?]

/-- The records of the console are the lines that were told of, read as text. -/
theorem map_text_filter_tio (notices : List Log.Notice) :
    (notices.filter (·.stream? = some "eos::tio")).map (·.text ++ "\n") =
      (notices.filterMap Log.Notice.line?).map (Text.Utf8.decode · ++ "\n") := by
  induction notices with
  | nil => rfl
  | cons n notices ih =>
    by_cases hstream : n.stream? = some "eos::tio"
    · obtain ⟨bytes, rfl⟩ := (stream?_eq_tio_iff n).1 hstream
      rw [List.filter_cons_of_pos (by simpa using hstream), List.map_cons, ih]
      rfl
    · have hline : n.line? = none := by
        cases n <;> first | rfl | exact absurd rfl hstream
      rw [List.filter_cons_of_neg (by simpa using hstream), List.filterMap_cons_none hline, ih]

def transmittedBy (s : Machine κ δ) : Change κ δ → List UInt8
  | .step (.access addr direction value) => s.transmitted addr value direction
  | _ => []

def drainedBy (s : Machine κ δ) : Change κ δ → List UInt8
  | .clearConsole => s.console.outputBytes
  | _ => []

/-- The notices that a change takes with the journal. -/
def takenBy (s : Machine κ δ) : Change κ δ → List Log.Notice
  | .takeJournal => s.journal.toList
  | _ => []

section Changes

variable [Sd.SdCard κ] [Cf.AtaDrive δ]

def transmissions (s : Machine κ δ) : List (Change κ δ) → List UInt8
  | [] => []
  | c :: changes => s.transmittedBy c ++ (s.change c).transmissions changes

def drained (s : Machine κ δ) : List (Change κ δ) → List UInt8
  | [] => []
  | c :: changes => s.drainedBy c ++ (s.change c).drained changes

/-- All that is told in the course of changes: what they take with the journal, and what stands in
it in the end. -/
def told (s : Machine κ δ) : List (Change κ δ) → List Log.Notice
  | [] => s.journal.toList
  | c :: changes => s.takenBy c ++ (s.change c).told changes

/-- A change that takes neither the console nor the journal prints what it transmits. -/
theorem prints_change (s : Machine κ δ) {c : Change κ δ} (hclear : c ≠ .clearConsole)
    (htake : c ≠ .takeJournal) : s.Prints (s.transmittedBy c) (s.change c) := by
  have houter {c : Change κ δ} (hc : c.Outer) : s.Prints [] (s.change c) := by
    refine change_of_outer ?_ (fun t n _ hn ht => ht.trans (t.prints_tell hn)) (.of_eq rfl rfl) hc
    intro t u _ hconsole hjournal ht
    exact ht.trans (.of_eq hconsole (by rw [lines, lines, hjournal]))
  cases c with
  | step st =>
    cases st with
    | access addr direction value => exact s.prints_access addr direction value
    | tick => exact s.prints_tick
    | request id delay =>
      exact .of_eq (apart_console.untold.request s id delay) (s.lines_request id delay)
    | _ => exact houter trivial
  | offer b => exact ⟨(List.append_nil _).symm, (List.append_nil _).symm⟩
  | clearConsole => exact absurd rfl hclear
  | takeJournal => exact absurd rfl htake
  | _ => exact houter trivial

/-- What a change takes off the console or with the journal is no longer there afterwards, and what
it transmits is added. -/
theorem balance_change (s : Machine κ δ) (c : Change κ δ) :
    s.drainedBy c ++ (s.change c).console.outputBytes =
        s.console.outputBytes ++ s.transmittedBy c ∧
      joinLines ((s.takenBy c).filterMap Log.Notice.line?) ++ (s.change c).printedBytes =
        s.printedBytes ++ s.transmittedBy c := by
  by_cases hclear : c = .clearConsole
  · subst hclear
    exact ⟨rfl, (List.append_nil _).symm⟩
  · by_cases htake : c = .takeJournal
    · subst htake
      exact ⟨(List.append_nil _).symm, (List.append_nil _).symm⟩
    · obtain ⟨houtput, hlines⟩ := s.prints_change hclear htake
      have hdrained : s.drainedBy c = [] := by cases c <;> first | rfl | exact absurd rfl hclear
      have htaken : s.takenBy c = [] := by cases c <;> first | rfl | exact absurd rfl htake
      rw [hdrained, htaken]
      exact ⟨houtput, hlines⟩

/-- In the course of changes, the bytes taken off the console and those kept, and the lines told of
and the line so far, each are what there was before and what was transmitted. -/
theorem balance_after (s : Machine κ δ) (changes : List (Change κ δ)) :
    s.drained changes ++ (s.after changes).console.outputBytes =
        s.console.outputBytes ++ s.transmissions changes ∧
      joinLines ((s.told changes).filterMap Log.Notice.line?) ++
          (s.after changes).console.lineBytes =
        s.printedBytes ++ s.transmissions changes := by
  induction changes generalizing s with
  | nil => exact ⟨(List.append_nil _).symm, (List.append_nil _).symm⟩
  | cons c changes ih =>
    obtain ⟨houtput, hlines⟩ := s.balance_change c
    obtain ⟨houtputs, hall⟩ := ih (s.change c)
    rw [drained, told, transmissions, after_cons, List.filterMap_append, joinLines_append]
    constructor
    · rw [List.append_assoc, houtputs, ← List.append_assoc, houtput, List.append_assoc]
    · rw [List.append_assoc, hall, ← List.append_assoc, hlines, List.append_assoc]

theorem drained_of_not_mem (s : Machine κ δ) {changes : List (Change κ δ)}
    (h : .clearConsole ∉ changes) : s.drained changes = [] := by
  induction changes generalizing s with
  | nil => rfl
  | cons c changes ih =>
    obtain ⟨hfirst, hrest⟩ := not_or.1 (List.mem_cons.not.1 h)
    have hdrained : s.drainedBy c = [] := by cases c <;> first | rfl | exact absurd rfl hfirst
    rw [drained, hdrained, ih (s.change c) hrest, List.append_nil]

/-- In every machine, whatever has happened to it: what was taken off the console and what it keeps
are the bytes that were transmitted, and these are the lines that were told of, each with its end,
and the line so far. If the console was never taken, its text is the texts of its records, each with
its end, and the text of the line so far. -/
theorem console_agrees_with_lines {m : Model} {s₀ : Machine κ δ} (hnew : assemble m = .ok s₀)
    (changes : List (Change κ δ)) :
    let s := s₀.after changes
    s₀.drained changes ++ s.console.outputBytes = s₀.transmissions changes ∧
      s₀.drained changes ++ s.console.outputBytes =
        joinLines ((s₀.told changes).filterMap Log.Notice.line?) ++ s.console.lineBytes ∧
      (.clearConsole ∉ changes → s.console.text =
        String.join (((s₀.told changes).filter (·.stream? = some "eos::tio")).map
          (·.text ++ "\n")) ++ Text.Utf8.decode s.console.lineBytes) := by
  intro s
  have hempty : s₀.console.outputBytes = [] ∧ s₀.printedBytes = [] := by
    rw [assemble] at hnew
    cases hvalid : m.validate with
    | error e =>
      rw [hvalid] at hnew
      cases hnew
    | ok =>
      rw [hvalid] at hnew
      cases hnew
      exact ⟨rfl, rfl⟩
  obtain ⟨houtput, hlines⟩ := s₀.balance_after changes
  rw [hempty.1, List.nil_append] at houtput
  rw [hempty.2, List.nil_append] at hlines
  refine ⟨houtput, houtput.trans hlines.symm, fun hclear => ?_⟩
  have hbytes : s.console.outputBytes =
      joinLines ((s₀.told changes).filterMap Log.Notice.line?) ++ s.console.lineBytes := by
    rw [hlines, ← houtput, s₀.drained_of_not_mem hclear, List.nil_append]
  have htext := Text.Utf8.decode_lines ((s₀.told changes).filterMap Log.Notice.line?)
    s.console.lineBytes
  rw [Uart.text, ← Uart.outputBytes, hbytes, map_text_filter_tio]
  exact htext

/-- A line may end in the middle of a character, and so may the console. Either way what there is of
the character is read as one malformed part. -/
theorem console_agrees_with_lines_truncated :
    let s₀ : Machine Empty Empty := (ofModel .standard).tell
      (.assembled "DIGIC5" 5 0x01000000 0x00800000)
    let changes : List (Change Empty Empty) := [0xE2, 0x82, 0x0A, 0xF0, 0x9F].map fun byte =>
      .step (.access 0xC0800000 .write byte)
    assemble .standard = .ok s₀ ∧ .clearConsole ∉ changes ∧
      s₀.transmissions changes = [0xE2, 0x82, 0x0A, 0xF0, 0x9F] ∧
      (s₀.after changes).console.text = "\uFFFD\n\uFFFD" := by
  intro s₀ changes
  have hnew : assemble .standard = .ok s₀ := rfl
  have hclear : .clearConsole ∉ changes := by simp [changes]
  have hbytes : s₀.transmissions changes = [0xE2, 0x82, 0x0A, 0xF0, 0x9F] := by decide +kernel
  have htold : (s₀.told changes).filter (·.stream? = some "eos::tio") =
      [.consoleLine [0xE2, 0x82]] := by decide +kernel
  have hline : (s₀.after changes).console.lineBytes = [0xF0, 0x9F] := by decide +kernel
  have htext := (console_agrees_with_lines hnew changes).2.2 hclear
  rw [htold, hline] at htext
  exact ⟨hnew, hclear, hbytes, htext⟩

end Changes

end Machine

end Digic
