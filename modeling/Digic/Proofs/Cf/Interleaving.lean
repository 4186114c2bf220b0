import Digic.Proofs.Cf.Serving
/-!
# Starts and passes in any order

Firmware may start a transfer while another one is under way. Each start sets back the one count of
the bytes moved, and a pass takes back all requests once the count is complete. What was moved since
the last start is therefore always known: when a request is taken back, it is all that was asked
for, but of one transfer only. A write that waits beside a read is not made.
-/
namespace Digic.Cf

open Bus

variable {δ : Type}

/-- What happens to a host in the course of transfers. -/
inductive Event (δ : Type) where
  /-- Firmware writes the command register of DMA. -/
  | command (value : UInt32)
  /-- A pass, after the drive changed by itself. -/
  | pass (change : δ → δ)

def Transfer.of? (value : UInt32) : Option Transfer :=
  if value ∈ Transfer.read.commands then some .read
  else if value ∈ Transfer.write.commands then some .write
  else none

def Event.starts? : Event δ → Option Transfer
  | .command value => Transfer.of? value
  | .pass _ => none

def Host.commanded (h : Host δ) (value : UInt32) : Host δ :=
  match Transfer.of? value with
  | some t => t.start h
  | none => h

def Bench.recorded (b : Bench δ) : Bench (Recorded δ) := ⟨b.toHost.recorded, b.memory⟩

def Event.recorded : Event δ → Event (Recorded δ)
  | .command value => .command value
  | .pass change => .pass (Recorded.change change)

/-- What a host is set up for, and whether it has a drive, is as it was. -/
structure Bench.Keeps (b b' : Bench δ) : Prop where
  drive : b'.drive.isSome = b.drive.isSome
  addr : b'.dmaAddr = b.dmaAddr
  count : b'.dmaCount = b.dmaCount

/-- The last start among events: it begins a transfer, and nothing after it does. -/
structure LastStart (events before : List (Event δ)) (value : UInt32)
    (after : List (Event δ)) : Prop where
  split : events = before ++ .command value :: after
  starts : (Transfer.of? value).isSome
  quiet : ∀ e ∈ after, e.starts? = none

theorem LastStart.concat {events before after : List (Event δ)} {value : UInt32} {e : Event δ}
    (h : LastStart events before value after) (he : e.starts? = none) :
    LastStart (events ++ [e]) before value (after ++ [e]) where
  split := by rw [h.split, List.append_assoc, List.cons_append]
  starts := h.starts
  quiet := by
    intro e' hmem
    rcases List.mem_append.1 hmem with hmem | hmem
    · exact h.quiet e' hmem
    · rw [List.mem_singleton.1 hmem, he]

/-- Since the host stood as in `start`, all the bytes that it is set up for went through the data
register, they stand where they belong, and nothing else was moved. -/
def Transfer.MovedAll (t : Transfer) (start : Bench δ) (b : Bench (Recorded δ)) : Prop :=
  ∃ r, b.drive = some r ∧ t.Moved start.dmaAddr start.memory b r ∧ b.dmaDone = start.dmaCount

/-- What a run of events relies on: firmware writes the command register, and the model has the
interrupts of the host. -/
structure Wired (c : Context) (addr : UInt32) : Prop where
  window : c.window.kind = .cfDma
  addr : addr &&& 0x1F = 0x10
  driver : c.model.cfDriverInterrupt ≠ 0
  dma : c.model.cfDmaInterrupt ≠ 0

structure Bench.Fit (b : Bench δ) : Prop where
  drive : b.drive.isSome
  count : b.dmaCount % 4 = 0

theorem Bench.Fit.recorded {b : Bench δ} (h : b.Fit) : b.recorded.Fit :=
  ⟨Option.isSome_map.trans h.drive, h.count⟩

theorem Bench.Keeps.fit {b b' : Bench δ} (h : b.Keeps b') (hfit : b.Fit) : b'.Fit :=
  ⟨h.drive.trans hfit.drive, h.count ▸ hfit.count⟩

theorem Bench.Keeps.trans {b b' b'' : Bench δ} (h : b.Keeps b') (h' : b'.Keeps b'') :
    b.Keeps b'' :=
  ⟨h'.drive.trans h.drive, h'.addr.trans h.addr, h'.count.trans h.count⟩

theorem commanded_of_starts {value : UInt32} {t : Transfer} (h : Transfer.of? value = some t)
    (host : Host δ) : host.commanded value = t.start host := by
  rw [Host.commanded, h]

theorem commanded_of_not_starts {value : UInt32} (h : Transfer.of? value = none) (host : Host δ) :
    host.commanded value = host := by
  rw [Host.commanded, h]

theorem Transfer.mem_commands {value : UInt32} {t : Transfer} (h : of? value = some t) :
    value ∈ t.commands := by
  unfold of? at h
  split at h
  · cases h
    assumption
  · split at h
    · cases h
      assumption
    · cases h

theorem ofValue_eq_unknown {value : UInt32} (h : Transfer.of? value = none) :
    DmaCommand.ofValue value = .unknown := by
  unfold DmaCommand.ofValue
  split <;> simp_all [Transfer.of?, Transfer.commands]

theorem keeps_commanded (b : Bench δ) (value : UInt32) :
    b.Keeps ⟨b.toHost.commanded value, b.memory⟩ := by
  rw [Host.commanded]
  cases Transfer.of? value with
  | none => exact ⟨rfl, rfl, rfl⟩
  | some t => cases t <;> exact ⟨rfl, rfl, rfl⟩

theorem commanded_unrecorded (b : Bench (Recorded δ)) (value : UInt32) :
    (⟨b.unrecorded.toHost.commanded value, b.unrecorded.memory⟩ : Bench δ) =
      (⟨b.toHost.commanded value, b.memory⟩ : Bench (Recorded δ)).unrecorded := by
  rw [Host.commanded, Host.commanded]
  cases Transfer.of? value with
  | none => rfl
  | some t => cases t <;> rfl

theorem unrecorded_recorded (b : Bench δ) : b.recorded.unrecorded = b := by
  obtain ⟨h, memory⟩ := b
  have hdrive : (h.drive.map Recorded.fresh).map (·.drive) = h.drive := by
    cases h.drive <;> rfl
  rw [Bench.recorded, Bench.unrecorded, Host.recorded, hdrive]

/-- A host for which something waits still waits for all that it did, if it is all or nothing. -/
theorem readRequest_of_busy {h h' : Host δ} {still : Bool}
    (hrequests : ∀ t, h'.waits t = (h.waits t && still)) (hbusy : h'.busy = true) :
    h'.readRequest = h.readRequest := by
  have hstill : still = true := by
    rw [← waits_current, hrequests, Bool.and_eq_true] at hbusy
    exact hbusy.2
  have hread := hrequests .read
  rwa [hstill, Bool.and_true] at hread

theorem keeps_answerCommand (b : Bench δ) : b.Keeps b.answerCommand := by
  rw [Bench.answerCommand]
  split <;> exact ⟨rfl, rfl, rfl⟩

theorem keeps_changeDrive (change : δ → δ) (b : Bench δ) : b.Keeps (b.changeDrive change) :=
  ⟨Option.isSome_map, rfl, rfl⟩

theorem answerCommand_unrecorded (b : Bench (Recorded δ)) :
    b.unrecorded.answerCommand = b.answerCommand.unrecorded := by
  have hsame : b.unrecorded.commandPending = b.commandPending ∧
      b.unrecorded.interruptsEnabled = b.interruptsEnabled := ⟨rfl, rfl⟩
  rw [Bench.answerCommand, Bench.answerCommand, hsame.1, hsame.2]
  split <;> rfl

section Runs

variable [AtaDrive δ]

/-- The bench after an event, also after one that ends in a fault. -/
def Bench.happen (c : Context) (addr : UInt32) (b : Bench δ) : Event δ → Bench δ
  | .command value => ⟨(stateAfter (write c addr value) ⟨b.toHost, #[]⟩).device, b.memory⟩
  | .pass change => (stateAfter (pass c.model) ⟨b.changeDrive change, #[]⟩).device

def Bench.run (c : Context) (addr : UInt32) (b : Bench δ) (events : List (Event δ)) : Bench δ :=
  events.foldl (happen c addr) b

/-- The bench after a list of events, with what went through the drive's data register since the
first of them on record. -/
def Bench.observe (c : Context) (addr : UInt32) (b : Bench δ) (events : List (Event δ)) :
    Bench (Recorded δ) :=
  b.recorded.run c addr (events.map Event.recorded)

variable {c : Context} {addr : UInt32}

theorem run_concat (b : Bench δ) (events : List (Event δ)) (e : Event δ) :
    b.run c addr (events ++ [e]) = (b.run c addr events).happen c addr e := by
  rw [Bench.run, List.foldl_append]
  rfl

theorem observe_concat (b : Bench δ) (events : List (Event δ)) (e : Event δ) :
    b.observe c addr (events ++ [e]) = (b.observe c addr events).happen c addr e.recorded := by
  rw [Bench.observe, List.map_append, List.map_singleton, run_concat]
  rfl

/-- A value that starts nothing changes nothing. -/
theorem write_command (hw : Wired c addr) {h : Host δ} (hdrive : h.drive.isSome)
    (value : UInt32) :
    ∃ effects, write c addr value ⟨h, #[]⟩ = .ok () ⟨h.commanded value, effects⟩ := by
  cases hstarts : Transfer.of? value with
  | some t =>
    rw [commanded_of_starts hstarts]
    exact write_start t hw.window hw.addr (Transfer.mem_commands hstarts) hdrive
  | none =>
    have hregister : DmaRegister.ofAddress addr = .command := by
      rw [DmaRegister.ofAddress, hw.addr]
      rfl
    have htraced : isTraced c addr = true := by simp [isTraced, hw.window]
    refine ⟨#[.note (.access ⟨c.window.name, c.pc, addr, .write, value,
      "Unknown transfer command"⟩)], ?_⟩
    rw [write, hw.window, commanded_of_not_starts hstarts]
    simp only [hregister, setDmaRegister, startDma, ofValue_eq_unknown hstarts, Action.bind_apply,
      Action.pure_apply, htraced, if_true]
    rfl

theorem happen_command (hw : Wired c addr) {b : Bench δ} (hdrive : b.drive.isSome)
    (value : UInt32) :
    b.happen c addr (.command value) = ⟨b.toHost.commanded value, b.memory⟩ := by
  obtain ⟨effects, hwrite⟩ := write_command hw hdrive value
  rw [Bench.happen, stateAfter, hwrite]

theorem happen_pass (hw : Wired c addr) {b : Bench δ} (hcount : b.dmaCount % 4 = 0)
    (change : δ → δ) :
    b.happen c addr (.pass change) =
      (Transfer.write.serve (Transfer.read.serve (b.changeDrive change))).answerCommand := by
  have hpass := pass_serves (a := ⟨b.changeDrive change, #[]⟩) (Host.served hw.driver hw.dma _)
    hcount
  rw [Bench.happen, stateAfter, hpass]

theorem keeps_serve (t : Transfer) (b : Bench δ) : b.Keeps (t.serve b) :=
  have h := t.settings_serve b
  ⟨h.1, h.2.1, h.2.2⟩

theorem keeps_happen (hw : Wired c addr) {b : Bench δ} (hfit : b.Fit) (e : Event δ) :
    b.Keeps (b.happen c addr e) := by
  cases e with
  | command value =>
    rw [happen_command hw hfit.drive]
    exact keeps_commanded b value
  | pass change =>
    rw [happen_pass hw hfit.count]
    exact (((keeps_changeDrive change b).trans (keeps_serve .read _)).trans
      (keeps_serve .write _)).trans (keeps_answerCommand _)

theorem keeps_run (hw : Wired c addr) {b : Bench δ} (hfit : b.Fit) (events : List (Event δ)) :
    b.Keeps (b.run c addr events) := by
  induction events generalizing b with
  | nil => exact ⟨rfl, rfl, rfl⟩
  | cons e events ih =>
    have hfirst := keeps_happen hw hfit e
    exact hfirst.trans (ih (hfirst.fit hfit))

theorem serve_unrecorded (t : Transfer) (b : Bench (Recorded δ)) :
    t.serve b.unrecorded = (t.serve b).unrecorded := by
  have hsame : b.unrecorded.waits t = b.waits t := by cases t <;> rfl
  cases hwaits : b.waits t with
  | false => rw [Transfer.serve_of_not_waits hwaits, Transfer.serve_of_not_waits (hsame.trans hwaits)]
  | true =>
    have hwords : b.unrecorded.wordsLeft = b.wordsLeft := rfl
    rw [Transfer.serve_of_waits hwaits, Transfer.serve_of_waits (hsame.trans hwaits), hwords,
      drain_unrecorded, settle_unrecorded]

/-- The record changes nothing about an event. -/
theorem happen_unrecorded (hw : Wired c addr) {b : Bench (Recorded δ)} (hfit : b.Fit)
    (e : Event δ) :
    b.unrecorded.happen c addr e = (b.happen c addr e.recorded).unrecorded := by
  cases e with
  | command value =>
    have hdrive : b.unrecorded.drive.isSome := by
      rw [Bench.unrecorded, Option.isSome_map]
      exact hfit.drive
    rw [Event.recorded, happen_command hw hdrive, happen_command hw hfit.drive,
      commanded_unrecorded]
  | pass change =>
    have hcount : b.unrecorded.dmaCount % 4 = 0 := hfit.count
    rw [Event.recorded, happen_pass hw hcount, happen_pass hw hfit.count, changeDrive_unrecorded,
      serve_unrecorded, serve_unrecorded, answerCommand_unrecorded]

/-- The record changes nothing about a run. -/
theorem observe_unrecorded (hw : Wired c addr) {b : Bench δ} (hfit : b.Fit)
    (events : List (Event δ)) : (b.observe c addr events).unrecorded = b.run c addr events := by
  have hrun (b : Bench (Recorded δ)) (hfit : b.Fit) :
      (b.run c addr (events.map Event.recorded)).unrecorded = b.unrecorded.run c addr events := by
    induction events generalizing b with
    | nil => rfl
    | cons e events ih =>
      have hnext := ih (b.happen c addr e.recorded) ((keeps_happen hw hfit _).fit hfit)
      rw [← happen_unrecorded hw hfit] at hnext
      exact hnext
  rw [Bench.observe, hrun b.recorded hfit.recorded, unrecorded_recorded]

theorem LastStart.run_eq {events before after : List (Event δ)} {value : UInt32}
    (hlast : LastStart events before value after) (b : Bench δ) :
    (b.run c addr before).run c addr (.command value :: after) = b.run c addr events := by
  rw [hlast.split]
  exact (List.foldl_append ..).symm

variable {h : Host δ} {memory : Memory} {b : Bench (Recorded δ)} {r : Recorded δ}

theorem busy_happen_pass (hw : Wired c addr) {b : Bench δ} (hfit : b.Fit) (hidle : b.busy = false)
    (change : δ → δ) : (b.happen c addr (.pass change)).busy = false := by
  obtain ⟨hread, hwrite⟩ : b.readRequest = false ∧ b.writeRequest = false := by
    simpa [Host.busy] using hidle
  have hread' : (b.changeDrive change).waits .read = false := hread
  have hwrite' : (b.changeDrive change).waits .write = false := hwrite
  rw [happen_pass hw hfit.count, Transfer.serve_of_not_waits hread',
    Transfer.serve_of_not_waits hwrite', Bench.answerCommand]
  split <;> exact hidle

/-- A pass brings the current transfer forward, and takes back each request once all is moved. -/
theorem Progress.happen_pass (hw : Wired c addr) (hcount : h.dmaCount % 4 = 0)
    (hp : Progress b.current h memory b r) (hbusy : b.busy = true) (change : δ → δ) :
    ∃ r', Progress b.current h memory (b.happen c addr (Event.pass change).recorded) r' ∧
      ∀ t, (b.happen c addr (Event.pass change).recorded).waits t =
        (b.waits t && (b.happen c addr (Event.pass change).recorded).dmaDone ≠ h.dmaCount) := by
  have hchanged : Progress (b.changeDrive (Recorded.change change)).current h memory
      (b.changeDrive (Recorded.change change)) (r.change change) := hp.changeDrive change
  obtain ⟨r', hserved, hwaits⟩ := hchanged.serve_both hcount hbusy
  have hdone (b : Bench (Recorded δ)) : b.answerCommand.dmaDone = b.dmaDone := by
    rw [Bench.answerCommand]
    split <;> rfl
  rw [Event.recorded, Cf.happen_pass hw (hp.count ▸ hcount)]
  refine ⟨r', hserved.answerCommand, fun t => ?_⟩
  rw [waits_answerCommand, hwaits, hdone]
  rfl

/-- How the current transfer stands after events: what was moved since the last start was moved for
it, and if it is a write, the last start began it. -/
structure Standing (c : Context) (addr : UInt32) (b₀ : Bench δ) (events before : List (Event δ))
    (value : UInt32) (after : List (Event δ)) (r : Recorded δ) : Prop where
  last : LastStart events before value after
  write : (b₀.run c addr events).readRequest = false → Transfer.of? value = some .write
  progress : Progress (b₀.run c addr events).current (b₀.run c addr before).toHost
    (b₀.run c addr before).memory ((b₀.run c addr before).observe c addr (.command value :: after)) r

variable {b₀ : Bench δ} {events before after : List (Event δ)} {value : UInt32}

/-- When a start is made, nothing was moved since. -/
theorem Standing.of_start (hw : Wired c addr) (hfit : b₀.Fit) (events : List (Event δ))
    (value : UInt32) (hstarts : (Transfer.of? value).isSome) :
    ∃ r, Standing c addr b₀ (events ++ [.command value]) events value [] r := by
  obtain ⟨t, hstarts⟩ := Option.isSome_iff_exists.1 hstarts
  have hfit' := (keeps_run hw hfit events).fit hfit
  have hrun : b₀.run c addr (events ++ [.command value]) =
      ⟨t.start (b₀.run c addr events).toHost, (b₀.run c addr events).memory⟩ := by
    rw [run_concat, happen_command hw hfit'.drive, commanded_of_starts hstarts]
  have hseen : (b₀.run c addr events).observe c addr [.command value] =
      ⟨t.start (b₀.run c addr events).toHost.recorded, (b₀.run c addr events).memory⟩ :=
    (happen_command hw hfit'.recorded.drive value).trans
      (by rw [commanded_of_starts hstarts]; rfl)
  obtain ⟨r, hr⟩ := Progress.of_start t (b₀.run c addr (events ++ [.command value])).current
    hfit'.drive (b₀.run c addr events).memory
  refine ⟨r, ⟨rfl, by rw [hstarts]; rfl, by simp⟩, ?_, ?_⟩
  · intro hread
    rw [hrun] at hread
    cases t with
    | read => cases hread
    | write => exact hstarts
  · rw [hseen]
    exact hr

/-- An event that leaves the host as it is. -/
theorem Standing.concat_command (hw : Wired c addr) (hfit : b₀.Fit)
    (hs : Standing c addr b₀ events before value after r) {other : UInt32}
    (hnone : Transfer.of? other = none) :
    Standing c addr b₀ (events ++ [.command other]) before value (after ++ [.command other]) r := by
  have hrun : b₀.run c addr (events ++ [.command other]) = b₀.run c addr events := by
    rw [run_concat, happen_command hw ((keeps_run hw hfit events).fit hfit).drive,
      commanded_of_not_starts hnone]
  have hdrive : ((b₀.run c addr before).observe c addr (.command value :: after)).drive.isSome := by
    rw [hs.progress.drive]
    rfl
  have hseen : (b₀.run c addr before).observe c addr (.command value :: (after ++ [.command other]))
      = (b₀.run c addr before).observe c addr (.command value :: after) := by
    rw [← List.cons_append, observe_concat, Event.recorded, happen_command hw hdrive,
      commanded_of_not_starts hnone]
  refine ⟨hs.last.concat (e := .command other) hnone, ?_, ?_⟩
  · rw [hrun]
    exact hs.write
  · rw [hrun, hseen]
    exact hs.progress

/-- One more pass. -/
theorem Standing.pass (hw : Wired c addr) (hfit : b₀.Fit)
    (hs : Standing c addr b₀ events before value after r)
    (hbusy : (b₀.run c addr events).busy = true) (change : δ → δ) :
    ∃ r', Progress (b₀.run c addr events).current (b₀.run c addr before).toHost
        (b₀.run c addr before).memory ((b₀.run c addr before).observe c addr
          (.command value :: (after ++ [.pass change]))) r' ∧
      ∀ t, ((b₀.run c addr events).happen c addr (.pass change)).waits t =
        ((b₀.run c addr events).waits t && ((b₀.run c addr before).observe c addr
          (.command value :: (after ++ [.pass change]))).dmaDone ≠ (b₀.run c addr before).dmaCount) := by
  have hstart := (keeps_run hw hfit before).fit hfit
  have hsame := (observe_unrecorded hw hstart (.command value :: after)).trans (hs.last.run_eq b₀)
  have hafter := observe_unrecorded hw hstart (.command value :: (after ++ [.pass change]))
  rw [(hs.last.concat (e := .pass change) rfl).run_eq b₀, run_concat] at hafter
  have hp := hs.progress
  rw [← List.cons_append, observe_concat] at hafter ⊢
  rw [← hafter]
  rw [← hsame] at hp hbusy ⊢
  exact hp.happen_pass hw hstart.count hbusy change

/-- While a request waits, the current transfer stands as it should since the last start. -/
theorem exists_standing (hw : Wired c addr) (hfit : b₀.Fit) (hidle : b₀.busy = false)
    (events : List (Event δ)) (hbusy : (b₀.run c addr events).busy = true) :
    ∃ before value after r, Standing c addr b₀ events before value after r := by
  induction events using List.reverseRecOn with
  | nil =>
    have hidle' : (b₀.run c addr []).busy = false := hidle
    rw [hidle'] at hbusy
    cases hbusy
  | append_singleton events e ih =>
    have hfit' := (keeps_run hw hfit events).fit hfit
    cases e with
    | command value =>
      cases hstarts : Transfer.of? value with
      | some t =>
        obtain ⟨r, hs⟩ := Standing.of_start hw hfit events value (by rw [hstarts]; rfl)
        exact ⟨events, value, [], r, hs⟩
      | none =>
        rw [run_concat, happen_command hw hfit'.drive, commanded_of_not_starts hstarts] at hbusy
        obtain ⟨before, first, after, r, hs⟩ := ih hbusy
        exact ⟨before, first, after ++ [.command value], r, hs.concat_command hw hfit hstarts⟩
    | pass change =>
      rw [run_concat] at hbusy
      cases hwaits : (b₀.run c addr events).busy with
      | false =>
        rw [busy_happen_pass hw hfit' hwaits] at hbusy
        cases hbusy
      | true =>
        obtain ⟨before, first, after, r, hs⟩ := ih hwaits
        obtain ⟨r', hp, hrequests⟩ := hs.pass hw hfit hwaits change
        have hsame := readRequest_of_busy hrequests hbusy
        refine ⟨before, first, after ++ [.pass change], r', hs.last.concat rfl, ?_, ?_⟩
        · rw [run_concat, hsame]
          exact hs.write
        · rw [run_concat, Host.current, hsame]
          exact hp

/-- Firmware starts transfers in any order, also while others wait, and passes are made with
whatever the drive asks for. When a pass takes a request back,

* of a read, all bytes since the last start, of whichever kind it was, came from the drive,
* of a write beside which no read waits, the last start was its own, and since then all bytes went to
  the drive,
* of a write beside which a read waits, that one is taken back too: all bytes since the last start
  came from the drive, and the drive was given none. -/
theorem completed_since_last_start (hw : Wired c addr) (hfit : b₀.Fit) (hidle : b₀.busy = false)
    (events : List (Event δ)) (change : δ → δ) :
    let b := b₀.run c addr events
    let b' := b.happen c addr (.pass change)
    let since := fun before value after => (b₀.run c addr before).observe c addr
      (Event.command value :: (after ++ [.pass change]))
    (b.readRequest = true → b'.readRequest = false →
      ∃ before value after, LastStart events before value after ∧
        (since before value after).unrecorded = b' ∧
        Transfer.read.MovedAll (b₀.run c addr before) (since before value after)) ∧
    (b.writeRequest = true → b'.writeRequest = false → b.readRequest = false →
      ∃ before after, LastStart events before 0x3D after ∧
        (since before 0x3D after).unrecorded = b' ∧
        Transfer.write.MovedAll (b₀.run c addr before) (since before 0x3D after)) ∧
    (b.readRequest = true → b.writeRequest = true → b'.writeRequest = b'.readRequest) := by
  intro b b' since
  have hstanding (hbusy : b.busy = true) : ∃ before value after r,
      LastStart events before value after ∧
      (b.readRequest = false → value = 0x3D) ∧
      (since before value after).unrecorded = b' ∧
      Progress b.current (b₀.run c addr before).toHost (b₀.run c addr before).memory
        (since before value after) r ∧
      ∀ t, b'.waits t = (b.waits t &&
        (since before value after).dmaDone ≠ (b₀.run c addr before).dmaCount) := by
    obtain ⟨before, value, after, _, hs⟩ := exists_standing hw hfit hidle events hbusy
    obtain ⟨r, hp, hrequests⟩ := hs.pass hw hfit hbusy change
    refine ⟨before, value, after, r, hs.last, ?_, ?_, hp, hrequests⟩
    · intro hread
      exact List.mem_singleton.1 (Transfer.mem_commands (hs.write hread))
    · have hseen := observe_unrecorded hw ((keeps_run hw hfit before).fit hfit)
        (.command value :: (after ++ [.pass change]))
      rw [(hs.last.concat (e := .pass change) rfl).run_eq b₀, run_concat] at hseen
      exact hseen
  refine ⟨fun hread hdone => ?_, fun hwrite hdone hread => ?_, fun hread hwrite => ?_⟩
  · have hcurrent : b.current = .read := if_pos hread
    obtain ⟨before, value, after, r, hlast, -, hseen, hp, hrequests⟩ :=
      hstanding (by rw [Host.busy, hread, Bool.true_or])
    have hall := hrequests .read
    rw [Host.waits, Host.waits, hdone, hread] at hall
    rw [hcurrent] at hp
    exact ⟨before, value, after, hlast, hseen, r, hp.drive, hp.moved, by simpa using hall⟩
  · have hcurrent : b.current = .write := if_neg (by rw [hread]; exact Bool.false_ne_true)
    obtain ⟨before, value, after, r, hlast, hvalue, hseen, hp, hrequests⟩ :=
      hstanding (by rw [Host.busy, hwrite, Bool.or_true])
    obtain rfl := hvalue hread
    have hall := hrequests .write
    rw [Host.waits, Host.waits, hdone, hwrite] at hall
    rw [hcurrent] at hp
    exact ⟨before, after, hlast, hseen, r, hp.drive, hp.moved, by simpa using hall⟩
  · obtain ⟨before, value, after, r, -, -, -, -, hrequests⟩ :=
      hstanding (by rw [Host.busy, hread, Bool.true_or])
    have hwrite' := hrequests .write
    have hread' := hrequests .read
    rw [Host.waits, Host.waits, hwrite] at hwrite'
    rw [Host.waits, Host.waits, hread] at hread'
    exact hwrite'.trans hread'.symm

end Runs

/-- A write is begun and then a read, one word each. The drive gives a word, and both requests are
taken back. -/
theorem completed_since_last_start_both :
    let c : Context := ⟨⟨"CFDMA0", .cfDma, 0⟩, 0, .standard⟩
    let start : Bench Counter :=
      ⟨⟨some ⟨1, 2⟩, 0xFFFFFFFC, 4, 0, false, false, 0x00010000, false, false⟩, .blank 0⟩
    let b := start.run c 0xC0500010 [.command 0x3D, .command 0x39]
    let b' := b.happen c 0xC0500010 (.pass id)
    (b.readRequest = true ∧ b.writeRequest = true ∧ b'.readRequest = false) ∧
      b'.writeRequest = false ∧
      ∃ before value after, LastStart [.command 0x3D, .command 0x39] before value after ∧
        Transfer.read.MovedAll (start.run c 0xC0500010 before)
          ((start.run c 0xC0500010 before).observe c 0xC0500010
            (.command value :: (after ++ [.pass id]))) := by
  intro c start b b'
  have hw : Wired c 0xC0500010 := ⟨rfl, by decide, by decide, by decide⟩
  have hfit : start.Fit := ⟨rfl, by decide⟩
  have hread : b.readRequest = true := by decide +kernel
  have hwrite : b.writeRequest = true := by decide +kernel
  have hdone : b'.readRequest = false := by decide +kernel
  obtain ⟨hreads, -, hboth⟩ :=
    completed_since_last_start hw hfit rfl [.command 0x3D, .command 0x39] id
  obtain ⟨before, value, after, hlast, -, hmoved⟩ := hreads hread hdone
  exact ⟨⟨hread, hwrite, hdone⟩, (hboth hread hwrite).trans hdone, before, value, after, hlast,
    hmoved⟩

/-- In the same run the drive was given nothing, although its write counts as complete. -/
theorem write_completed_unmoved :
    let c : Context := ⟨⟨"CFDMA0", .cfDma, 0⟩, 0, .standard⟩
    let start : Bench (Recorded Counter) :=
      ⟨⟨some (.fresh ⟨1, 2⟩), 0xFFFFFFFC, 4, 0, false, false, 0x00010000, false, false⟩, .blank 0⟩
    let b := start.run c 0xC0500010 [.command 0x3D, .command 0x39]
    let b' := b.happen c 0xC0500010 (.pass id)
    b.writeRequest = true ∧ b'.writeRequest = false ∧ b'.dmaCount = 4 ∧
      b'.drive.map (·.taken) = some [] := by
  decide +kernel

end Digic.Cf
