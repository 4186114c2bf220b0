import Digic.Proofs.Machine.Reachable
import Digic.Proofs.Machine.Requests
import Digic.Proofs.Timer.Access
/-!
# Compare channels in a machine

Of everything that can happen to a machine only ticks and writes to the window of the compare
channels move clock and channels. So what is true of them by themselves is true in every machine:
when a channel matches, what its latch tells of, and how often their interrupt is asked for.
-/
namespace Digic.Machine

open Bus Timer

variable {κ δ : Type}

def face (s : Machine κ δ) : Face := s.time.face

theorem unowned_face : Unowned (face : Machine κ δ → Face) where
  tell := fun _ n => by cases n <;> rfl
  interrupts := fun _ _ => rfl
  limiter := fun _ _ => rfl
  attachCard := fun _ _ => rfl
  attachDrive := fun _ _ => rfl
  execute := fun _ _ _ _ => rfl
  flash := fun _ _ _ _ => rfl
  handlers := fun _ _ => rfl
  commands := fun _ _ => rfl
  updateDisplay := fun _ _ => rfl
  invalidateDisplay := fun _ => rfl
  console := fun _ _ => rfl
  running := fun _ _ => rfl
  takeJournal := fun _ => rfl

theorem apart_face : Apart (face : Machine κ δ → Face) := unowned_face.toApart

/-- What a change means to clock and channels, by the handler table in force. -/
def moveOf (s : Machine κ δ) : Change κ δ → Move
  | .step .tick => if s.cpu.halted then .nothing else .tick
  | .step (.access addr .write value) =>
    match Handler.find? s.handlers addr with
    | some h => if h.kind = .compare then .write addr value else .nothing
    | none => .nothing
  | _ => .nothing

theorem moveOf_of_quiet (s : Machine κ δ) {c : Change κ δ} (h : c.Quiet) :
    s.moveOf c = .nothing := by
  cases c with
  | step st =>
    cases st with
    | access => exact h.elim
    | tick => exact h.elim
    | _ => rfl
  | _ => rfl

theorem moveOf_write {s : Machine κ δ} {addr : UInt32} {h : Handler.Entry}
    (hfind : Handler.find? s.handlers addr = some h) (hkind : h.kind = .compare) (value : UInt32) :
    s.moveOf (.step (.access addr .write value)) = .write addr value := by
  rw [moveOf, hfind]
  exact if_pos hkind

def moves [Sd.SdCard κ] [Cf.AtaDrive δ] (s : Machine κ δ) : List (Change κ δ) → List Move
  | [] => []
  | c :: changes => s.moveOf c :: (s.change c).moves changes

theorem kind_eq_compare_iff (kind : Handler.Kind) : kind = .compare ↔ kind.device = .compare := by
  cases kind <;> decide

theorem face_tick [Cf.AtaDrive δ] (s : Machine κ δ) :
    (stateAfter tick s).face = s.face.move (s.moveOf (.step .tick)) := by
  rw [face, time_tick, moveOf]
  by_cases hhalted : s.cpu.halted
  · rw [if_pos hhalted, if_pos hhalted]
    rfl
  · rw [if_neg hhalted, if_neg hhalted]
    rfl

section Changes

variable [Sd.SdCard κ] [Cf.AtaDrive δ]

theorem face_access (s : Machine κ δ) (addr : UInt32) (direction : Log.Direction)
    (value : UInt32) : (stateAfter (access addr direction value) s).face =
      s.face.move (s.moveOf (.step (.access addr direction value))) := by
  rw [stateAfter_access]
  cases hfind : Handler.find? s.handlers addr with
  | none =>
    have hnothing : s.moveOf (.step (.access addr direction value)) = .nothing := by
      cases direction <;> simp [moveOf, hfind]
    rw [hnothing]
    exact apart_face.noteUnclaimed s addr direction value
  | some h =>
    cases direction with
    | read =>
      dsimp only
      rw [readDevice, stateAfter_get_bind]
      change _ = s.face
      cases h.kind.device
      case timers =>
        exact (apart_face.untold.act _ _ _ s).trans
          (keeps_face_read (s.context h.toWindow) addr s.face ⟨s.time, #[]⟩ rfl)
      case compare =>
        exact (apart_face.untold.act _ _ _ s).trans
          (keeps_face_readCompare (s.context h.toWindow) addr s.face ⟨s.time, #[]⟩ rfl)
      all_goals exact apart_face.untold.act _ _ _ s
    | write =>
      rw [moveOf, hfind]
      dsimp only
      rw [writeDevice, stateAfter_get_bind, if_congr (kind_eq_compare_iff h.kind) rfl rfl]
      cases h.kind.device
      case timers =>
        exact (apart_face.untold.act _ _ _ s).trans
          (keeps_face_write (s.context h.toWindow) addr value s.face ⟨s.time, #[]⟩ rfl)
      case compare =>
        exact (apart_face.untold.act _ _ _ s).trans
          (face_writeCompare (s.context h.toWindow) addr value ⟨s.time, #[]⟩)
      all_goals exact apart_face.untold.act _ _ _ s

theorem face_change (s : Machine κ δ) (c : Change κ δ) :
    (s.change c).face = s.face.move (s.moveOf c) := by
  by_cases hc : c.Quiet
  · rw [moveOf_of_quiet s hc]
    exact unowned_face.change s hc
  · obtain ⟨addr, direction, value, rfl⟩ | rfl := Change.of_not_quiet hc
    · exact s.face_access addr direction value
    · exact s.face_tick

/-- Clock and channels move by themselves. -/
theorem face_after (s : Machine κ δ) (changes : List (Change κ δ)) :
    (s.after changes).face = s.face.run (s.moves changes) := by
  induction changes generalizing s with
  | nil => rfl
  | cons c changes ih => rw [after_cons, ih, face_change, moves, Face.run_cons]

/-- Every machine shows, and waits for, values of the clock only. -/
theorem sound_reachable {m : Model} {s : Machine κ δ} (h : assemble m = .ok s)
    (changes : List (Change κ δ)) : (s.after changes).face.Sound := by
  rw [face_after, (apart_face.assemble h).2]
  exact Face.sound_run Face.sound_new _

/-- When an armed channel matches after its compare value was written, whatever happens meanwhile. -/
theorem matchesNext_after_write {s : Machine κ δ} (hsound : s.face.Sound) {i : Nat}
    (hi : i < channelCount) (harmed : s.face.armed i = true) {addr : UInt32} {h : Handler.Entry}
    (hfind : Handler.find? s.handlers addr = some h) (hkind : h.kind = .compare)
    (hoffset : offset addr = 0x164 + 0x10 * i) (value : UInt32) (later : List (Change κ δ))
    (hlater : ∀ m ∈ (s.change (.step (.access addr .write value))).moves later,
      m.setsUp i = false) :
    ((s.change (.step (.access addr .write value))).after later).face.matchesNext i = true ↔
      ∃ r, ((s.change (.step (.access addr .write value))).moves later).countP Move.isTick + 1 =
        ticksUntil value s.face.clock.value + turn * r := by
  rw [face_after, face_change, moveOf_write hfind hkind]
  exact Face.matchesNext_iff hsound hi harmed hoffset value hlater

def matchesIn (s : Machine κ δ) (i : Nat) (c : Change κ δ) : Bool :=
  (s.moveOf c).isTick && s.face.matchesNext i

/-- A latch is set if it was and nobody cleared it, or if the channel matched in some tick and nobody
cleared it since. -/
theorem latched_after_iff {i : Nat} (hi : i < channelCount) (s : Machine κ δ)
    (later : List (Change κ δ)) :
    (s.after later).face.latched i = true ↔
      (s.face.latched i = true ∧ ∀ m ∈ s.moves later, m.clears i = false) ∨
      ∃ (before : List (Change κ δ)) (c : Change κ δ) (rest : List (Change κ δ)),
        later = before ++ c :: rest ∧ (s.after before).matchesIn i c = true ∧
        ∀ m ∈ ((s.after before).change c).moves rest, m.clears i = false := by
  induction later generalizing s with
  | nil => simp [moves]
  | cons first later ih =>
    have hfirst : (s.change first).face.latched i = true ↔
        (s.face.latched i = true ∧ (s.moveOf first).clears i = false) ∨
          s.matchesIn i first = true := by
      rw [face_change, Face.latched_move hi, matchesIn]
      cases s.moveOf first <;> simp [Move.clears, Move.isTick, and_comm]
    rw [after_cons, ih, hfirst, moves, List.forall_mem_cons]
    constructor
    · rintro (⟨⟨hlatched, hkept⟩ | hmatch, hrest⟩ | ⟨before, c, rest, rfl, hmatch, hrest⟩)
      · exact .inl ⟨hlatched, hkept, hrest⟩
      · exact .inr ⟨[], first, later, rfl, hmatch, hrest⟩
      · exact .inr ⟨first :: before, c, rest, rfl, hmatch, hrest⟩
    · rintro (⟨hlatched, hkept, hrest⟩ | ⟨before, c, rest, hsplit, hmatch, hrest⟩)
      · exact .inl ⟨.inl ⟨hlatched, hkept⟩, hrest⟩
      · cases before with
        | nil =>
          cases hsplit
          exact .inl ⟨.inr hmatch, hrest⟩
        | cons b before =>
          cases hsplit
          exact .inr ⟨before, c, rest, rfl, hmatch, hrest⟩

/-- The status register gives the latches. -/
theorem access_status {s : Machine κ δ} {addr : UInt32} {h : Handler.Entry}
    (hfind : Handler.find? s.handlers addr = some h) (hkind : h.kind = .compare)
    (hoffset : offset addr = 0x300) (value : UInt32) :
    ∃ t, access addr .read value s = .ok s.time.channels.triggeredMask t := by
  obtain ⟨a, hread⟩ := readCompare_status (s.context h.toWindow) hoffset ⟨s.time, #[]⟩
  have hdevice : h.kind.device = .compare := (kind_eq_compare_iff h.kind).1 hkind
  rw [access_read_of_claimed hfind, readDevice, get_bind_apply, hdevice]
  dsimp only
  rw [actTime, act, hread]
  exact ⟨_, rfl⟩

/-- How the compare channels of a machine work. -/
structure ChannelsExact (s : Machine κ δ) : Prop where
  /-- The clock and all compare values are multiples of `0x100` below `0x100000`. -/
  grid : s.face.Sound
  /-- A channel that is armed when a compare value is written to it, and that is not set up anew,
  matches in the tick that `ticksUntil` says, in every 4096th tick after it, and in no other. -/
  onTime : ∀ {i : Nat}, i < channelCount → s.face.armed i = true →
    ∀ {addr : UInt32} {h : Handler.Entry}, Handler.find? s.handlers addr = some h →
    h.kind = .compare → offset addr = 0x164 + 0x10 * i → ∀ (value : UInt32)
      (later : List (Change κ δ)),
    let written := s.change (.step (.access addr .write value))
    (∀ m ∈ written.moves later, m.setsUp i = false) →
    ((written.after later).face.matchesNext i = true ↔
      ∃ r, (written.moves later).countP Move.isTick + 1 =
        ticksUntil value s.face.clock.value + turn * r)
  /-- A match is latched, and the latch stays set until firmware clears it. -/
  latched : ∀ {i : Nat}, i < channelCount → ∀ later : List (Change κ δ),
    ((s.after later).face.latched i = true ↔
      (s.face.latched i = true ∧ ∀ m ∈ s.moves later, m.clears i = false) ∨
      ∃ (before : List (Change κ δ)) (c : Change κ δ) (rest : List (Change κ δ)),
        later = before ++ c :: rest ∧ (s.after before).matchesIn i c = true ∧
        ∀ m ∈ ((s.after before).change c).moves rest, m.clears i = false)
  /-- The status register shows the latches. -/
  shown : ∀ {addr : UInt32} {h : Handler.Entry}, Handler.find? s.handlers addr = some h →
    h.kind = .compare → offset addr = 0x300 → ∀ value : UInt32,
    ∃ given t, access addr .read value s = .ok given t ∧
      ∀ i < channelCount, given.toNat.testBit (2 * i + 4) = s.face.latched i
  /-- A tick asks once for the interrupt of the channels if one or more of them match, and not at all
  if none does. Whatever else it asks for, it asks for the CF host. -/
  asked : s.cpu.halted = false → ∃ ids : List UInt32,
    (∀ id ∈ ids, id = s.model.cfDriverInterrupt ∨ id = s.model.cfDmaInterrupt) ∧
    (s.change (.step .tick)).requests = s.requests ++
      (if ∃ i < channelCount, s.face.matchesNext i = true then [s.model.hptimerInterrupt] else []) ++
      ids
  /-- While the processor is halted, a tick does nothing. -/
  halted : s.cpu.halted = true → s.change (.step .tick) = s

/-- The compare channels work exactly, in every machine and whatever has happened to it. -/
theorem channels_exact {m : Model} {s₀ : Machine κ δ} (hnew : assemble m = .ok s₀)
    (changes : List (Change κ δ)) : (s₀.after changes).ChannelsExact := by
  have hsound := sound_reachable hnew changes
  generalize s₀.after changes = s at hsound
  refine ⟨hsound, ?_, fun hi later => latched_after_iff hi s later, ?_, ?_, ?_⟩
  · intro i hi harmed addr h hfind hkind hoffset value later
    exact matchesNext_after_write hsound hi harmed hfind hkind hoffset value later
  · intro addr h hfind hkind hoffset value
    obtain ⟨t, hread⟩ := access_status hfind hkind hoffset value
    exact ⟨_, t, hread, fun i hi => testBit_triggeredMask s.time.channels hi⟩
  · intro hrunning
    obtain ⟨ids, hids, hrequests⟩ := s.requests_tick hrunning
    have hfires : s.time.advance.fires = true ↔ ∃ i < channelCount, s.face.matchesNext i = true :=
      s.face.fires_iff
    rw [if_congr hfires rfl rfl] at hrequests
    exact ⟨ids, hids, hrequests⟩
  · intro hhalted
    have htick : stateAfter tick s = s := by
      rw [tick, stateAfter_get_bind, if_pos hhalted]
      rfl
    exact htick

/-- While the clock shows zero, `0x42` is rounded up to what the clock shows after one tick, and
`0xFFF01` to what it shows after a whole turn. -/
theorem channels_exact_rounded_up :
    let s₀ : Machine Empty Empty := (ofModel .standard).tell
      (.assembled "DIGIC5" 5 0x01000000 0x00800000)
    let s := s₀.after [.step (.access 0xC0243160 .write 1)]
    assemble .standard = .ok s₀ ∧ s.face.armed 0 = true ∧
      (s.change (.step (.access 0xC0243164 .write 0x42))).face.matchesNext 0 = true ∧
      (s.change (.step (.access 0xC0243164 .write 0xFFF01))).face.matchesNext 0 = false := by
  intro s₀ s
  have hnew : assemble .standard = .ok s₀ := rfl
  have hexact : s.ChannelsExact :=
    channels_exact hnew [.step (.access 0xC0243160 .write 1)]
  have harmed : s.face.armed 0 = true := by decide +kernel
  have hfind : Handler.find? s.handlers 0xC0243164 =
      some ⟨⟨"HPTimer", 0xC0243000, 0xC0243FFF⟩, .compare, 0⟩ := by decide +kernel
  have hclock : s.face.clock.value = 0 := by decide +kernel
  have honTime := fun value => hexact.onTime (i := 0) (by decide) harmed hfind rfl rfl value []
    (by simp [moves])
  refine ⟨hnew, harmed, (honTime 0x42).2 ⟨0, ?_⟩, ?_⟩
  · rw [hclock]
    decide
  · have hnext := honTime 0xFFF01
    rw [hclock] at hnext
    rw [Bool.eq_false_iff]
    intro hmatches
    obtain ⟨r, hr⟩ := hnext.1 hmatches
    have hturn : ticksUntil 0xFFF01 0 = 0x1000 := by decide
    rw [hturn] at hr
    simp [moves] at hr
    omega

end Changes

end Digic.Machine
