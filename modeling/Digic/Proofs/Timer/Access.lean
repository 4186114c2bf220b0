import Digic.Proofs.Bus.Effects
import Digic.Proofs.Timer.Channels
import Digic.Timer.Registers
/-!
# Accesses of clock, timers and channels

Firmware reaches the compare channels through their own window, and the clock not at all. A timer
keeps its reload value whether it stands or runs.
-/
namespace Digic.Timer

open Bus

theorem keeps_face_read (c : Context) (addr : UInt32) (f : Face) :
    (Timer.read c addr).Keeps (·.face = f) := by
  unfold read
  split
  · exact .device_bind fun _ _ => .pure _
  · split
    · unfold readTimer
      exact .device_bind fun _ _ => .answer c addr _ _
    · exact .answer c addr _ _

theorem keeps_face_updateTimers (g : Bank → Bank) (f : Face) :
    (updateTimers g).Keeps (·.face = f) := .update fun _ h => h

theorem keeps_face_write (c : Context) (addr value : UInt32) (f : Face) :
    (Timer.write c addr value).Keeps (·.face = f) := by
  unfold write
  split
  · exact .note _
  · split
    · unfold writeTimer
      split
      · split
        · unfold startTimer
          refine .bind (keeps_face_updateTimers _ f) fun _ => ?_
          split
          · exact .device_bind fun _ _ => .bind (.request _ _) fun _ => .note _
          · exact .note _
        · exact .bind (keeps_face_updateTimers _ f) fun _ => .note _
      · exact .bind (keeps_face_updateTimers _ f) fun _ => .note _
      · exact .note _
      · exact .note _
    · exact .note _

theorem keeps_face_readCompare (c : Context) (addr : UInt32) (f : Face) :
    (readCompare c addr).Keeps (·.face = f) := by
  unfold readCompare
  exact .device_bind fun _ _ => .answer c addr _ _

/-- A write to the window of the channels sets one of them, or nothing. -/
theorem face_writeCompare (c : Context) (addr value : UInt32) (a : Acting Timebase) :
    (stateAfter (writeCompare c addr value) a).device.face =
      a.device.face.move (.write addr value) := by
  rw [writeCompare, Face.move]
  cases CompareRegister.ofAddress addr <;> rfl

/-- The status register gives the mask of the latches. -/
theorem readCompare_status (c : Context) {addr : UInt32} (h : offset addr = 0x300)
    (a : Acting Timebase) :
    ∃ a', readCompare c addr a = .ok a.device.channels.triggeredMask a' := by
  rw [readCompare, bind_of_ok (Action.device_apply a), ofAddress_eq_status_iff.2 h]
  exact ⟨_, rfl⟩

theorem Bank.reload_advance (b : Bank) (id : Nat) : b.advance.reload id = b.reload id := by
  have hcounter (t : Counter) : t.advance.reload = t.reload := by
    rw [Counter.advance]
    split <;> rfl
  rw [reload, get?_advance, reload]
  cases b.get? id with
  | none => rfl
  | some t => exact hcounter t

theorem Bank.reload_start (b : Bank) (id other : Nat) :
    (b.start id).reload other = b.reload other := by
  rw [reload, start, get?_modify, reload]
  split
  · cases b.get? other <;> rfl
  · rfl

/-- A write that starts the timer of the operating system asks for the line of the tick, after as
many ticks as the timer is set to. -/
theorem write_start {c : Context} {addr value : UInt32} (hkind : c.window.kind = .timers)
    (htimer : timerOf? c.window.param addr = some c.model.osTimer)
    (hcontrol : Register.ofAddress addr = .control) (hstart : value &&& 1 ≠ 0) (t : Timebase) :
    ∃ n : Log.Notice, n.event? = none ∧ write c addr value ⟨t, #[]⟩ =
      .ok () ⟨{ t with timers := t.timers.start c.model.osTimer },
        #[.request c.model.timerInterrupt (t.timers.reload c.model.osTimer >>> 8), .note n]⟩ := by
  have hwrite : write c addr value = startTimer c addr value c.model.osTimer := by
    rw [write, hkind, htimer]
    dsimp only
    rw [writeTimer, hcontrol]
    exact if_pos hstart
  rw [hwrite, startTimer, if_pos rfl, ← Bank.reload_start t.timers c.model.osTimer]
  exact ⟨_, rfl, rfl⟩

end Digic.Timer
