import Mathlib.Data.List.Induction
import Digic.Timer.Bank
/-!
# The period of a timer

A running timer counts in steps and starts again from zero once it is past its reload value. So it
shows as many different counts as there are steps up to that value, in turn, and one count more for
zero. This is also so when the last of the steps leaves the word: then the count that would be past
the reload value is zero by itself.
-/
namespace Digic.Timer

inductive Bank.Use where
  | start (id : Nat)
  | stop (id : Nat)
  | setReload (id : Nat) (value : UInt32)
  | advance
  | reset
  deriving DecidableEq, Repr

namespace Bank

def after (b : Bank) : Use → Bank
  | .start id => b.start id
  | .stop id => b.stop id
  | .setReload id value => b.setReload id value
  | .advance => b.advance
  | .reset => new

def run (b : Bank) (uses : List Use) : Bank := uses.foldl after b

/-- Whether a use leaves the settings of a timer alone. -/
def Use.spares (id : Nat) : Use → Bool
  | .start other | .stop other | .setReload other _ => other != id
  | .advance => true
  | .reset => false

def advances (uses : List Use) : Nat := uses.count .advance

theorem run_concat (b : Bank) (uses : List Use) (use : Use) :
    b.run (uses ++ [use]) = (b.run uses).after use := by
  rw [run, List.foldl_append]
  rfl

theorem advances_concat (uses : List Use) (use : Use) :
    advances (uses ++ [use]) = advances uses + if use = .advance then 1 else 0 := by
  rw [advances, List.count_append, List.count_singleton]
  simp [advances]

end Bank

namespace Counter

/-- The number of counts that a timer shows in turn. -/
def period (reload : UInt32) : Nat := reload.toNat / 0x100 + 1

/-- What holds of every timer, running or not. -/
structure Sound (t : Counter) : Prop where
  onStep : t.current.toNat % 0x100 = 0
  stopped : t.enabled = false → t.current = 0

theorem toNat_step : step.toNat = 0x100 := rfl

theorem advance_of_enabled {t : Counter} (h : t.enabled = true) :
    t.advance = { t with current := if t.reload < t.current + step then 0 else t.current + step } :=
  if_pos h

theorem advance_of_stopped {t : Counter} (h : t.enabled = false) : t.advance = t :=
  if_neg (by simp [h])

theorem Sound.advance {t : Counter} (h : t.Sound) : t.advance.Sound := by
  cases henabled : t.enabled with
  | false => rwa [advance_of_stopped henabled]
  | true =>
    rw [advance_of_enabled henabled]
    refine ⟨?_, by simp [henabled]⟩
    have hstep := h.onStep
    have hnext := UInt32.toNat_add t.current step
    rw [toNat_step] at hnext
    dsimp only
    split
    · rfl
    · omega

theorem current_advance_le {t : Counter} (h : t.advance.enabled = true) :
    t.advance.current ≤ t.advance.reload := by
  cases henabled : t.enabled with
  | false =>
    rw [advance_of_stopped henabled, henabled] at h
    cases h
  | true =>
    rw [advance_of_enabled henabled]
    dsimp only
    split
    · exact UInt32.zero_le
    · next hnot => exact UInt32.not_lt.1 hnot

/-- One step in a period. The count after the last step is zero, whether it is past the reload value
or leaves the word. -/
theorem toNat_current_advance {t : Counter} (h : t.enabled = true) {k : Nat}
    (hk : t.current.toNat = 0x100 * (k % period t.reload)) :
    t.advance.current.toNat = 0x100 * ((k + 1) % period t.reload) := by
  have hlt : k % period t.reload < period t.reload := Nat.mod_lt k (Nat.succ_pos _)
  have hsucc : (k + 1) % period t.reload = (k % period t.reload + 1) % period t.reload :=
    (Nat.mod_add_mod k _ 1).symm
  have hnext := UInt32.toNat_add t.current step
  have hreload := t.reload.toNat_lt
  rw [toNat_step, hk] at hnext
  rw [advance_of_enabled h, hsucc]
  dsimp only
  by_cases hlast : k % period t.reload + 1 = period t.reload
  · have hwrap : (if t.reload < t.current + step then 0 else t.current + step) = 0 := by
      split
      · rfl
      · next hnot =>
        rw [UInt32.lt_iff_toNat_lt] at hnot
        apply UInt32.toNat_inj.1
        rw [UInt32.toNat_zero]
        unfold period at *
        omega
    rw [hwrap, hlast, Nat.mod_self]
    rfl
  · have hwithin : k % period t.reload + 1 < period t.reload := by omega
    have hnot : ¬ t.reload < t.current + step := by
      rw [UInt32.lt_iff_toNat_lt]
      unfold period at *
      omega
    rw [if_neg hnot, Nat.mod_eq_of_lt hwithin]
    unfold period at *
    omega

end Counter

namespace Bank

variable {b : Bank} {id : Nat}

theorem get?_eq_some (hid : id < timerCount) : b.get? id = some b.timers[id] :=
  Vector.getElem?_eq_getElem hid

theorem getElem_modify (hid : id < timerCount) (other : Nat) (f : Counter → Counter) :
    (b.modify other f).timers[id] = if other = id then f b.timers[id] else b.timers[id] := by
  have h := b.get?_modify other id f
  rw [get?_eq_some hid, get?_eq_some hid] at h
  split at h
  · next heq => rw [if_pos heq, Option.some.inj h]
  · next hne => rw [if_neg hne, Option.some.inj h]

theorem getElem_advance (hid : id < timerCount) : b.advance.timers[id] = b.timers[id].advance := by
  simp [advance]

theorem getElem_new (hid : id < timerCount) : new.timers[id] = .stopped := by
  simp [new]

/-- A use that spares a timer leaves it as it is, unless it is a tick. -/
theorem getElem_after_of_spares (hid : id < timerCount) {use : Use} (h : use.spares id) :
    (b.after use).timers[id] =
      if use = .advance then b.timers[id].advance else b.timers[id] := by
  cases use with
  | start other =>
    have hne : other ≠ id := by simpa [Use.spares] using h
    rw [after, start, getElem_modify hid, if_neg hne, if_neg (by simp)]
  | stop other =>
    have hne : other ≠ id := by simpa [Use.spares] using h
    rw [after, stop, getElem_modify hid, if_neg hne, if_neg (by simp)]
  | setReload other value =>
    have hne : other ≠ id := by simpa [Use.spares] using h
    rw [after, setReload, getElem_modify hid, if_neg hne, if_neg (by simp)]
  | advance => rw [after, getElem_advance hid, if_pos rfl]
  | reset => cases h

theorem sound_after (hid : id < timerCount) (h : b.timers[id].Sound) (use : Use) :
    (b.after use).timers[id].Sound := by
  cases use with
  | start other =>
    rw [after, start, getElem_modify hid]
    split
    · exact ⟨h.onStep, by simp⟩
    · exact h
  | stop other =>
    rw [after, stop, getElem_modify hid]
    split
    · exact ⟨rfl, fun _ => rfl⟩
    · exact h
  | setReload other value =>
    rw [after, setReload, getElem_modify hid]
    split
    · exact ⟨h.onStep, h.stopped⟩
    · exact h
  | advance =>
    rw [after, getElem_advance hid]
    exact h.advance
  | reset =>
    rw [after, getElem_new hid]
    exact ⟨rfl, fun _ => rfl⟩

theorem sound_run (hid : id < timerCount) (uses : List Use) : (new.run uses).timers[id].Sound := by
  induction uses using List.reverseRecOn with
  | nil =>
    rw [run, List.foldl_nil, getElem_new hid]
    exact ⟨rfl, fun _ => rfl⟩
  | append_singleton uses use ih =>
    rw [run_concat]
    exact sound_after hid ih use

/-- A timer that runs from zero shows where in its period it is, whatever else is done to the bank. -/
theorem running_run (hid : id < timerCount) {reload : UInt32}
    (hstart : b.timers[id] = ⟨true, 0, reload⟩) {uses : List Use}
    (hspares : ∀ use ∈ uses, use.spares id) :
    (b.run uses).timers[id].enabled = true ∧ (b.run uses).timers[id].reload = reload ∧
      (b.run uses).timers[id].current.toNat =
        0x100 * (advances uses % Counter.period reload) := by
  induction uses using List.reverseRecOn with
  | nil => simp [run, hstart, advances]
  | append_singleton uses use ih =>
    obtain ⟨hbefore, hlast⟩ := List.forall_mem_append.1 hspares
    obtain ⟨henabled, hreload, hcurrent⟩ := ih hbefore
    rw [run_concat, advances_concat, getElem_after_of_spares hid (hlast use (by simp))]
    split
    · have hadvance := Counter.advance_of_enabled henabled
      refine ⟨by rw [hadvance, henabled], by rw [hadvance, hreload], ?_⟩
      rw [← hreload] at hcurrent ⊢
      exact Counter.toNat_current_advance henabled hcurrent
    · exact ⟨henabled, hreload, hcurrent⟩

/-- Whatever the reload value `R` of a timer is, the counts that it shows in turn are the multiples
of 0x100 up to `R`, beginning with zero, as long as nothing but the tick touches it. It comes to
run from zero with any reload value. Of any timer in a bank that was used in any way,

* the count is a multiple of 0x100, and zero if the timer is stopped,
* after a tick the count is not past the reload value if the timer runs, and as it was if the timer
  is stopped,
* nothing is changed by what is done to another timer. -/
theorem period_of_reload (hid : id < timerCount) :
    (∀ (b : Bank) (reload : UInt32) (uses : List Use), b.timers[id] = ⟨true, 0, reload⟩ →
      (∀ use ∈ uses, use.spares id) → (b.run uses).timers[id].current.toNat =
        0x100 * (advances uses % (reload.toNat / 0x100 + 1))) ∧
    (∀ (b : Bank) (reload : UInt32), b.timers[id].current = 0 →
      ((b.setReload id reload).start id).timers[id] = ⟨true, 0, reload⟩) ∧
    ∀ uses : List Use,
      let b := new.run uses
      b.timers[id].current.toNat % 0x100 = 0 ∧
      (b.timers[id].enabled = false → b.timers[id].current = 0) ∧
      (b.advance.timers[id].enabled = true →
        b.advance.timers[id].current ≤ b.advance.timers[id].reload) ∧
      (b.timers[id].enabled = false → b.advance.timers[id] = b.timers[id]) ∧
      ∀ use : Use, use ≠ .advance → use.spares id → (b.after use).timers[id] = b.timers[id] := by
  refine ⟨fun b reload uses hstart hspares => (running_run hid hstart hspares).2.2, ?_, ?_⟩
  · intro b reload hzero
    rw [start, getElem_modify hid, if_pos rfl, setReload, getElem_modify hid, if_pos rfl, hzero]
  · intro uses b
    have hsound : b.timers[id].Sound := sound_run hid uses
    refine ⟨hsound.onStep, hsound.stopped, fun hruns => ?_, fun hstopped => ?_, ?_⟩
    · rw [getElem_advance hid] at hruns ⊢
      exact Counter.current_advance_le hruns
    · rw [getElem_advance hid, Counter.advance_of_stopped hstopped]
    · intro use hne hspares
      rw [getElem_after_of_spares hid hspares, if_neg hne]

/-- The last timer, with a reload value that no count is past: all multiples of 0x100 come in turn,
the last of them after 0xFFFFFF ticks, and then zero. -/
theorem period_of_reload_full :
    let b := (new.setReload 15 0xFFFFFF80).start 15
    let uses (k : Nat) : List Use := .setReload 14 5 :: List.replicate k .advance
    b.timers[15] = ⟨true, 0, 0xFFFFFF80⟩ ∧ (∀ k, ∀ use ∈ uses k, use.spares 15) ∧
      (b.run (uses 0xFFFFFF)).timers[15].current = 0xFFFFFF00 ∧
      (b.run (uses 0x1000000)).timers[15].current = 0 := by
  intro b uses
  have hid : 15 < timerCount := by decide
  obtain ⟨hperiod, hstarted, -⟩ := period_of_reload hid
  have hstart : b.timers[15] = ⟨true, 0, 0xFFFFFF80⟩ := hstarted new 0xFFFFFF80 rfl
  have hspares (k : Nat) : ∀ use ∈ uses k, use.spares 15 := by
    simp [uses, Use.spares, List.mem_replicate]
  have hcount (k : Nat) : advances (uses k) = k := by simp [advances, uses]
  refine ⟨hstart, hspares, UInt32.toNat_inj.1 ?_, UInt32.toNat_inj.1 ?_⟩
  · rw [hperiod b _ _ hstart (hspares _), hcount]
    rfl
  · rw [hperiod b _ _ hstart (hspares _), hcount]
    rfl

end Bank

end Digic.Timer
