import Digic.Proofs.Machine.Devices
/-!
# What register files and ticks deliver

Only the registers of the interrupt controller take something out of service. An access of any other
register file, and a tick, deliver one line to a free processor or none.
-/
namespace Digic

open Bus

/-- The model names no interrupt zero where an interrupt is asked for unseen. -/
structure Model.InterruptsNonzero (m : Model) : Prop where
  timer : m.timerInterrupt ≠ 0
  hptimer : m.hptimerInterrupt ≠ 0
  cfDriver : m.cfDriverInterrupt ≠ 0
  cfDma : m.cfDmaInterrupt ≠ 0

instance (m : Model) : Decidable m.InterruptsNonzero :=
  decidable_of_iff
    (m.timerInterrupt ≠ 0 ∧ m.hptimerInterrupt ≠ 0 ∧ m.cfDriverInterrupt ≠ 0 ∧
      m.cfDmaInterrupt ≠ 0)
    ⟨fun ⟨ht, hh, hd, hm⟩ => ⟨ht, hh, hd, hm⟩, fun ⟨ht, hh, hd, hm⟩ => ⟨ht, hh, hd, hm⟩⟩

namespace Machine

variable {κ δ : Type}

theorem delivers_noteUnclaimed (s : Machine κ δ) (addr : UInt32) (direction : Log.Direction)
    (value : UInt32) : s.Delivers (s.noteUnclaimed addr direction value) := by
  unfold noteUnclaimed
  dsimp only
  split
  · exact .of_service_eq (model_tell _ _) (handlers_tell _ _)
      (service_tell_of_event?_eq_none _ rfl)
  · exact .of_service_eq rfl rfl rfl

/-- A register file delivers one line at most, by what it asks for. -/
theorem Acts.delivers {α : Type} {m : Model} (htimer : m.timerInterrupt ≠ 0) {d : Handler.Device}
    {a : EStateM Fault (Machine κ δ) α} {s : Machine κ δ} (h : Acts m d a s) :
    s.Delivers (stateAfter a s) := by
  obtain ⟨effects, t, hplain, hspares, -, hafter⟩ := h
  have hservice : t.service = s.service := by
    rw [service, service, events, events, hspares.interrupts, hspares.line, hspares.raises,
      hspares.journal]
  rw [hafter]
  exact (Delivers.of_service_eq hspares.model hspares.handlers hservice).trans
    (delivers_foldl_absorb t htimer hplain)

theorem delivers_readDevice [Cf.AtaDrive δ] {d : Handler.Device} (hd : d ≠ .interrupts)
    (w : Handler.Window) (addr : UInt32) (s : Machine κ δ) :
    s.Delivers (stateAfter (readDevice d w addr) s) :=
  -- A read asks for nothing, so that any model will do.
  (acts_readDevice .standard hd w addr s).delivers (by decide)

theorem delivers_writeDevice [Sd.SdCard κ] [Cf.AtaDrive δ] {d : Handler.Device}
    (hd : d ≠ .interrupts) (w : Handler.Window) (addr value : UInt32) {s : Machine κ δ}
    (hnonzero : s.model.InterruptsNonzero) :
    s.Delivers (stateAfter (writeDevice d w addr value) s) :=
  (acts_writeDevice hd w addr value s).delivers hnonzero.timer

theorem delivers_advanceTime (s : Machine κ δ) : s.Delivers s.advanceTime := by
  have htakes := s.interrupts.takes_pass s.model.timerInterrupt
    (s.time.advance.timers.reload s.model.osTimer >>> 8)
  rw [advanceTime]
  generalize s.interrupts.pass s.model.timerInterrupt
    (s.time.advance.timers.reload s.model.osTimer >>> 8) = result at htakes ⊢
  exact .of_takes rfl rfl rfl rfl htakes

theorem delivers_matchChannels {s : Machine κ δ} (hnonzero : s.model.InterruptsNonzero) :
    s.Delivers s.matchChannels := by
  have hlatch : s.Delivers { s with time := s.time.latch } := .of_service_eq rfl rfl rfl
  unfold matchChannels
  dsimp only
  split
  · exact hlatch.trans (delivers_request _ hnonzero.hptimer 0)
  · exact hlatch

theorem delivers_passCf [Cf.AtaDrive δ] {s : Machine κ δ} (hnonzero : s.model.InterruptsNonzero) :
    s.Delivers (stateAfter passCf s) := by
  have htransfers : s.Delivers (stateAfter (actCfBench (Cf.pass s.model)) s) :=
    (acts_transfers s.model s.model s).delivers hnonzero.timer
  obtain ⟨ids, hids, hafter⟩ := s.exists_passCf
  rw [hafter]
  refine htransfers.trans (delivers_foldl_request _ fun id hid => ?_)
  rcases hids id hid with rfl | rfl
  · exact hnonzero.cfDriver
  · exact hnonzero.cfDma

/-- A tick delivers one line at most, whichever of its parts asks for it. -/
theorem delivers_tick [Cf.AtaDrive δ] {s : Machine κ δ} (hnonzero : s.model.InterruptsNonzero) :
    s.Delivers (stateAfter tick s) := by
  by_cases hhalted : s.cpu.halted
  · rw [tick, stateAfter_get_bind, if_pos hhalted]
    exact .refl s
  · have htime : s.Delivers s.advanceTime := s.delivers_advanceTime
    have hchannels : s.advanceTime.Delivers s.advanceTime.matchChannels := by
      apply delivers_matchChannels
      rwa [htime.model]
    have hboth : s.Delivers s.advanceTime.matchChannels := htime.trans hchannels
    have hcf : s.advanceTime.matchChannels.Delivers
        (stateAfter passCf s.advanceTime.matchChannels) := by
      apply delivers_passCf
      rwa [hboth.model]
    rw [tick, stateAfter_get_bind, if_neg hhalted, stateAfter_modify_bind]
    exact hboth.trans hcf

end Machine

end Digic
