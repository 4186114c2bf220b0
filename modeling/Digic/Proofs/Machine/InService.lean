import Digic.Proofs.Machine.Run
/-!
# The line in service and the processor's interrupt line

The processor's line is high while something is in service, and it is raised only to take something
into service. It goes low with the service, except that the reset register drops the service alone.
-/
namespace Digic

open Interrupt

namespace Service

/-- What is in service exists, and the processor knows of it. -/
structure Sound (v : Service) : Prop where
  exists_line : v.active.toNat < lineCount
  high : v.active ≠ 0 → v.line = true

variable {v w : Service} {role : Machine.Role}

theorem sound_of_active_eq_zero {v : Service} (h : v.active = 0) : v.Sound :=
  ⟨h ▸ by decide, fun hbusy => absurd h hbusy⟩

theorem Moves.sound (h : v.Moves role w) (hv : v.Sound) : w.Sound := by
  cases h with
  | acknowledges factor => exact sound_of_active_eq_zero rfl
  | drops hbusy hmem => exact sound_of_active_eq_zero rfl
  | spares hfree => exact hv
  | dismisses => exact sound_of_active_eq_zero rfl
  | delivers hdelivers =>
    cases hdelivers with
    | nothing => exact hv
    | line id hfree hne hlt => exact ⟨hlt, fun _ => rfl⟩

/-- Only the reset register lets the line stay high without a service. -/
theorem Moves.high_iff (h : v.Moves role w) (hrole : role ≠ .resets)
    (hv : v.line = true ↔ v.active ≠ 0) : w.line = true ↔ w.active ≠ 0 := by
  cases h with
  | acknowledges factor => simp [release]
  | drops hbusy hmem => simp [release]
  | spares hfree => exact hv
  | dismisses => exact absurd rfl hrole
  | delivers hdelivers =>
    cases hdelivers with
    | nothing => exact hv
    | line id hfree hne hlt => simp [deliver, hne]

/-- The line is raised to take one line into service, and for nothing else. -/
theorem Moves.raises (h : v.Moves role w) :
    w.raises = v.raises ∨ w.raises = v.raises + 1 ∧ v.active = 0 ∧ w.active ≠ 0 := by
  cases h with
  | acknowledges factor => exact .inl rfl
  | drops hbusy hmem => exact .inl rfl
  | spares hfree => exact .inl rfl
  | dismisses => exact .inl rfl
  | delivers hdelivers =>
    cases hdelivers with
    | nothing => exact .inl rfl
    | line id hfree hne hlt => exact .inr ⟨rfl, hfree, hne⟩

end Service

namespace Machine

variable {κ δ : Type} [Sd.SdCard κ] [Cf.AtaDrive δ]

theorem active?_eq_some_iff {c : Controller} {id : UInt32} :
    c.active? = some id ↔ c.active = id ∧ id ≠ 0 := by
  rw [Controller.active?]
  split
  case isTrue h =>
    constructor
    · intro hnone
      cases hnone
    · rintro ⟨rfl, hne⟩
      exact absurd h hne
  case isFalse h =>
    constructor
    · intro hsome
      cases hsome
      exact ⟨rfl, h⟩
    · rintro ⟨rfl, -⟩
      rfl

theorem active?_isSome_iff {c : Controller} : c.active?.isSome ↔ c.active ≠ 0 := by
  rw [Controller.active?]
  split <;> simp [*]

/-- On whatever run of a new machine, what is in service is one of the lines from 1 on, and the
processor's line is high. The next step raises it only if nothing is in service, and then something
is. Unless firmware wrote to the reset register, the line is low when nothing is in service. -/
theorem line_follows_service {m : Model} (hnonzero : m.InterruptsNonzero) {s₀ : Machine κ δ}
    (hnew : assemble m = .ok s₀) {steps : List (Step κ δ)} (hproper : ∀ st ∈ steps, st.Proper) :
    let s := s₀.run steps
    (∀ id, s.interrupts.active? = some id → 1 ≤ id ∧ id ≤ 0x1FF ∧ s.cpu.line = true) ∧
      (∀ st : Step κ δ, st.Proper → (s.step st).cpu.raises = s.cpu.raises ∨
        (s.step st).cpu.raises = s.cpu.raises + 1 ∧ s.interrupts.active? = none ∧
          ∃ id, (s.step st).interrupts.active? = some id) ∧
      ((∀ st ∈ steps, st.role Handler.standardTable ≠ .resets) →
        (s.cpu.line = true ↔ s.interrupts.active?.isSome)) := by
  intro s
  obtain ⟨hmodel, hhandlers, hservice⟩ := of_assemble hnew
  have hnonzero₀ : s₀.model.InterruptsNonzero := hmodel ▸ hnonzero
  refine ⟨?_, ?_, ?_⟩
  · intro id hid
    have hsound : s.service.Sound := run_preserves hnonzero₀ hproper
      (fun _ _ _ _ hmoves => hmoves.sound) (hservice ▸ Service.sound_of_active_eq_zero rfl)
    obtain ⟨rfl, hne⟩ := active?_eq_some_iff.1 hid
    have hlt : s.interrupts.active.toNat < 512 := hsound.exists_line
    have hpos : s.interrupts.active.toNat ≠ 0 := fun h => hne (UInt32.toNat_inj.1 h)
    refine ⟨?_, ?_, hsound.high hne⟩
    · rw [UInt32.le_iff_toNat_le, UInt32.toNat_one]
      omega
    · rw [UInt32.le_iff_toNat_le, show (0x1FF : UInt32).toNat = 511 from rfl]
      omega
  · intro st hst
    obtain ⟨hfixed, -⟩ := run_fixed hnonzero₀ hproper
    have hmoves := moves_step (s := s) (hfixed ▸ hnonzero₀) hst
    rcases hmoves.service.raises with h | ⟨h, hfree, hbusy⟩
    · exact .inl h
    · refine .inr ⟨h, ?_, _, active?_eq_some_iff.2 ⟨rfl, hbusy⟩⟩
      exact if_pos hfree
  · intro hroles
    have hhigh : s.service.line = true ↔ s.service.active ≠ 0 := run_preserves hnonzero₀ hproper
      (fun st hst v w hmoves => hmoves.high_iff (hhandlers ▸ hroles st hst))
      (hservice ▸ by decide)
    rw [active?_isSome_iff]
    exact hhigh

/-- A line that was enabled is taken into service at once, and the processor's line goes high. -/
theorem line_follows_service_delivered :
    let s₀ : Machine Empty Empty := (ofModel .standard).tell
      (.assembled "DIGIC5" 5 0x01000000 0x00800000)
    let steps : List (Step Empty Empty) :=
      [.access 0xC0201010 .write 0x33, .request 0x33 0]
    Model.standard.InterruptsNonzero ∧ assemble .standard = .ok s₀ ∧
      (∀ st ∈ steps, st.Proper) ∧ (s₀.run steps).interrupts.active? = some 0x33 ∧
      (s₀.run steps).cpu.line = true := by
  intro s₀ steps
  have hnonzero : Model.standard.InterruptsNonzero := by decide
  have hnew : assemble .standard = .ok s₀ := rfl
  have hproper : ∀ st ∈ steps, st.Proper := by simp [steps, Step.Proper]
  have hactive : (s₀.run steps).interrupts.active? = some 0x33 := by decide +kernel
  exact ⟨hnonzero, hnew, hproper, hactive,
    ((line_follows_service hnonzero hnew hproper).1 0x33 hactive).2.2⟩

end Machine

end Digic
