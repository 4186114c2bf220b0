import Mathlib.Data.List.Induction
/-!
# Flags

Some steps raise a flag, others clear it, and the rest leave it alone. What a step does may depend
on the steps before it. Whether the flag is up is then told by the last step that raised it.
-/
namespace Digic.Bus

variable {α : Type} {raises clears : List α → α → Prop}

/-- Among steps, there is a last one that raises a flag, and none after it clears the flag. -/
def RaisedLast (raises clears : List α → α → Prop) (steps : List α) : Prop :=
  ∃ before step after, steps = before ++ step :: after ∧ raises before step ∧
    ∀ between next rest, after = between ++ next :: rest →
      ¬ raises (before ++ step :: between) next ∧ ¬ clears (before ++ step :: between) next

theorem not_raisedLast_nil : ¬ RaisedLast raises clears [] := by
  rintro ⟨before, step, after, hsteps, -⟩
  simp at hsteps

theorem RaisedLast.of_raises {steps : List α} {step : α} (h : raises steps step) :
    RaisedLast raises clears (steps ++ [step]) :=
  ⟨steps, step, [], rfl, h, by simp⟩

theorem RaisedLast.concat {steps : List α} (h : RaisedLast raises clears steps) {step : α}
    (hraises : ¬ raises steps step) (hclears : ¬ clears steps step) :
    RaisedLast raises clears (steps ++ [step]) := by
  obtain ⟨before, first, after, hsteps, hfirst, hafter⟩ := h
  refine ⟨before, first, after ++ [step], by simp [hsteps], hfirst, ?_⟩
  intro between next rest hrest
  rcases List.eq_nil_or_concat rest with rfl | ⟨rest, last, rfl⟩
  · obtain ⟨rfl, hnext⟩ := List.append_inj' hrest rfl
    obtain rfl : step = next := by simpa using hnext
    exact ⟨hsteps ▸ hraises, hsteps ▸ hclears⟩
  · have hsplit : after ++ [step] = (between ++ next :: rest) ++ [last] := by simpa using hrest
    exact hafter between next rest (List.append_inj' hsplit rfl).1

theorem raisedLast_concat {steps : List α} {step : α} :
    RaisedLast raises clears (steps ++ [step]) ↔
      raises steps step ∨ RaisedLast raises clears steps ∧ ¬ clears steps step := by
  constructor
  · rintro ⟨before, first, after, hsteps, hfirst, hafter⟩
    rcases List.eq_nil_or_concat after with rfl | ⟨after, last, rfl⟩
    · obtain ⟨rfl, hstep⟩ := List.append_inj' hsteps rfl
      obtain rfl : step = first := by simpa using hstep
      exact .inl hfirst
    · have hsplit : steps ++ [step] = (before ++ first :: after) ++ [last] := by
        simpa using hsteps
      obtain ⟨rfl, hlast⟩ := List.append_inj' hsplit rfl
      obtain rfl : step = last := by simpa using hlast
      refine .inr ⟨⟨before, first, after, rfl, hfirst, ?_⟩, (hafter after step [] (by simp)).2⟩
      rintro between next rest rfl
      exact hafter between next (rest ++ [step]) (by simp)
  · rintro (hraises | ⟨h, hclears⟩)
    · exact .of_raises hraises
    · by_cases hraises : raises steps step
      · exact .of_raises hraises
      · exact h.concat hraises hclears

/-- Where a step alone tells what it does, a flag is up if it was raised and not cleared since. -/
theorem raisedLast_iff_exists {raises clears : α → Prop} {steps : List α} :
    RaisedLast (fun _ => raises) (fun _ => clears) steps ↔
      ∃ before step after, steps = before ++ step :: after ∧ raises step ∧
        ∀ next ∈ after, ¬ clears next := by
  constructor
  · rintro ⟨before, step, after, hsteps, hraises, hafter⟩
    refine ⟨before, step, after, hsteps, hraises, fun next hnext => ?_⟩
    obtain ⟨between, rest, hsplit⟩ := List.append_of_mem hnext
    exact (hafter between next rest hsplit).2
  · rintro ⟨before, step, after, rfl, hraises, hafter⟩
    induction after using List.reverseRecOn with
    | nil => exact .of_raises hraises
    | append_singleton after last ih =>
      have hearlier : ∀ next ∈ after, ¬ clears next :=
        fun next hnext => hafter next (List.mem_append_left _ hnext)
      rw [← List.cons_append, ← List.append_assoc, raisedLast_concat]
      exact .inr ⟨ih hearlier, hafter last (by simp)⟩

/-- A flag that is down at first, and that each step raises, clears or leaves as it is. -/
theorem up_iff_raisedLast (up : List α → Prop) {steps : List α} (hnil : ¬ up [])
    (hstep : ∀ before step, before ++ [step] <+: steps →
      (up (before ++ [step]) ↔ raises before step ∨ up before ∧ ¬ clears before step)) :
    up steps ↔ RaisedLast raises clears steps := by
  induction steps using List.reverseRecOn with
  | nil => exact iff_of_false hnil not_raisedLast_nil
  | append_singleton steps step ih =>
    have hshorter := List.prefix_append steps [step]
    rw [hstep steps step List.prefix_rfl, raisedLast_concat,
      ih fun before next h => hstep before next (h.trans hshorter)]

end Digic.Bus
