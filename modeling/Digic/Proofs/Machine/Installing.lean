import Digic.Proofs.Handler.Shadowing
import Digic.Proofs.Machine.Reachable
/-!
# Installing a handler table

A table is refused if one of its handlers lies within a single earlier one. The error names the
first such handler and the first that it lies within, and the old table stays in force. In a table
that is installed, an address belongs to the first handler that it lies in.
-/
namespace Digic.Machine

open Handler

variable {κ δ : Type}

/-- What may come of installing a table, with the machine afterwards: it is refused for the first
handler that is covered, or it is in force and nothing else is changed. -/
inductive Installs (s : Machine κ δ) (table : List Entry) :
    Machine κ δ × Except ConfigError Unit → Prop where
  | refused {i j : Nat} {earlier later : Entry} (h : FirstCovered table i j)
      (hi : table[i]? = some earlier) (hj : table[j]? = some later) :
      Installs s table
        (s, .error (.overlappingHandlers earlier.toNamedRange later.toNamedRange))
  | installed (h : ∀ i j, ¬ Covers table i j) :
      Installs s table ({ s with handlers := table }, .ok ())

theorem installs_setHandlers (s : Machine κ δ) (table : List Entry) :
    s.Installs table (s.setHandlers table) := by
  have hnone (i j : Nat) (hj : j < ([] : List Entry).length) : ¬ Covers ([] ++ table) i j :=
    absurd hj (Nat.not_lt_zero j)
  have hchecked : Checked table (firstShadowed? [] table) := checked_firstShadowed? hnone
  rw [setHandlers, check]
  generalize firstShadowed? [] table = found at hchecked ⊢
  cases hchecked with
  | clear h => exact .installed h
  | covered h hi hj => exact .refused h hi hj

/-- Machine and table may be any.

* The table is installed exactly if no handler of it lies within the range of a single earlier one.
* Otherwise the machine is as it was, and the error names the first handler that lies within an
  earlier one, and the first that it lies within.
* Once a table is installed, an address belongs to the first handler that it lies in, and of two
  handlers the later one has an address that is not in the earlier one, unless it has none at all. -/
theorem table_checked_exactly (s : Machine κ δ) (table : List Entry) :
    let t := (s.setHandlers table).1
    let result := (s.setHandlers table).2
    (result = .ok () ↔ ∀ i j, ¬ Covers table i j) ∧
    (∀ e, result = .error e → t = s ∧
      ∃ (i j : Nat) (earlier later : Entry), FirstCovered table i j ∧
        table[i]? = some earlier ∧ table[j]? = some later ∧
        e = .overlappingHandlers earlier.toNamedRange later.toNamedRange) ∧
    (result = .ok () → t = { s with handlers := table } ∧
      (∀ addr h, find? t.handlers addr = some h ↔ ∃ i, FirstHolds table addr i h) ∧
      ∀ (i j : Nat) (earlier later : Entry), i < j → table[i]? = some earlier →
        table[j]? = some later → later.low ≤ later.high →
        ∃ addr, (later.low ≤ addr ∧ addr ≤ later.high) ∧
          ¬ (earlier.low ≤ addr ∧ addr ≤ earlier.high)) := by
  have hinstalls := s.installs_setHandlers table
  generalize s.setHandlers table = installed at hinstalls ⊢
  cases hinstalls with
  | refused h hi hj =>
    refine ⟨iff_of_false (by simp) fun hnone => hnone _ _ h.covers, ?_, by simp⟩
    rintro e he
    cases he
    exact ⟨rfl, _, _, _, _, h, hi, hj, rfl⟩
  | installed h =>
    refine ⟨iff_of_true rfl h, by simp, fun _ => ?_⟩
    refine ⟨rfl, fun addr h => find?_eq_some_iff_firstHolds, ?_⟩
    intro i j earlier later hij hi hj hrange
    exact Entry.exists_outside hrange fun hwithin => h i j ⟨hij, _, _, hi, hj, hwithin⟩

/-- The fourth handler is the first that lies within an earlier one, and of the two that contain it
the first is named. The third handler of the other table is installed, although no address is left
for it: it lies within the first two together, and within neither of them. -/
theorem table_checked_exactly_nested :
    let s : Machine Empty Empty := ofModel .standard
    let entry (name : String) (low high : UInt32) : Entry := ⟨⟨name, low, high⟩, .power, 0⟩
    let nested := [entry "A" 0x10 0x1F, entry "B" 0 8, entry "C" 0 0xFFFFFFFF,
      entry "D" 0x10 0x1F, entry "E" 2 3]
    let joined := [entry "A" 0 0xF, entry "B" 0x10 0x1F, entry "C" 8 0x17]
    s.setHandlers nested =
        (s, .error (.overlappingHandlers ⟨"A", 0x10, 0x1F⟩ ⟨"D", 0x10, 0x1F⟩)) ∧
      s.setHandlers joined = ({ s with handlers := joined }, .ok ()) ∧
      (∃ addr : UInt32, (8 ≤ addr ∧ addr ≤ 0x17) ∧ ¬ (0 ≤ addr ∧ addr ≤ 0xF)) ∧
      ∃ addr : UInt32, (8 ≤ addr ∧ addr ≤ 0x17) ∧ ¬ (0x10 ≤ addr ∧ addr ≤ 0x1F) := by
  intro s entry nested joined
  obtain ⟨-, hrefused, -⟩ := table_checked_exactly s nested
  obtain ⟨-, -, hinstalled⟩ := table_checked_exactly s joined
  have hnested : (s.setHandlers nested).2 =
      .error (.overlappingHandlers ⟨"A", 0x10, 0x1F⟩ ⟨"D", 0x10, 0x1F⟩) := rfl
  have hjoined : (s.setHandlers joined).2 = .ok () := rfl
  obtain ⟨htable, -, hclaims⟩ := hinstalled hjoined
  have hrange : (8 : UInt32) ≤ 0x17 := by decide
  exact ⟨Prod.ext (hrefused _ hnested).1 hnested, Prod.ext htable hjoined,
    hclaims 0 2 _ _ (by decide) rfl rfl hrange, hclaims 1 2 _ _ (by decide) rfl rfl hrange⟩

end Digic.Machine
