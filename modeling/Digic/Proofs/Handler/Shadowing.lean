import Digic.Proofs.Handler.Windows
/-!
# Handlers that are covered

A handler is covered if its whole range lies within that of a single earlier one. The check of a table
finds the first handler that is covered, with the first one that covers it. Two handlers of which
the later one is not covered by the other can be told apart by an address.
-/
namespace Digic.Handler

/-- Handler `i` of a table comes before handler `j` and contains its whole range. -/
def Covers (table : List Entry) (i j : Nat) : Prop :=
  i < j ∧ ∃ earlier later : Entry, table[i]? = some earlier ∧ table[j]? = some later ∧
    earlier.low ≤ later.low ∧ later.high ≤ earlier.high

/-- Handler `j` is the first that an earlier one covers, and handler `i` the first that does. -/
structure FirstCovered (table : List Entry) (i j : Nat) : Prop where
  covers : Covers table i j
  later : ∀ i' j', Covers table i' j' → j ≤ j'
  earlier : ∀ i', Covers table i' j → i ≤ i'

/-- Handler `i` is the first one of a table that an address lies in. -/
structure FirstHolds (table : List Entry) (addr : UInt32) (i : Nat) (h : Entry) : Prop where
  entry : table[i]? = some h
  holds : h.low ≤ addr ∧ addr ≤ h.high
  first : ∀ (j : Nat) (other : Entry), j < i → table[j]? = some other →
    ¬ (other.low ≤ addr ∧ addr ≤ other.high)

/-- What may come of checking a table: no handler is covered, or the first one that is. -/
inductive Checked (table : List Entry) : Option (Entry × Entry) → Prop where
  | clear (h : ∀ i j, ¬ Covers table i j) : Checked table none
  | covered {i j : Nat} {earlier later : Entry} (h : FirstCovered table i j)
      (hi : table[i]? = some earlier) (hj : table[j]? = some later) :
      Checked table (some (earlier, later))

theorem Entry.shadowedBy_iff {h earlier : Entry} :
    h.shadowedBy earlier = true ↔ earlier.low ≤ h.low ∧ h.high ≤ earlier.high := by
  simp [shadowedBy]

/-- A range that does not lie within another one has one of its ends outside of it. -/
theorem Entry.exists_outside {h earlier : Entry} (hrange : h.low ≤ h.high)
    (hnot : ¬ (earlier.low ≤ h.low ∧ h.high ≤ earlier.high)) :
    ∃ addr, (h.low ≤ addr ∧ addr ≤ h.high) ∧ ¬ (earlier.low ≤ addr ∧ addr ≤ earlier.high) := by
  rcases Decidable.not_and_iff_or_not.1 hnot with hlow | hhigh
  · exact ⟨h.low, ⟨UInt32.le_refl _, hrange⟩, fun houtside => hlow houtside.1⟩
  · exact ⟨h.high, ⟨hrange, UInt32.le_refl _⟩, fun houtside => hhigh houtside.2⟩

theorem lt_length_of_covers {table : List Entry} {i j : Nat} (h : Covers table i j) :
    j < table.length := by
  obtain ⟨-, earlier, later, -, hj, -⟩ := h
  exact (List.getElem?_eq_some_iff.1 hj).1

/-- A handler is covered by those of the handlers before it that shadow it. -/
theorem covers_length_iff {seen rest : List Entry} {h : Entry} {i : Nat} :
    Covers (seen ++ h :: rest) i seen.length ↔
      ∃ hi : i < seen.length, h.shadowedBy seen[i] = true := by
  have hlast : (seen ++ h :: rest)[seen.length]? = some h := by simp
  constructor
  · rintro ⟨hi, earlier, later, hearlier, hlater, hwithin⟩
    rw [List.getElem?_append_left hi, List.getElem?_eq_getElem hi] at hearlier
    obtain rfl : seen[i] = earlier := Option.some.inj hearlier
    obtain rfl : h = later := Option.some.inj (hlast.symm.trans hlater)
    exact ⟨hi, Entry.shadowedBy_iff.2 hwithin⟩
  · rintro ⟨hi, hshadowed⟩
    have hearlier : (seen ++ h :: rest)[i]? = some seen[i] := by
      rw [List.getElem?_append_left hi, List.getElem?_eq_getElem hi]
    exact ⟨hi, seen[i], h, hearlier, hlast, Entry.shadowedBy_iff.1 hshadowed⟩

/-- The handlers are taken one after the other, each against those that were seen before it. -/
theorem checked_firstShadowed? {seen rest : List Entry}
    (hseen : ∀ i j, j < seen.length → ¬ Covers (seen ++ rest) i j) :
    Checked (seen ++ rest) (firstShadowed? seen rest) := by
  induction rest generalizing seen with
  | nil =>
    refine .clear fun i j hcovers => hseen i j ?_ hcovers
    simpa using lt_length_of_covers hcovers
  | cons h rest ih =>
    have hlater (i j : Nat) (hcovers : Covers (seen ++ h :: rest) i j) : seen.length ≤ j :=
      Nat.le_of_not_lt fun hj => hseen i j hj hcovers
    rw [firstShadowed?]
    cases hfind : seen.find? h.shadowedBy with
    | some earlier =>
      obtain ⟨hshadowed, i, hi, rfl, hbefore⟩ := List.find?_eq_some_iff_getElem.1 hfind
      have hcovers : Covers (seen ++ h :: rest) i seen.length :=
        covers_length_iff.2 ⟨hi, hshadowed⟩
      refine .covered ⟨hcovers, hlater, fun i' hcovers' => ?_⟩ ?_ (by simp)
      · obtain ⟨hi', hshadowed'⟩ := covers_length_iff.1 hcovers'
        refine Nat.le_of_not_lt fun hlt => ?_
        simpa [hshadowed'] using hbefore i' hlt
      · rw [List.getElem?_append_left hi, List.getElem?_eq_getElem hi]
    | none =>
      have hnone := List.find?_eq_none.1 hfind
      have happend : seen ++ h :: rest = seen ++ [h] ++ rest := by simp
      dsimp only
      rw [happend]
      refine ih fun i j hj hcovers => ?_
      rw [← happend] at hcovers
      have hle := hlater i j hcovers
      obtain rfl : j = seen.length := by
        rw [List.length_append, List.length_singleton] at hj
        omega
      obtain ⟨hi, hshadowed⟩ := covers_length_iff.1 hcovers
      exact hnone seen[i] (List.getElem_mem hi) hshadowed

theorem find?_eq_some_iff_firstHolds {table : List Entry} {addr : UInt32} {h : Entry} :
    find? table addr = some h ↔ ∃ i, FirstHolds table addr i h := by
  rw [find?, List.find?_eq_some_iff_getElem]
  constructor
  · rintro ⟨hcontains, i, hi, rfl, hbefore⟩
    refine ⟨i, List.getElem?_eq_getElem hi, Entry.contains_iff.1 hcontains, ?_⟩
    intro j other hj hother hholds
    obtain ⟨hlength, rfl⟩ := List.getElem?_eq_some_iff.1 hother
    simpa [Entry.contains_iff.2 hholds] using hbefore j hj
  · rintro ⟨i, hentry, hholds, hfirst⟩
    obtain ⟨hi, rfl⟩ := List.getElem?_eq_some_iff.1 hentry
    refine ⟨Entry.contains_iff.2 hholds, i, hi, rfl, fun j hj => ?_⟩
    have hother := hfirst j _ hj (List.getElem?_eq_getElem (Nat.lt_trans hj hi))
    rw [Bool.not_eq_true', Bool.eq_false_iff]
    exact fun hcontains => hother (Entry.contains_iff.1 hcontains)

end Digic.Handler
