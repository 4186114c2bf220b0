import Digic.Text.Utf8
/-!
# Reading bytes line by line

A byte that is a character by itself ends whatever character is unfinished before it. So text can be
cut behind a line break, whatever the bytes on either side are, and its parts read by themselves.
-/
namespace Digic.Text.Utf8

/-- No byte that is a character by itself goes on with an unfinished one. -/
def State.Sound : State → Prop
  | .start => True
  | .inside _ low _ _ => 0x80 ≤ low

theorem sound_lead (b : UInt8) : (lead b).1.Sound := by
  unfold lead
  repeat' split
  all_goals simp [State.Sound]

theorem State.Sound.step {s : State} (h : s.Sound) (b : UInt8) : (Utf8.step s b).1.Sound := by
  unfold Utf8.step
  split
  · exact sound_lead b
  · split
    · split
      · trivial
      · simp [Sound]
    · exact sound_lead _

/-- A byte that is a character by itself is read as one, after what stands unfinished. -/
theorem step_ascii {s : State} (h : s.Sound) {b : UInt8} (hb : b < 0x80) :
    step s b = (.start, finish s ++ [Char.ofNat b.toNat]) := by
  have hlead : lead b = (.start, [Char.ofNat b.toNat]) := by rw [lead, if_pos hb]
  cases s with
  | start => exact hlead
  | inside more low high bits =>
    have hlow : ¬ (low ≤ b ∧ b ≤ high) := by
      intro hrange
      have hcontra : (0x80 : UInt8) ≤ b := UInt8.le_trans h hrange.1
      exact absurd hb (UInt8.not_lt.2 hcontra)
    rw [step, if_neg hlow, hlead]
    rfl

theorem decodeFrom_cons (s : State) (b : UInt8) (bytes : List UInt8) :
    decodeFrom s (b :: bytes) = (step s b).2 ++ decodeFrom (step s b).1 bytes := rfl

/-- The text can be cut before a byte that is a character by itself. -/
theorem decodeFrom_append_ascii {s : State} (h : s.Sound) {b : UInt8} (hb : b < 0x80)
    (bytes rest : List UInt8) :
    decodeFrom s (bytes ++ b :: rest) =
      decodeFrom s bytes ++ Char.ofNat b.toNat :: decodeFrom .start rest := by
  induction bytes generalizing s with
  | nil =>
    rw [List.nil_append, decodeFrom_cons, step_ascii h hb, decodeFrom]
    simp
  | cons first bytes ih =>
    rw [List.cons_append, decodeFrom_cons, ih (h.step first), decodeFrom_cons, List.append_assoc]

theorem decode_append_newline (bytes rest : List UInt8) :
    decode (bytes ++ 10 :: rest) = decode bytes ++ "\n" ++ decode rest := by
  have hsound : State.start.Sound := trivial
  have hascii : (10 : UInt8) < 0x80 := by decide
  have hnewline : String.ofList [Char.ofNat (10 : UInt8).toNat] = "\n" := rfl
  rw [decode, decodeFrom_append_ascii hsound hascii, ← List.singleton_append, String.ofList_append,
    String.ofList_append, hnewline, String.append_assoc, decode, decode]

/-- Lines can be read one by one. -/
theorem decode_lines (lines : List (List UInt8)) (rest : List UInt8) :
    decode (lines.flatMap (· ++ [10]) ++ rest) =
      String.join (lines.map (decode · ++ "\n")) ++ decode rest := by
  induction lines with
  | nil => simp [String.join]
  | cons line lines ih =>
    rw [List.flatMap_cons, List.append_assoc, List.append_assoc, List.singleton_append,
      decode_append_newline, ih, List.map_cons, String.join_cons]
    simp only [String.append_assoc]

end Digic.Text.Utf8
