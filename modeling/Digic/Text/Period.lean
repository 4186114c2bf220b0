import Digic.Text.Hex
/-!
# Text of a period of time

A period is written in the largest unit of which it holds at least one, with as many decimals as
it takes and no more.
-/
namespace Digic.Text

/-- The decimals of `rest / 10 ^ digits` behind a point, without trailing zeros; nothing for
zero. -/
def decimals (digits rest : Nat) : String :=
  if rest = 0 then ""
  else
    let padded := (decimalAtLeast digits rest).toList
    "." ++ String.ofList (padded.reverse.dropWhile (· == '0')).reverse

/-- A period given in microseconds. -/
def period (micros : Nat) : String :=
  if 1000000 ≤ micros then s!"{micros / 1000000}{decimals 6 (micros % 1000000)}s"
  else if 1000 ≤ micros then s!"{micros / 1000}{decimals 3 (micros % 1000)}ms"
  else s!"{micros}µs"

end Digic.Text
