/-!
# Reading bytes as UTF-8, come what may

Console output is whatever bytes firmware transmits. They are read as UTF-8 by an automaton that
holds at most one unfinished character. Ill-formed input loses nothing but itself: each maximal
part that could have begun a character and was not continued is read as one U+FFFD.
-/
namespace Digic.Text.Utf8

def replacement : Char := Char.ofNat 0xFFFD

inductive State where
  /-- At the beginning of a character. -/
  | start
  /-- Inside one: `more + 1` bytes are missing, the next of them from `low` to `high`, and `bits`
  are the bits of the code point read so far. -/
  | inside (more : Nat) (low high : UInt8) (bits : Nat)
  deriving DecidableEq, Repr

/-- Reads a byte at the beginning of a character. The range of a second byte is narrower behind
some lead bytes, which keeps out overlong forms, surrogates and what lies past U+10FFFF. -/
def lead (b : UInt8) : State × List Char :=
  if b < 0x80 then (.start, [Char.ofNat b.toNat])
  else if b < 0xC2 then (.start, [replacement])
  else if b < 0xE0 then (.inside 0 0x80 0xBF (b.toNat % 0x20), [])
  else if b = 0xE0 then (.inside 1 0xA0 0xBF 0, [])
  else if b = 0xED then (.inside 1 0x80 0x9F 0xD, [])
  else if b < 0xF0 then (.inside 1 0x80 0xBF (b.toNat % 0x10), [])
  else if b = 0xF0 then (.inside 2 0x90 0xBF 0, [])
  else if b < 0xF4 then (.inside 2 0x80 0xBF (b.toNat % 8), [])
  else if b = 0xF4 then (.inside 2 0x80 0x8F 4, [])
  else (.start, [replacement])

/-- Reads one byte. A byte that cannot go on with an unfinished character ends it and is read
afresh. -/
def step : State → UInt8 → State × List Char
  | .start, b => lead b
  | .inside more low high bits, b =>
    if low ≤ b ∧ b ≤ high then
      let bits := bits * 0x40 + b.toNat % 0x40
      match more with
      | 0 => (.start, [Char.ofNat bits])
      | more + 1 => (.inside more 0x80 0xBF bits, [])
    else
      let (next, text) := lead b
      (next, replacement :: text)

/-- What an unfinished character reads as when the input ends. -/
def finish : State → List Char
  | .start => []
  | .inside .. => [replacement]

def decodeFrom (s : State) : List UInt8 → List Char
  | [] => finish s
  | b :: bytes =>
    let (next, text) := step s b
    text ++ decodeFrom next bytes

def decode (bytes : List UInt8) : String := String.ofList (decodeFrom .start bytes)

end Digic.Text.Utf8
