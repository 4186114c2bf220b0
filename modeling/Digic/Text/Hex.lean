/-!
# Text of numbers

Hexadecimal and padded decimal spellings, as they appear in messages about registers.
-/
namespace Digic.Text

def padLeft (c : Char) (width : Nat) (s : String) : String :=
  String.ofList (List.replicate (width - s.length) c) ++ s

def padRight (width : Nat) (s : String) : String :=
  s ++ String.ofList (List.replicate (width - s.length) ' ')

def lowerHex (n : Nat) : String := String.ofList (Nat.toDigits 16 n)

def upperHex (n : Nat) : String := String.ofList ((Nat.toDigits 16 n).map Char.toUpper)

def hex (n : Nat) : String := "0x" ++ lowerHex n

def hexAtLeast (digits n : Nat) : String := "0x" ++ padLeft '0' digits (lowerHex n)

/-- A byte: two upper-case digits behind a `0x`. -/
def byte (n : Nat) : String := "0x" ++ padLeft '0' 2 (upperHex n)

/-- A bus address or register value: eight upper-case digits behind a `0x`. -/
def word (w : UInt32) : String := "0x" ++ padLeft '0' 8 (upperHex w.toNat)

/-- A value in upper-case digits behind a `0x`, as short as it gets. -/
def shortWord (w : UInt32) : String := "0x" ++ upperHex w.toNat

def decimalAtLeast (digits n : Nat) : String := padLeft '0' digits (toString n)

end Digic.Text
