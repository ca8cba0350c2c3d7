/-!
# Numbers in words of 64 bits

`readWord` reads a number that the user typed: digits, with a plus sign before them at most.
-/

namespace ClientMetrics

namespace Text

/-- Why a text is no number. -/
inductive WordFault where
  | empty
  | invalidDigit
  | tooLarge
  deriving DecidableEq, Repr

/-- The text of a fault. -/
def WordFault.message : WordFault → String
  | empty => "cannot parse integer from empty string"
  | invalidDigit => "invalid digit found in string"
  | tooLarge => "number too large to fit in target type"

/-- Reads digits after a number `n` that fits; the first fault counts. -/
def readDigits (n : Nat) : List Char → Except WordFault Nat
  | [] => .ok n
  | c :: cs =>
    if !c.isDigit then .error .invalidDigit
    else
      let next := 10 * n + (c.toNat - 48)
      if UInt64.size ≤ next then .error .tooLarge else readDigits next cs

/-- Reads a number below `2 ^ 64`. -/
def readNat (text : String) : Except WordFault Nat :=
  match text.toList with
  | [] => .error .empty
  | ['+'] => .error .invalidDigit
  | '+' :: cs => readDigits 0 cs
  | cs => readDigits 0 cs

/-- Reads a number of 64 bits. -/
def readWord (text : String) : Except WordFault UInt64 := (readNat text).map .ofNat

end Text

end ClientMetrics
