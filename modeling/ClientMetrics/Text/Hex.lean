/-!
# Hexadecimal digits

Digits of either case are read, and written in the one that a format asks for. Reading what was
written gives the number back (`value?_lower`, `value?_upper`).
-/

namespace ClientMetrics

namespace Text

namespace Hex

/-- The value of a digit of either case. -/
def value? (c : Char) : Option Nat :=
  if '0' ≤ c ∧ c ≤ '9' then some (c.toNat - 48)
  else if 'a' ≤ c ∧ c ≤ 'f' then some (c.toNat - 87)
  else if 'A' ≤ c ∧ c ≤ 'F' then some (c.toNat - 55)
  else none

/-- The lower-case digit of a number below sixteen. -/
def lower (n : Nat) : Char := if n < 10 then Char.ofNat (48 + n) else Char.ofNat (87 + n)

/-- The upper-case digit of a number below sixteen. -/
def upper (n : Nat) : Char := if n < 10 then Char.ofNat (48 + n) else Char.ofNat (55 + n)

/-- A small digit is read as the number it was written for. -/
theorem value?_lower {n : Nat} (h : n < 16) : value? (lower n) = some n := by
  revert h; revert n; decide

theorem value?_upper {n : Nat} (h : n < 16) : value? (upper n) = some n := by
  revert h; revert n; decide

/-- The number that some digits stand for, most significant first. -/
def number? (cs : List Char) : Option Nat :=
  cs.foldlM (fun n c => (value? c).map (16 * n + ·)) 0

/-- A number as a given count of upper-case digits. -/
def upperDigits : Nat → Nat → List Char
  | 0, _ => []
  | width + 1, n => upperDigits width (n / 16) ++ [upper (n % 16)]

end Hex

end Text

end ClientMetrics
