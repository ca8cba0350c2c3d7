import ClientMetrics.Decimal.Shortest

/-!
# Decimals within the range of doubles

A decimal rounds to a finite double if it lies below the middle between the greatest double and the
next power of two (`limit`).
-/

namespace ClientMetrics

namespace Decimal

/-- The least number that rounds to no finite double. -/
def limit : Nat := Nat.pow 2 1024 - Nat.pow 2 970

/-- A decimal rounds to a finite double. Where the number of its digits decides, nothing is
multiplied out. -/
def Scaled.isFinite (d : Scaled) : Bool :=
  if d.digits = 0 then true
  else
    let size := ((Nat.toDigits 10 d.digits).length : Int) + d.exponent
    if size < 309 then true
    else if 309 < size then false
    else d.digits * Nat.pow 10 d.exponent.toNat < limit * Nat.pow 10 (-d.exponent).toNat

end Decimal

end ClientMetrics
