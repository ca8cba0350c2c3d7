/-!
# Durations as text

A duration in milliseconds is shown in the greatest of its units, seconds or milliseconds, with as
many decimals as it needs.
-/

namespace ClientMetrics

namespace Text

/-- The digits of a number that takes at least some places. -/
def padded (places n : Nat) : List Char :=
  let digits := Nat.toDigits 10 n
  List.replicate (places - digits.length) '0' ++ digits

/-- The digits after the point of a number of thousandths, without zeros at the end. -/
def thousandths (n : Nat) : List Char :=
  ((padded 3 n).reverse.dropWhile (· = '0')).reverse

/-- A duration given in milliseconds. -/
def duration (millis : Nat) : String :=
  if millis = 0 then "0ns"
  else if millis < 1000 then toString millis ++ "ms"
  else
    match thousandths (millis % 1000) with
    | [] => toString (millis / 1000) ++ "s"
    | digits => toString (millis / 1000) ++ "." ++ String.ofList digits ++ "s"

end Text

end ClientMetrics
