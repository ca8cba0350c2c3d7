import ClientMetrics.Decimal.Range
import ClientMetrics.Text.Hex

/-!
# What a plain text stands for

A text without quotes may stand for nothing, for a truth value, for a whole number or for another
number. Whole numbers have a sign and a base, and in base ten no zero stands in front.
-/

namespace ClientMetrics

namespace Yaml

namespace Scalar

/-- The text stands for nothing. -/
def isNull (cs : List Char) : Bool :=
  ["~", "null", "Null", "NULL"].any (·.toList = cs)

/-- The truth value of a text. -/
def bool? (cs : List Char) : Option Bool :=
  if ["true", "True", "TRUE"].any (·.toList = cs) then some true
  else if ["false", "False", "FALSE"].any (·.toList = cs) then some false
  else none

/-- The number that some digits stand for in a base up to sixteen. There is at least one digit. -/
def digits? (base : Nat) (cs : List Char) : Option Nat :=
  if cs = [] then none
  else cs.foldlM (fun n c => ((Text.Hex.value? c).filter (· < base)).map (base * n + ·)) 0

/-- The base that the start of a number names, and the rest. -/
def base? : List Char → Option (Nat × List Char)
  | '0' :: 'x' :: cs => some (16, cs)
  | '0' :: 'o' :: cs => some (8, cs)
  | '0' :: 'b' :: cs => some (2, cs)
  | _ => none

/-- A text without a plus sign in front. -/
def dropPlus : List Char → List Char
  | '+' :: cs => cs
  | cs => cs

/-- A text without a sign in front. -/
def dropSign : List Char → List Char
  | '+' :: cs => cs
  | '-' :: cs => cs
  | cs => cs

/-- Digits with a zero in front of them, which are no number. -/
def isPadded (cs : List Char) : Bool :=
  match dropSign cs with
  | '0' :: rest => rest ≠ [] && rest.all Char.isDigit
  | _ => false

/-- The magnitude of a number after its sign: digits of a base that is named, or of base ten. -/
def magnitude? (cs : List Char) : Option Nat :=
  (do let (base, rest) ← base? cs; digits? base rest)
    <|> if isPadded cs then none else digits? 10 cs

/-- The whole number of a text, if it is not negative. -/
def natural? (cs : List Char) : Option Nat := magnitude? (dropPlus cs)

/-- The text stands for a whole number within 128 bits, with or without a sign. -/
def isInteger (cs : List Char) : Bool :=
  match cs with
  | '-' :: cs => (magnitude? cs).any (· ≤ Nat.pow 2 127)
  | _ => (natural? cs).any (· < Nat.pow 2 128)

/-- The value of decimal digits. -/
def decimalValue (cs : List Char) : Nat := cs.foldl (fun n c => 10 * n + (c.toNat - 48)) 0

/-- The exponent at the end of a decimal numeral; none at all counts as zero. -/
def exponent? : List Char → Option Int
  | [] => some 0
  | c :: cs =>
    if c = 'e' ∨ c = 'E' then
      let ds := dropSign cs
      if ds ≠ [] ∧ ds.all Char.isDigit then
        let n : Int := decimalValue ds
        some (if cs.head? = some '-' then -n else n)
      else none
    else none

/-- The value of a decimal numeral without its sign: digits, a point, digits and an exponent, of
which all but one digit may be missing. -/
def decimal? (cs : List Char) : Option Decimal.Scaled :=
  let whole := cs.takeWhile Char.isDigit
  let rest := cs.dropWhile Char.isDigit
  let (fraction, rest) := match rest with
    | '.' :: rest => (rest.takeWhile Char.isDigit, rest.dropWhile Char.isDigit)
    | rest => ([], rest)
  if whole ++ fraction = [] then none
  else (exponent? rest).map fun e => ⟨decimalValue (whole ++ fraction), e - fraction.length⟩

/-- The text stands for a number that need not be whole. -/
def isDecimal (cs : List Char) : Bool :=
  [".nan", ".NaN", ".NAN"].any (·.toList = cs)
    || [".inf", ".Inf", ".INF"].any (·.toList = dropSign cs)
    || (decimal? (dropSign cs)).any (·.isFinite)

/-- A text that would stand for something else than itself if it were not quoted. -/
def needsQuotes (cs : List Char) : Bool :=
  cs = [] || isNull cs || (bool? cs).isSome || isInteger cs || isPadded cs || isDecimal cs

end Scalar

end Yaml

end ClientMetrics
