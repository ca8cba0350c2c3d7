/-!
# The shortest decimal that reads back

A finite double stands for all reals that round to it. `ofParts` finds the fewest
digits of a decimal in that interval and, among those with that many digits, the one nearest to the
double. Each grid of decimals is tried in exact arithmetic, coarsest first: if the interval holds a
point of a grid, it holds one of the value's two neighbours on it.
-/

namespace ClientMetrics

namespace Decimal

/-- A decimal `digits · 10 ^ exponent`. -/
structure Scaled where
  digits : Nat
  exponent : Int
  deriving DecidableEq, Repr

/-- A positive value with the interval of reals that round to it, over one denominator. -/
structure Interval where
  low : Nat
  value : Nat
  high : Nat
  denominator : Nat
  /-- The ends round to the value as well. -/
  closed : Bool
  deriving DecidableEq, Repr

/-- The interval of `mantissa · 2 ^ exponent`. The gap below is half as wide where the mantissa is
the least of its binade. -/
def Interval.ofParts (mantissa : Nat) (exponent : Int) (narrow : Bool) : Interval :=
  let up := Nat.pow 2 exponent.toNat
  { low := (4 * mantissa - if narrow then 1 else 2) * up
    value := 4 * mantissa * up
    high := (4 * mantissa + 2) * up
    denominator := 4 * Nat.pow 2 (-exponent).toNat
    closed := mantissa % 2 = 0 }

/-- The decimal lies in the interval. -/
def Interval.holds (i : Interval) (d : Scaled) : Bool :=
  let point := d.digits * Nat.pow 10 d.exponent.toNat * i.denominator
  let scale := Nat.pow 10 (-d.exponent).toNat
  if i.closed then i.low * scale ≤ point && point ≤ i.high * scale
  else i.low * scale < point && point < i.high * scale

/-- The two neighbours of the value among the multiples of `10 ^ exponent`, nearer one first; of
two equally near, the one with the even digit. -/
def Interval.neighbours (i : Interval) (exponent : Int) : List Scaled :=
  let num := i.value * Nat.pow 10 (-exponent).toNat
  let den := i.denominator * Nat.pow 10 exponent.toNat
  let below := num / den
  let rest := 2 * (num % den)
  if rest < den ∨ (rest = den ∧ below % 2 = 0) then [⟨below, exponent⟩, ⟨below + 1, exponent⟩]
  else [⟨below + 1, exponent⟩, ⟨below, exponent⟩]

/-- The exponent of the first digit of `num / den`, both positive. -/
def leadingExponent (num den : Nat) : Int :=
  if den ≤ num then ((Nat.toDigits 10 (num / den)).length : Int) - 1
  else
    let shift := (Nat.toDigits 10 (den / num)).length
    if den ≤ num * Nat.pow 10 (shift - 1) then 1 - (shift : Int) else -(shift : Int)

/-- The first grid with a decimal in the interval, tried from the given number of digits on. -/
def Interval.search (i : Interval) (lead : Int) : Nat → Nat → Option Scaled
  | 0, _ => none
  | left + 1, count =>
    match (i.neighbours (lead + 1 - (count : Int))).find? i.holds with
    | some d => some d
    | none => i.search lead left (count + 1)

/-- The shortest decimal of a positive double given by its parts. Seventeen digits always do. The
first grid has no digit of the value itself, but the power of ten above it. -/
def ofParts (mantissa : Nat) (exponent : Int) (narrow : Bool) : Option Scaled :=
  let i := Interval.ofParts mantissa exponent narrow
  i.search (leadingExponent i.value i.denominator) 18 0

/-- The sign of a double and the shortest decimal of its magnitude; `none` where the magnitude is
zero. Infinities and numbers that are none have no decimal and are not asked for. -/
def ofFloat (x : Float) : Bool × Option Scaled :=
  let bits : Nat := x.toBits.toNat
  let fraction : Nat := bits % Nat.pow 2 52
  let biased : Nat := bits / Nat.pow 2 52 % Nat.pow 2 11
  let negative : Bool := bits / Nat.pow 2 63 == 1
  if biased = 0 then
    (negative, if fraction = 0 then none else ofParts fraction (-1074) false)
  else
    (negative,
      ofParts (fraction + Nat.pow 2 52) ((biased : Int) - 1075) (fraction = 0 && 1 < biased))

/-- How a decimal is written. -/
structure Style where
  /-- The least exponent of the first digit that is written without an exponent. -/
  least : Int
  /-- The greatest such exponent. -/
  greatest : Int

/-- An exponent with its sign and at least two digits. -/
def exponentText (e : Int) : String :=
  let digits := toString e.natAbs
  (if e < 0 then "e-" else "e+") ++ (if digits.length < 2 then "0" ++ digits else digits)

/-- A decimal with a point, or with an exponent if its first digit stands too far from the
point. -/
def Scaled.text (style : Style) (d : Scaled) : String :=
  let digits := Nat.toDigits 10 d.digits
  let lead := d.exponent + digits.length - 1
  if style.least ≤ lead ∧ lead ≤ style.greatest then
    if 0 ≤ d.exponent then
      String.ofList (digits ++ List.replicate d.exponent.toNat '0' ++ ['.', '0'])
    else if 0 ≤ lead then
      let whole := lead.toNat + 1
      String.ofList (digits.take whole ++ '.' :: digits.drop whole)
    else
      String.ofList (['0', '.'] ++ List.replicate (-lead - 1).toNat '0' ++ digits)
  else
    match digits with
    | [one] => String.singleton one ++ exponentText lead
    | first :: others => String.ofList (first :: '.' :: others) ++ exponentText lead
    | [] => ""

/-- The text of a finite double. -/
def text (style : Style) (x : Float) : String :=
  match ofFloat x with
  | (negative, d?) =>
    (if negative then "-" else "") ++
      match d? with
      | none => "0.0"
      | some d => d.text style

end Decimal

end ClientMetrics
