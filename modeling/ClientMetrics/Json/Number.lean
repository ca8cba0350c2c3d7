import ClientMetrics.Json.Problem

/-!
# Numbers

`natural` writes a number. `lexNumber` reads the text of a number, and `Numeral.value?` evaluates
it: a whole number within 64 bits is exact, everything else becomes a double. A numeral too large
for a double has no value. A number that is passed over is not evaluated.
-/

namespace ClientMetrics

namespace Json

/-- A number in decimal digits. -/
def natural (n : Nat) : List Char := Nat.toDigits 10 n

/-- A number of 64 bits in decimal digits. -/
def word64 (n : UInt64) : List Char := natural n.toNat

/-- A number of 32 bits in decimal digits. -/
def word32 (n : UInt32) : List Char := natural n.toNat

/-- The parts of a numeral, digits as characters. -/
structure Numeral where
  negative : Bool
  whole : List Char
  /-- The digits after the point, if there is one. -/
  fraction : Option (List Char)
  /-- The sign and the digits of the exponent, if there is one. -/
  exponent : Option (Bool × List Char)
  deriving DecidableEq, Repr

/-- The digits at the front of a text. -/
def digitsOf (cs : List Char) : List Char := cs.takeWhile Char.isDigit

/-- What follows the digits at the front of a text. -/
def afterDigits (cs : List Char) : List Char := cs.dropWhile Char.isDigit

theorem digitsOf_append_afterDigits (cs : List Char) : digitsOf cs ++ afterDigits cs = cs :=
  List.takeWhile_append_dropWhile

/-- Reads at least one digit. `cut` is the problem of a text that ends before it. -/
def readDigits (cut : Problem) (cs : List Char) : Except Problem (List Char × List Char) :=
  match digitsOf cs with
  | [] => .error (if cs.isEmpty then cut else .malformed)
  | ds => .ok (ds, afterDigits cs)

/-- What was read stands at the front of the text, and it is not empty. -/
theorem eq_append_of_readDigits {cut : Problem} {cs ds rest : List Char}
    (h : readDigits cut cs = .ok (ds, rest)) : cs = ds ++ rest ∧ ds ≠ [] := by
  unfold readDigits at h
  split at h
  · simp at h
  · next hd =>
    simp only [Except.ok.injEq, Prod.mk.injEq] at h
    obtain ⟨rfl, rfl⟩ := h
    exact ⟨(digitsOf_append_afterDigits cs).symm, hd⟩

/-- Reads the digits before the point: a zero stands alone. -/
def readWhole (cut : Problem) (cs : List Char) : Except Problem (List Char × List Char) :=
  match readDigits cut cs with
  | .error p => .error p
  | .ok (ds, rest) =>
    if ds.head? = some '0' ∧ 1 < ds.length then .error .malformed else .ok (ds, rest)

/-- The same holds for the digits before the point. -/
theorem eq_append_of_readWhole {cut : Problem} {cs ds rest : List Char}
    (h : readWhole cut cs = .ok (ds, rest)) : cs = ds ++ rest ∧ ds ≠ [] := by
  unfold readWhole at h
  split at h
  · simp at h
  · next hd =>
    split at h
    · simp at h
    · simp only [Except.ok.injEq, Prod.mk.injEq] at h
      obtain ⟨rfl, rfl⟩ := h
      exact eq_append_of_readDigits hd

/-- Reads a point and the digits after it, if there is one. -/
def readFraction (cut : Problem) (cs : List Char) :
    Except Problem (Option (List Char) × List Char) :=
  match cs with
  | '.' :: rest =>
    match readDigits cut rest with
    | .error p => .error p
    | .ok (ds, rest) => .ok (some ds, rest)
  | _ => .ok (none, cs)

/-- Nothing is put back where a fraction is read. -/
theorem length_of_readFraction {cut : Problem} {cs rest : List Char} {f : Option (List Char)}
    (h : readFraction cut cs = .ok (f, rest)) : rest.length ≤ cs.length := by
  unfold readFraction at h
  split at h
  · split at h
    · simp at h
    · next hd =>
      simp only [Except.ok.injEq, Prod.mk.injEq] at h
      obtain ⟨-, rfl⟩ := h
      simp [(eq_append_of_readDigits hd).1]; omega
  · simp only [Except.ok.injEq, Prod.mk.injEq] at h
    simp [h.2]

/-- Reads the sign of an exponent; a missing one is positive. -/
def readSign : List Char → Bool × List Char
  | '+' :: rest => (false, rest)
  | '-' :: rest => (true, rest)
  | cs => (false, cs)

/-- Nothing is put back where a sign is read. -/
theorem length_readSign_le (cs : List Char) : (readSign cs).2.length ≤ cs.length := by
  unfold readSign; split <;> simp

/-- Reads an exponent, if there is one. -/
def readExponent (cut : Problem) (cs : List Char) :
    Except Problem (Option (Bool × List Char) × List Char) :=
  match cs with
  | c :: rest =>
    if c = 'e' ∨ c = 'E' then
      match readDigits cut (readSign rest).2 with
      | .error p => .error p
      | .ok (ds, final) => .ok (some ((readSign rest).1, ds), final)
    else .ok (none, cs)
  | [] => .ok (none, [])

/-- Nothing is put back where an exponent is read. -/
theorem length_of_readExponent {cut : Problem} {cs rest : List Char}
    {e : Option (Bool × List Char)} (h : readExponent cut cs = .ok (e, rest)) :
    rest.length ≤ cs.length := by
  unfold readExponent at h
  split at h
  · next c r =>
    split at h
    · split at h
      · simp at h
      · next hd =>
        simp only [Except.ok.injEq, Prod.mk.injEq] at h
        obtain ⟨-, rfl⟩ := h
        have h1 := length_readSign_le r
        have h2 := congrArg List.length (eq_append_of_readDigits hd).1
        simp only [List.length_append, List.length_cons] at *; omega
    · simp only [Except.ok.injEq, Prod.mk.injEq] at h
      simp [← h.2]
  · simp only [Except.ok.injEq, Prod.mk.injEq] at h
    simp [← h.2]

/-- Reads a minus sign, if there is one. -/
def readMinus : List Char → Bool × List Char
  | '-' :: rest => (true, rest)
  | cs => (false, cs)

theorem length_readMinus_le (cs : List Char) : (readMinus cs).2.length ≤ cs.length := by
  unfold readMinus; split <;> simp

/-- Reads the text of a number. `cut` is the problem of a numeral that the end of the text cuts
off. -/
def lexNumber (cut : Problem) (cs : List Char) : Except Problem (Numeral × List Char) :=
  match readWhole cut (readMinus cs).2 with
  | .error p => .error p
  | .ok (whole, r₁) =>
    match readFraction cut r₁ with
    | .error p => .error p
    | .ok (fraction, r₂) =>
      match readExponent cut r₂ with
      | .error p => .error p
      | .ok (exponent, r₃) => .ok (⟨(readMinus cs).1, whole, fraction, exponent⟩, r₃)

/-- A numeral has at least one character, which is one of the digits before its point. -/
theorem length_of_lexNumber {cut : Problem} {cs rest : List Char} {n : Numeral}
    (h : lexNumber cut cs = .ok (n, rest)) : rest.length < cs.length := by
  unfold lexNumber at h
  split at h
  · simp at h
  · next h₁ =>
    split at h
    · simp at h
    · next h₂ =>
      split at h
      · simp at h
      · next h₃ =>
        simp only [Except.ok.injEq, Prod.mk.injEq] at h
        obtain ⟨-, rfl⟩ := h
        have l₀ := length_readMinus_le cs
        -- only the digits before the point are required
        obtain ⟨e, ne⟩ := eq_append_of_readWhole h₁
        have l₁ := congrArg List.length e
        have := List.length_pos_iff.2 ne
        have l₂ := length_of_readFraction h₂
        have l₃ := length_of_readExponent h₃
        simp only [List.length_append] at *; omega

/-- A number that was evaluated. -/
inductive Number where
  | integer (value : Int)
  | decimal (value : Float)

/-- The greatest whole number that is kept exactly. -/
def maxWord : Nat := UInt64.size - 1

/-- The value of a decimal digit. -/
def digitValue (c : Char) : Nat := c.toNat - 48

/-- Appends digits to a significand while it fits into 64 bits, and counts the digits that are left
out from the first on that does not fit. -/
def appendWhole (significand : Nat) : List Char → Nat × Nat
  | [] => (significand, 0)
  | d :: ds =>
    if significand * 10 + digitValue d ≤ maxWord then
      appendWhole (significand * 10 + digitValue d) ds
    else (significand, ds.length + 1)

/-- Appends the digits after the point while the significand fits into 64 bits, and counts those
that were appended. -/
def appendFraction (significand : Nat) : List Char → Nat × Nat
  | [] => (significand, 0)
  | d :: ds =>
    if significand * 10 + digitValue d ≤ maxWord then
      let (s, n) := appendFraction (significand * 10 + digitValue d) ds
      (s, n + 1)
    else (significand, 0)

/-- The double nearest to a power of ten within the range of doubles. -/
def powerOfTen (n : Nat) : Float := Float.ofScientific 1 false n

/-- Divides by `10 ^ n`, by `10 ^ 308` at a time where `n` is greater. -/
def divideByPower (x : Float) (n : Nat) : Float :=
  if x == 0 then x
  else if n ≤ 308 then x / powerOfTen n
  else divideByPower (x / powerOfTen 308) (n - 308)
termination_by n

/-- A significand scaled by a power of ten; `none` if the result is too large for a double. -/
def scale? (significand : Nat) (exponent : Int) : Option Float :=
  let x := significand.toUInt64.toFloat
  if exponent < 0 then some (divideByPower x exponent.natAbs)
  else if exponent ≤ 308 then
    let y := x * powerOfTen exponent.toNat
    if y.isInf then none else some y
  else if significand = 0 then some x
  else none

/-- The value of an exponent, which stops growing where no double is affected any more. -/
def exponentValue : Option (Bool × List Char) → Int
  | none => 0
  | some (negative, ds) =>
    let n : Nat := min (ds.foldl (fun n d => n * 10 + digitValue d) 0) (Nat.pow 2 31 - 1)
    if negative then -n else n

namespace Numeral

/-- The significand and the power of ten that the digits stand for. -/
def parts (n : Numeral) : Nat × Int :=
  let (whole, left) := appendWhole 0 n.whole
  let (significand, taken) := appendFraction whole (n.fraction.getD [])
  (significand, (left : Int) - taken + exponentValue n.exponent)

/-- The numeral is a whole number without an exponent that fits into 64 bits. -/
def isWord (n : Numeral) : Bool :=
  n.fraction.isNone && n.exponent.isNone && (appendWhole 0 n.whole).2 == 0

/-- The value of a numeral; `none` if it is too large for a double. -/
def value? (n : Numeral) : Option Number :=
  let (significand, exponent) := n.parts
  let isExact := n.isWord && (!n.negative || (0 < significand && significand ≤ Nat.pow 2 63))
  if isExact then some (.integer (if n.negative then -significand else significand))
  else (scale? significand exponent).map fun x => .decimal (if n.negative then -x else x)

end Numeral

/-- Reads a number and evaluates it. -/
def readNumber (cs : List Char) : Except Problem (Number × List Char) :=
  match lexNumber .endOfText cs with
  | .error p => .error p
  | .ok (n, rest) =>
    match n.value? with
    | none => .error .malformed
    | some x => .ok (x, rest)

/-- A number has at least one character, whatever its value. -/
theorem length_of_readNumber {cs rest : List Char} {n : Number}
    (h : readNumber cs = .ok (n, rest)) : rest.length < cs.length := by
  unfold readNumber at h
  split at h
  · simp at h
  · next hl =>
    split at h
    · simp at h
    · simp only [Except.ok.injEq, Prod.mk.injEq] at h
      obtain ⟨-, rfl⟩ := h
      exact length_of_lexNumber hl

end Json

end ClientMetrics
