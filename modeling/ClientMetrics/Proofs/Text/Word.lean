import ClientMetrics.Proofs.Text.Digits
import ClientMetrics.Text.Word

/-!
# Numbers that are typed

A number that the user types is read digit by digit, and reading stops at the first digit at which
it no longer fits in a word. No digit makes it smaller again, so it is read exactly if all of it
fits.

Key results:
- `readDigits_eq_ok_iff`: reading goes through if all characters are digits and their value fits.
- `readNat_eq_ok_iff`, `readWord_eq_ok_iff`: the texts that are read are the numerals that fit.
-/

namespace ClientMetrics

namespace Text

/-- A numeral of a number: digits, at least one, with a plus sign before them at most. -/
def IsNumeral (text : String) (n : Nat) : Prop :=
  ∃ digits : List Char, (text.toList = digits ∨ text.toList = '+' :: digits) ∧ digits ≠ [] ∧
    (∀ c ∈ digits, c.isDigit) ∧ Nat.ofDigitChars 10 digits 0 = n

/-- Digits after a number that fits are read exactly if their value fits with it. -/
theorem readDigits_eq_ok_iff {n : Nat} (hn : n < UInt64.size) (cs : List Char) (m : Nat) :
    readDigits n cs = .ok m ↔
      (∀ c ∈ cs, c.isDigit) ∧ Nat.ofDigitChars 10 cs n = m ∧ m < UInt64.size := by
  induction cs generalizing n with
  | nil =>
    simp only [readDigits, Except.ok.injEq, Nat.ofDigitChars_nil]
    constructor
    · rintro rfl
      exact ⟨by simp, rfl, hn⟩
    · exact fun h => h.2.1
  | cons c cs ih =>
    rw [readDigits]
    by_cases hc : c.isDigit
    · simp only [hc, Bool.not_true, Bool.false_eq_true, if_false, Nat.ofDigitChars_cons,
        List.forall_mem_cons, true_and]
      by_cases hlarge : UInt64.size ≤ 10 * n + (c.toNat - 48)
      · -- what does not fit now does not fit with more digits either
        rw [if_pos hlarge]
        constructor
        · intro h
          cases h
        · rintro ⟨-, hvalue, hm⟩
          have hle := le_ofDigitChars (10 * n + (c.toNat - 48)) cs
          have hzero : '0'.toNat = 48 := rfl
          rw [hzero] at hvalue
          omega
      · rw [if_neg hlarge]
        exact ih (by omega)
    · simp [hc]

/-- A text is read as a number exactly if it is a numeral of it within 64 bits. -/
theorem readNat_eq_ok_iff (text : String) (n : Nat) :
    readNat text = .ok n ↔ IsNumeral text n ∧ n < UInt64.size := by
  have hread := fun cs => readDigits_eq_ok_iff (n := 0) (by decide) cs n
  unfold readNat IsNumeral
  split
  · next htext => simp [htext]
  · next htext => simp [htext]
  · next cs hcs htext =>
    rw [hread, htext]
    -- a sign may stand before the digits, which are the rest of the text then
    constructor
    · rintro ⟨hdigits, hvalue, hn⟩
      exact ⟨⟨cs, .inr rfl, fun h => hcs (by rw [h]), hdigits, hvalue⟩, hn⟩
    · rintro ⟨⟨digits, rfl | h, -, hdigits, hvalue⟩, hn⟩
      · exact absurd (hdigits '+' (by simp)) (by decide)
      · obtain rfl : cs = digits := by simpa using h
        exact ⟨hdigits, hvalue, hn⟩
  · next cs hnil hplus hsign =>
    rw [hread]
    constructor
    · rintro ⟨hdigits, hvalue, hn⟩
      exact ⟨⟨_, .inl rfl, hnil, hdigits, hvalue⟩, hn⟩
    · rintro ⟨⟨digits, rfl | h, -, hdigits, hvalue⟩, hn⟩
      · exact ⟨hdigits, hvalue, hn⟩
      · exact absurd h (hsign digits)

/-- The same with the number as a word. -/
theorem readWord_eq_ok_iff (text : String) (w : UInt64) :
    readWord text = .ok w ↔ IsNumeral text w.toNat := by
  have hread : readWord text = .ok w ↔ readNat text = .ok w.toNat := by
    unfold readWord
    cases h : readNat text with
    | error fault => simp [Except.map]
    | ok n =>
      have hn := ((readNat_eq_ok_iff text n).1 h).2
      simp only [Except.map, Except.ok.injEq]
      -- a number within 64 bits is the word that it is read as
      constructor
      · rintro rfl
        exact (UInt64.toNat_ofNat_of_lt' hn).symm
      · rintro rfl
        exact UInt64.ofNat_toNat
  rw [hread, readNat_eq_ok_iff, and_iff_left w.toNat_lt_size]

/-- A text is read if it is a numeral of any number that fits. -/
theorem exists_readWord_iff (text : String) :
    (∃ w, readWord text = .ok w) ↔ ∃ n < UInt64.size, IsNumeral text n := by
  simp only [readWord_eq_ok_iff]
  constructor
  · rintro ⟨w, hw⟩
    exact ⟨w.toNat, w.toNat_lt_size, hw⟩
  · rintro ⟨n, hn, hnumeral⟩
    exact ⟨.ofNat n, by rwa [UInt64.toNat_ofNat_of_lt' hn]⟩

end Text

end ClientMetrics
