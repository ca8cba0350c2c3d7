/-!
# Decimal digits

Numbers are written as their decimal digits, without zeros in front of them.
-/

namespace ClientMetrics

namespace Text

/-- Only zero is written with a zero in front. -/
theorem head?_toDigits {n : Nat} (h : (Nat.toDigits 10 n).head? = some '0') : n = 0 := by
  induction n using Nat.strongRecOn with
  | _ n ih =>
    rw [Nat.toDigits_eq_if (by decide)] at h
    split at h
    · simpa using h
    · next hn =>
      -- the first digit is that of a tenth, which is not zero
      have hne : Nat.toDigits 10 (n / 10) ≠ [] := Nat.toDigits_ne_nil
      obtain ⟨d, ds, hds⟩ := List.exists_cons_of_ne_nil hne
      have := ih (n / 10) (by omega) (by simpa [hds] using h)
      omega

/-- More digits never make a number smaller. -/
theorem le_ofDigitChars (s : Nat) (ds : List Char) : s ≤ Nat.ofDigitChars 10 ds s := by
  induction ds generalizing s with
  | nil => simp
  | cons d ds ih =>
    have := ih (10 * s + (d.toNat - '0'.toNat))
    rw [Nat.ofDigitChars_cons]
    omega

end Text

end ClientMetrics
