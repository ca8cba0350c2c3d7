import ClientMetrics.Json.Record
import ClientMetrics.Proofs.Text.Digits
import Mathlib.Data.List.Forall2

/-!
# Reading values that were written

`Reads r text a` says that the reader `r` finds the value `a` in `text`, wherever the text stands:
it takes the text, all of it and nothing after it. Only a numeral cares about what follows, since
digits after it would belong to it; what can follow a value inside an array or an object does not
(`Boundary`).

Key results:
- `readString_escape`: a string literal is read back character by character, escapes included.
- `readNumber_natural`: the digits of a number of at most 64 bits are read back exactly.
- `reads_text`, `reads_boolean`, `reads_word64`, `reads_word32`: the written values of each type.
- `Reads.optional`, `Reads.array`: values that may be `null`, and arrays of values.
-/

namespace ClientMetrics

namespace Json

/-! ## What follows a value -/

/-- The text does not go on with the numeral that may stand before it. -/
def Boundary (rest : List Char) : Prop :=
  ∀ c more, rest = c :: more → c.isDigit = false ∧ c ≠ '.' ∧ c ≠ 'e' ∧ c ≠ 'E'

theorem boundary_nil : Boundary [] := by
  intro c more h
  simp at h

/-- A numeral ends where the next character cannot belong to it. -/
theorem boundary_cons {c : Char} {more : List Char}
    (h : c.isDigit = false ∧ c ≠ '.' ∧ c ≠ 'e' ∧ c ≠ 'E') : Boundary (c :: more) := by
  intro d rest hd
  simp only [List.cons.injEq] at hd
  exact hd.1 ▸ h

/-- A comma ends a numeral. -/
@[simp] theorem boundary_comma (more : List Char) : Boundary (',' :: more) :=
  boundary_cons (by decide)

@[simp] theorem boundary_bracket (more : List Char) : Boundary (']' :: more) :=
  boundary_cons (by decide)

@[simp] theorem boundary_brace (more : List Char) : Boundary ('}' :: more) :=
  boundary_cons (by decide)

/-- The characters with which a written value starts. None is a blank, none closes an array and
none begins `null`. -/
def isOpening (c : Char) : Bool :=
  c = '"' || c = 't' || c = 'f' || c = '[' || c = '{' || c.isDigit

/-- A written value does not start with any other character. -/
theorem isOpening_ne {c d : Char} (hc : isOpening c) (hd : isOpening d = false) : c ≠ d := by
  rintro rfl
  simp [hc] at hd

/-- A written value does not start with a blank. -/
theorem isBlank_of_isOpening {c : Char} (h : isOpening c) : isBlank c = false := by
  have h₁ := isOpening_ne h (d := ' ') (by decide)
  have h₂ := isOpening_ne h (d := '\n') (by decide)
  have h₃ := isOpening_ne h (d := '\t') (by decide)
  have h₄ := isOpening_ne h (d := '\r') (by decide)
  simp [isBlank, h₁, h₂, h₃, h₄]

/-- There is nothing to skip in front of a character that is no blank. -/
theorem skipBlank_cons {c : Char} {cs : List Char} (h : isBlank c = false) :
    skipBlank (c :: cs) = c :: cs := by
  simp [skipBlank, h]

/-- The reader finds the value in the text, wherever the text stands. -/
structure Reads {α : Type} (r : Reader α) (text : List Char) (a : α) : Prop where
  opening : ∃ c more, text = c :: more ∧ isOpening c
  read_append : ∀ rest, Boundary rest → r.read (text ++ rest) = .ok (a, rest)

variable {α β : Type} {r : Reader α} {text : List Char} {a : α}

/-- A written value has no blanks in front of it. -/
theorem Reads.skipBlank_append (h : Reads r text a) (rest : List Char) :
    skipBlank (text ++ rest) = text ++ rest := by
  obtain ⟨c, more, rfl, hc⟩ := h.opening
  exact skipBlank_cons (isBlank_of_isOpening hc)

/-- A text that holds one written value and nothing else decodes to it. -/
theorem Reads.decode (h : Reads r text a) : r.decode (String.ofList text) = .ok a := by
  have hr := h.read_append [] boundary_nil
  rw [List.append_nil] at hr
  simp [Reader.decode, hr, skipBlank]

/-- What is made of a value can be made of the value that is read. -/
theorem Reads.map (h : Reads r text a) (f : α → β) : Reads (r.map f) text (f a) where
  opening := h.opening
  read_append rest hrest := by simp only [Reader.map, h.read_append rest hrest]

/-- A written value is never mistaken for `null`. -/
theorem Reads.optional (h : Reads r text a) : Reads r.optional text (some a) where
  opening := h.opening
  read_append rest hrest := by
    have hread := h.read_append rest hrest
    obtain ⟨c, more, rfl, hc⟩ := h.opening
    have hn : c ≠ 'n' := isOpening_ne hc (by decide)
    -- the first character tells a value from `null`
    rw [List.cons_append] at hread ⊢
    simp only [Reader.optional, skipBlank_cons (isBlank_of_isOpening hc)]
    split
    · next heq => simp_all
    · rw [hread]

/-! ## Strings -/

/-- A character below the space is written as the code unit of two hexadecimal digits. -/
theorem readEscape_unit {c : Char} (h : c.toNat < 0x20) (rest : List Char) :
    readEscape ('u' :: '0' :: '0' :: Text.Hex.lower (c.toNat / 16) ::
      Text.Hex.lower (c.toNat % 16) :: rest) = .ok (c, rest) := by
  have hhigh := Text.Hex.value?_lower (n := c.toNat / 16) (by omega)
  have hlow := Text.Hex.value?_lower (n := c.toNat % 16) (by omega)
  have hzero : Text.Hex.value? '0' = some 0 := by decide
  have hunit : readHex4 ('0' :: '0' :: Text.Hex.lower (c.toNat / 16) ::
      Text.Hex.lower (c.toNat % 16) :: rest) = .ok (c.toNat, rest) := by
    simp only [readHex4, hhigh, hlow, hzero, Except.ok.injEq, Prod.mk.injEq, and_true]
    omega
  -- so small a code unit is no half of a pair
  have hl : isLowSurrogate c.toNat = false := by simp [isLowSurrogate]; omega
  have hh : isHighSurrogate c.toNat = false := by simp [isHighSurrogate]; omega
  simp [readEscape, readUnicodeEscape, hunit, hl, hh]

/-- Reading a string goes on after an escape. -/
theorem readString_of_readEscape {c : Char} {cs rest : List Char}
    (h : readEscape cs = .ok (c, rest)) :
    readString ('\\' :: cs) = (readString rest).map fun (s, final) => (c :: s, final) := by
  rw [readString]
  -- of the two results of the escape only that of `h` is left
  split
  · next heq => simp [h] at heq
  · next heq =>
    rw [h] at heq
    simp only [Except.ok.injEq, Prod.mk.injEq] at heq
    obtain ⟨rfl, rfl⟩ := heq
    cases readString rest <;> rfl

/-- The written form of one character is read as that character. -/
theorem readString_escape_append (c : Char) (rest : List Char) :
    readString (escape c ++ rest) = (readString rest).map fun (s, final) => (c :: s, final) := by
  unfold escape
  -- the quote, the backslash and the five control characters with an escape of one letter
  iterate 7
    split
    · subst_vars
      exact readString_of_readEscape (by simp [readEscape, shortEscape?])
  split
  · next h => exact readString_of_readEscape (readEscape_unit h rest)
  · -- all other characters stand for themselves
    next hquote hbackslash _ _ _ _ _ hcontrol =>
    rw [List.singleton_append, readString]
    · rw [if_neg hcontrol]
      cases readString rest <;> rfl
    · simpa using hquote
    · simpa using hbackslash

/-- A string literal after its opening quote is read back. -/
theorem readString_escape (s rest : List Char) :
    readString (s.flatMap escape ++ '"' :: rest) = .ok (s, rest) := by
  induction s with
  | nil => simp [readString]
  | cons c s ih =>
    rw [List.flatMap_cons, List.append_assoc, readString_escape_append, ih]
    rfl

/-- A string is read back from its literal, whatever characters it holds. -/
theorem reads_text (s : String) : Reads .text (quote s) s where
  opening := ⟨'"', _, rfl, by decide⟩
  read_append rest _ := by
    have h := readString_escape s.toList rest
    simp only [Reader.text, quote, List.cons_append, List.append_assoc, List.nil_append,
      skipBlank_cons (show isBlank '"' = false by decide), h, String.ofList_toList]

/-! ## Truth values -/

/-- A truth value is read back from its word. -/
theorem reads_boolean (b : Bool) : Reads .boolean (boolean b) b where
  opening := by cases b <;> exact ⟨_, _, rfl, by decide⟩
  read_append rest _ := by
    cases b <;> simp [Reader.boolean, boolean, skipBlank, isBlank, expectWord]

/-! ## Numbers -/

/-- A number has at least one digit. -/
theorem natural_ne_nil (n : Nat) : natural n ≠ [] := Nat.toDigits_ne_nil

/-- A number is written in digits alone. -/
theorem isDigit_of_mem_natural {n : Nat} {c : Char} (h : c ∈ natural n) : c.isDigit = true :=
  Nat.isDigit_of_mem_toDigits (by decide) (by decide) h

/-- Digits end where no digit follows. -/
theorem digitsOf_append {ds rest : List Char} (hds : ∀ c ∈ ds, c.isDigit = true)
    (hrest : ∀ c ∈ rest.head?, c.isDigit = false) :
    digitsOf (ds ++ rest) = ds ∧ afterDigits (ds ++ rest) = rest := by
  -- digits are taken one by one, and none is left where they end
  induction ds with
  | nil =>
    cases rest with
    | nil => simp [digitsOf, afterDigits]
    | cons c more => simp [digitsOf, afterDigits, hrest c rfl]
  | cons d ds ih =>
    obtain ⟨hd, hds⟩ := List.forall_mem_cons.1 hds
    obtain ⟨h₁, h₂⟩ := ih hds
    simp only [digitsOf, afterDigits] at h₁ h₂
    simp [digitsOf, afterDigits, hd, h₁, h₂]

/-- At least one digit. -/
def IsDigits (ds : List Char) : Prop := ds ≠ [] ∧ ∀ c ∈ ds, c.isDigit = true

instance : DecidablePred IsDigits := fun ds =>
  decidable_of_iff (ds ≠ [] ∧ ds.all Char.isDigit) (by simp [IsDigits])

/-- Digits are read up to where they end. -/
theorem readDigits_append (cut : Problem) {ds rest : List Char} (hds : IsDigits ds)
    (hrest : ∀ c ∈ rest.head?, c.isDigit = false) :
    readDigits cut (ds ++ rest) = .ok (ds, rest) := by
  obtain ⟨hd, ha⟩ := digitsOf_append hds.2 hrest
  unfold readDigits
  rw [hd, ha]
  split
  · exact absurd rfl hds.1
  · rfl

/-- Digits before a point are read as they were written, unless a zero stands before others. -/
theorem readWhole_append (cut : Problem) {ds rest : List Char} (hds : IsDigits ds)
    (hzero : ds.head? = some '0' → ds = ['0']) (hrest : ∀ c ∈ rest.head?, c.isDigit = false) :
    readWhole cut (ds ++ rest) = .ok (ds, rest) := by
  have halone : ¬(ds.head? = some '0' ∧ 1 < ds.length) := by
    rintro ⟨hhead, hlength⟩
    rw [hzero hhead] at hlength
    simp at hlength
  simp only [readWhole, readDigits_append cut hds hrest, if_neg halone]

/-- A number is written in at least one digit. -/
theorem isDigits_natural (n : Nat) : IsDigits (natural n) :=
  ⟨natural_ne_nil n, fun _ => isDigit_of_mem_natural⟩

/-- Where a numeral ends, no digit follows. -/
theorem Boundary.isDigit_head? {rest : List Char} (h : Boundary rest) :
    ∀ c ∈ rest.head?, c.isDigit = false := by
  intro c hc
  obtain ⟨more, rfl⟩ := List.head?_eq_some_iff.1 hc
  exact (h c more rfl).1

/-- The digits of a number are read as they were written. -/
theorem readWhole_natural (cut : Problem) (n : Nat) {rest : List Char} (hrest : Boundary rest) :
    readWhole cut (natural n ++ rest) = .ok (natural n, rest) := by
  refine readWhole_append cut (isDigits_natural n) ?_ hrest.isDigit_head?
  intro hhead
  rw [natural, Text.head?_toDigits hhead]
  rfl

/-- Nor does a fraction. -/
theorem readFraction_boundary (cut : Problem) {rest : List Char} (h : Boundary rest) :
    readFraction cut rest = .ok (none, rest) := by
  unfold readFraction
  split
  · next more => exact absurd rfl (h _ _ rfl).2.1
  · rfl

/-- Nor does an exponent. -/
theorem readExponent_boundary (cut : Problem) {rest : List Char} (h : Boundary rest) :
    readExponent cut rest = .ok (none, rest) := by
  unfold readExponent
  split
  · next c more =>
    obtain ⟨-, -, he, hE⟩ := h c more rfl
    simp [he, hE]
  · rfl

/-- Digits carry no sign. -/
theorem readMinus_natural (n : Nat) (rest : List Char) :
    readMinus (natural n ++ rest) = (false, natural n ++ rest) := by
  unfold readMinus
  split
  · next more heq =>
    -- a sign in front would have to be the first digit
    cases h : natural n with
    | nil => exact absurd h (natural_ne_nil n)
    | cons d ds =>
      have hd : d.isDigit = true := isDigit_of_mem_natural (n := n) (by simp [h])
      rw [h, List.cons_append, List.cons.injEq] at heq
      rw [heq.1] at hd
      exact absurd hd (by decide)
  · rfl

/-- Of the parts of a numeral, a written number has only its digits. -/
theorem lexNumber_natural (cut : Problem) (n : Nat) {rest : List Char} (hrest : Boundary rest) :
    lexNumber cut (natural n ++ rest) = .ok (⟨false, natural n, none, none⟩, rest) := by
  simp only [lexNumber, readMinus_natural, readWhole_natural cut n hrest,
    readFraction_boundary cut hrest, readExponent_boundary cut hrest]

/-- No digit is left out where the whole number fits. -/
theorem appendWhole_eq (s : Nat) (ds : List Char) (h : Nat.ofDigitChars 10 ds s ≤ maxWord) :
    appendWhole s ds = (Nat.ofDigitChars 10 ds s, 0) := by
  induction ds generalizing s with
  | nil => simp [appendWhole]
  | cons d ds ih =>
    have hstep : s * 10 + digitValue d = 10 * s + (d.toNat - '0'.toNat) := by
      rw [Nat.mul_comm]
      rfl
    rw [Nat.ofDigitChars_cons, ← hstep] at h ⊢
    -- a significand only grows, so what fits in the end fits at every digit
    have hfit := Nat.le_trans (Text.le_ofDigitChars (s * 10 + digitValue d) ds) h
    rw [appendWhole, if_pos hfit, ih _ h]

/-- The digits of a number that fits in a word add up to it, and none is left out. -/
theorem appendWhole_natural {n : Nat} (h : n ≤ maxWord) : appendWhole 0 (natural n) = (n, 0) := by
  have hn : Nat.ofDigitChars 10 (natural n) 0 = n := Nat.ofDigitChars_ten_toDigits
  rw [appendWhole_eq 0 (natural n) (by rw [hn]; exact h), hn]

/-- A number of at most 64 bits is read back exactly, and never as a double. -/
theorem readNumber_natural {n : Nat} (h : n ≤ maxWord) {rest : List Char}
    (hrest : Boundary rest) : readNumber (natural n ++ rest) = .ok (.integer n, rest) := by
  have hvalue : Numeral.value? ⟨false, natural n, none, none⟩ = some (.integer n) := by
    simp [Numeral.value?, Numeral.parts, Numeral.isWord, appendWhole_natural h, appendFraction]
  simp only [readNumber, lexNumber_natural _ n hrest, hvalue]

/-- A number below a bound is read back from its digits, as long as it fits in a word. -/
theorem reads_natural {bound n : Nat} (expected : String) (hn : n < bound) (h : n ≤ maxWord) :
    Reads (.natural bound expected) (natural n) n := by
  obtain ⟨d, ds, hds⟩ := List.exists_cons_of_ne_nil (natural_ne_nil n)
  have hd : d.isDigit = true := isDigit_of_mem_natural (n := n) (by simp [hds])
  have hopening : isOpening d := by simp [isOpening, hd]
  refine ⟨⟨d, ds, hds, hopening⟩, ?_⟩
  intro rest hrest
  -- the first digit decides that a number is read
  have hread := readNumber_natural h hrest
  rw [hds, List.cons_append] at hread ⊢
  simp only [Reader.natural, skipBlank_cons (isBlank_of_isOpening hopening), hd, or_true, if_true,
    hread]
  rw [if_pos ⟨by omega, by exact_mod_cast hn⟩, Int.toNat_natCast]

/-- A number of 64 bits is read back from its digits. -/
theorem reads_word64 (n : UInt64) : Reads .word64 (word64 n) n := by
  have hlt := n.toNat_lt_size
  have h := (reads_natural "u64" hlt (by unfold maxWord; omega)).map UInt64.ofNat
  rwa [UInt64.ofNat_toNat] at h

theorem reads_word32 (n : UInt32) : Reads .word32 (word32 n) n := by
  have hlt := n.toNat_lt_size
  have hsize : UInt32.size < UInt64.size := by decide
  have h := (reads_natural "u32" hlt (by unfold maxWord; omega)).map UInt32.ofNat
  rwa [UInt32.ofNat_toNat] at h

/-! ## Arrays -/

/-- Texts with commas between them, the first one apart. -/
theorem commaSeparated_cons (t : List Char) (ts : List (List Char)) :
    commaSeparated (t :: ts) = t ++ ts.flatMap (',' :: ·) := by
  induction ts generalizing t with
  | nil => simp [commaSeparated]
  | cons u us ih =>
    rw [commaSeparated, ih, List.flatMap_cons, List.cons_append]
    simp

/-- A bracket closes an array. -/
theorem closeArray_bracket (rest : List Char) : closeArray (']' :: rest) = .ok rest := by
  simp [closeArray, skipBlank_cons (show isBlank ']' = false by decide)]

/-- At a bracket there is no further element. -/
theorem nextElement?_bracket (first : Bool) (rest : List Char) :
    nextElement? first (']' :: rest) = .ok none := by
  simp [nextElement?, skipBlank_cons (show isBlank ']' = false by decide)]

theorem readElements_bracket (first : Bool) (rest : List Char) :
    readElements r first (']' :: rest) = .ok ([], rest) := by
  rw [readElements, nextElement?_bracket]
  simp [closeArray_bracket]

/-- The first element follows the opening bracket. -/
theorem Reads.nextElement?_first (h : Reads r text a) (rest : List Char) :
    nextElement? true (text ++ rest) = .ok (some (text ++ rest)) := by
  have hskip := h.skipBlank_append rest
  obtain ⟨c, more, rfl, hc⟩ := h.opening
  have hclose : c ≠ ']' := isOpening_ne hc (by decide)
  rw [List.cons_append] at hskip ⊢
  simp [nextElement?, hskip, hclose]

/-- Every other element follows a comma. -/
theorem Reads.nextElement?_comma (h : Reads r text a) (rest : List Char) :
    nextElement? false (',' :: (text ++ rest)) = .ok (some (text ++ rest)) := by
  have hskip := h.skipBlank_append rest
  obtain ⟨c, more, rfl, hc⟩ := h.opening
  have hclose : c ≠ ']' := isOpening_ne hc (by decide)
  rw [List.cons_append] at hskip ⊢
  simp [nextElement?, skipBlank_cons (show isBlank ',' = false by decide), hskip, hclose]

/-- One element is read, and then the others. -/
theorem Reads.readElements_append (h : Reads r text a) {first : Bool} {start rest : List Char}
    (hstart : nextElement? first start = .ok (some (text ++ rest))) (hrest : Boundary rest) :
    readElements r first start
      = (readElements r false rest).map fun (as, final) => (a :: as, final) := by
  have hread := h.read_append rest hrest
  rw [readElements]
  split
  · -- the element is there, so the first two outcomes are excluded
    next heq => simp [hstart] at heq
  · next heq => simp [hstart] at heq
  · next s heq =>
    rw [hstart] at heq
    simp only [Except.ok.injEq, Option.some.injEq] at heq
    subst heq
    split
    · next heq => simp [hread] at heq
    · next heq =>
      rw [hread] at heq
      simp only [Except.ok.injEq, Prod.mk.injEq] at heq
      obtain ⟨rfl, rfl⟩ := heq
      cases readElements r false rest <;> rfl

/-- What follows an element is a comma or the closing bracket. -/
theorem boundary_elements (ts : List (List Char)) (rest : List Char) :
    Boundary (ts.flatMap (',' :: ·) ++ ']' :: rest) := by
  cases ts <;> simp

/-- The elements after the first one. -/
theorem readElements_following {ts : List (List Char)} {as : List α}
    (h : List.Forall₂ (Reads r) ts as) (rest : List Char) :
    readElements r false (ts.flatMap (',' :: ·) ++ ']' :: rest) = .ok (as, rest) := by
  induction h with
  | nil => exact readElements_bracket false rest
  | @cons t a ts as ht _ ih =>
    -- an element behind its comma, and then those after it
    rw [List.flatMap_cons, List.append_assoc, List.cons_append,
      ht.readElements_append (ht.nextElement?_comma _) (boundary_elements ts rest), ih]
    rfl

/-- A written array is read element by element. -/
theorem Reads.array {ts : List (List Char)} {as : List α} (h : List.Forall₂ (Reads r) ts as) :
    Reads r.array (list ts) as where
  opening := ⟨'[', _, rfl, by decide⟩
  read_append rest _ := by
    simp only [Reader.array, list, List.cons_append, List.append_assoc, List.nil_append,
      skipBlank_cons (show isBlank '[' = false by decide)]
    -- an array is closed at once, or goes on with its first element
    cases h with
    | nil => exact readElements_bracket true rest
    | @cons t a ts as ht hts =>
      rw [commaSeparated_cons, List.append_assoc,
        ht.readElements_append (ht.nextElement?_first _) (boundary_elements ts rest),
        readElements_following hts]
      rfl

end Json

end ClientMetrics
