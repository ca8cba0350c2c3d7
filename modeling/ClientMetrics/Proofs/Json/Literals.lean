import ClientMetrics.Proofs.Json.Values

/-!
# Literals in any form

A text has choices that its value does not show: blanks between its parts, escapes in its string
literals, the form of its exponents. Here are the literals in all their forms, and what is read of
each of them.

The content of a string literal is put together from its pieces, of which two that are halves of a
surrogate pair are one character. A literal may have no content, since half of a pair can stand
alone. It is refused where it is read, and passed over where it does not matter.

Key results:
- `skipString_pieces`: every string literal is passed over.
- `readString_pieces`: a string literal is read as its content, if it has one.
- `lexNumber_written`: a numeral is taken apart into what it was written from.
-/

namespace ClientMetrics

namespace Json

/-! ## Blanks -/

/-- Characters that only separate. -/
def Blanks (cs : List Char) : Prop := ∀ c ∈ cs, isBlank c

instance : DecidablePred Blanks := fun cs => List.decidableBAll (isBlank ·) cs

/-- A text with blanks around it, if any. -/
def Spaced (text spaced : List Char) : Prop :=
  ∃ before after, Blanks before ∧ Blanks after ∧ spaced = before ++ (text ++ after)

theorem Blanks.skipBlank_append {b : List Char} (h : Blanks b) (cs : List Char) :
    skipBlank (b ++ cs) = skipBlank cs :=
  List.dropWhile_append_of_pos h

/-- A numeral ends where a blank follows. -/
theorem Blanks.boundary_append {b rest : List Char} (h : Blanks b) (hrest : Boundary rest) :
    Boundary (b ++ rest) := by
  cases b with
  | nil => exact hrest
  | cons c b =>
    have hc : isBlank c = true := h c List.mem_cons_self
    simp only [isBlank, Bool.or_eq_true, decide_eq_true_eq] at hc
    apply boundary_cons
    rcases hc with ((rfl | rfl) | rfl) | rfl <;> decide

/-! ## String literals -/

/-- What a string literal consists of. -/
inductive Piece where
  | plain (c : Char)
  /-- A backslash and a letter. -/
  | short (c : Char)
  /-- `\u` and four digits, and the code unit that they stand for. -/
  | unit (digits : List Char) (code : Nat)

namespace Piece

/-- What is written for a piece. -/
def text : Piece → List Char
  | plain c => [c]
  | short c => ['\\', c]
  | unit digits _ => '\\' :: 'u' :: digits

/-- A piece may be written so: no character that needs an escape stands for itself, a letter has a
meaning behind a backslash, and four digits are read as the code unit. -/
def IsProper : Piece → Prop
  | plain c => c ≠ '"' ∧ c ≠ '\\' ∧ 0x20 ≤ c.toNat
  | short c => (shortEscape? c).isSome
  | unit digits code => digits.length = 4 ∧ Text.Hex.number? digits = some code

instance : DecidablePred IsProper
  | plain _ => inferInstanceAs (Decidable (_ ∧ _ ∧ _))
  | short c => inferInstanceAs (Decidable ((shortEscape? c).isSome = true))
  | unit _ _ => inferInstanceAs (Decidable (_ ∧ _))

/-- The characters that some pieces stand for. Two code units that are a pair stand for one, and
neither stands for anything without the other. -/
def content? : List Piece → Option (List Char)
  | [] => some []
  | plain c :: ps => (content? ps).map (c :: ·)
  | short c :: ps => (shortEscape? c).bind fun c => (content? ps).map (c :: ·)
  | unit _ code :: ps =>
    if isLowSurrogate code then none
    else if isHighSurrogate code then
      match ps with
      | unit _ second :: ps =>
        if isLowSurrogate second then (content? ps).map (pairedChar code second :: ·) else none
      | _ => none
    else (content? ps).map (Char.ofNat code :: ·)

end Piece

/-- A text is a string literal with the given content. -/
inductive WritesLiteral : Option String → List Char → Prop where
  | pieces {ps : List Piece} (proper : ∀ p ∈ ps, p.IsProper) :
    WritesLiteral ((Piece.content? ps).map String.ofList) ('"' :: ps.flatMap Piece.text ++ ['"'])

/-- A text in which nothing needs an escape stands for itself. -/
theorem WritesLiteral.plain {s : String} (h : s.toList.all fun c => (Piece.plain c).IsProper) :
    WritesLiteral (some s) ('"' :: s.toList ++ ['"']) := by
  have hcontent (cs : List Char) : Piece.content? (cs.map .plain) = some cs := by
    induction cs with
    | nil => rfl
    | cons c cs ih => rw [List.map_cons, Piece.content?, ih, Option.map_some]
  have htext (cs : List Char) : (cs.map Piece.plain).flatMap Piece.text = cs := by
    induction cs with
    | nil => rfl
    | cons c cs ih => rw [List.map_cons, List.flatMap_cons, ih, Piece.text, List.singleton_append]
  -- the text as pieces of one character each
  have hproper : ∀ p ∈ s.toList.map Piece.plain, p.IsProper := by
    intro p hp
    obtain ⟨c, hc, rfl⟩ := List.mem_map.1 hp
    exact of_decide_eq_true (List.all_eq_true.1 h c hc)
  have hwrites := WritesLiteral.pieces hproper
  rwa [hcontent, htext, Option.map_some, String.ofList_toList] at hwrites

/-- Four digits are read as the number that they stand for. -/
theorem readHex4_digits {digits : List Char} {code : Nat} (hlength : digits.length = 4)
    (hcode : Text.Hex.number? digits = some code) (rest : List Char) :
    readHex4 (digits ++ rest) = .ok (code, rest) := by
  match digits, hlength with
  | [a, b, c, d], _ =>
    simp only [Text.Hex.number?, List.foldlM_cons, List.foldlM_nil] at hcode
    cases ha : Text.Hex.value? a <;> cases hb : Text.Hex.value? b <;>
      cases hc : Text.Hex.value? c <;> cases hd : Text.Hex.value? d <;>
      simp [ha, hb, hc, hd] at hcode
    -- both sides are sums of the same products, one of them from the left
    subst hcode
    simp only [List.cons_append, List.nil_append, readHex4, ha, hb, hc, hd, Except.ok.injEq,
      Prod.mk.injEq, and_true]
    omega

/-- A literal is passed over behind an escape that is. -/
theorem skipString_of_skipEscape {cs rest : List Char} (h : skipEscape cs = .ok rest) :
    skipString ('\\' :: cs) = skipString rest := by
  rw [skipString]
  split
  · next heq => simp [h] at heq
  · next heq =>
    rw [h] at heq
    simp only [Except.ok.injEq] at heq
    rw [heq]

/-- Every piece of a literal can be passed over. -/
theorem skipString_piece {p : Piece} (h : p.IsProper) (rest : List Char) :
    skipString (p.text ++ rest) = skipString rest := by
  -- a plain character is passed over, and an escape together with its backslash
  cases p with
  | plain c =>
    obtain ⟨hquote, hbackslash, hcontrol⟩ := h
    rw [Piece.text, List.singleton_append, skipString]
    · rw [if_neg (by omega)]
    · simpa using hquote
    · simpa using hbackslash
  | short c =>
    have hsome : (shortEscape? c).isSome := h
    have hu : c ≠ 'u' := by
      rintro rfl
      exact absurd hsome (by decide)
    apply skipString_of_skipEscape
    unfold skipEscape
    split
    · next heq => simp at heq
    · next heq => simp_all
    · next heq =>
      cases heq
      rw [if_pos hsome]
      rfl
  | unit digits code =>
    obtain ⟨hlength, hcode⟩ := h
    apply skipString_of_skipEscape
    simp [skipEscape, readHex4_digits hlength hcode, Except.map]

/-- Every string literal is passed over, with or without a content. -/
theorem skipString_pieces {ps : List Piece} (h : ∀ p ∈ ps, p.IsProper) (rest : List Char) :
    skipString (ps.flatMap Piece.text ++ '"' :: rest) = .ok rest := by
  induction ps with
  | nil => simp [skipString]
  | cons p ps ih =>
    obtain ⟨hp, hps⟩ := List.forall_mem_cons.1 h
    rw [List.flatMap_cons, List.append_assoc, skipString_piece hp, ih hps]

/-! Reading a literal -/

section Pieces

variable {digits digits' : List Char} {code second : Nat} {c d : Char}

/-- A character that stands for itself is read as it is. -/
theorem readString_plain (h : (Piece.plain c).IsProper) (rest : List Char) :
    readString (c :: rest) = (readString rest).map fun (s, final) => (c :: s, final) := by
  obtain ⟨hquote, hbackslash, hcontrol⟩ := h
  rw [readString]
  · rw [if_neg (by omega)]
    cases readString rest <;> rfl
  · simpa using hquote
  · simpa using hbackslash

/-- A letter behind a backslash is read as what it stands for. -/
theorem readString_short (h : shortEscape? c = some d) (rest : List Char) :
    readString ('\\' :: c :: rest) =
      (readString rest).map fun (s, final) => (d :: s, final) := by
  apply readString_of_readEscape
  -- a short escape is neither the end of the text nor a code unit
  unfold readEscape
  split
  · next heq => cases heq
  · next heq =>
    cases heq
    cases h
  · next heq =>
    cases heq
    rw [h]

/-- A literal is refused where an escape is. -/
theorem readString_of_readEscape_error {cs : List Char} {p : Problem}
    (h : readEscape cs = .error p) : readString ('\\' :: cs) = .error p := by
  rw [readString]
  split
  · next heq =>
    rw [h] at heq
    simpa using heq.symm
  · next heq => simp [h] at heq

/-- A code unit that is no half of a pair is a character. -/
theorem readString_character (h : (Piece.unit digits code).IsProper)
    (hlow : ¬isLowSurrogate code) (hhigh : ¬isHighSurrogate code) (rest : List Char) :
    readString ('\\' :: 'u' :: (digits ++ rest)) =
      (readString rest).map fun (s, final) => (Char.ofNat code :: s, final) := by
  apply readString_of_readEscape
  simp [readEscape, readUnicodeEscape, readHex4_digits h.1 h.2, hlow, hhigh]

/-- The two halves of a pair are one character. -/
theorem readString_pair (h : (Piece.unit digits code).IsProper)
    (h' : (Piece.unit digits' second).IsProper) (hlow : ¬isLowSurrogate code)
    (hhigh : isHighSurrogate code) (hsecond : isLowSurrogate second) (rest : List Char) :
    readString ('\\' :: 'u' :: (digits ++ '\\' :: 'u' :: (digits' ++ rest))) =
      (readString rest).map fun (s, final) => (pairedChar code second :: s, final) := by
  apply readString_of_readEscape
  simp [readEscape, readUnicodeEscape, readHex4_digits h.1 h.2, readHex4_digits h'.1 h'.2, hlow,
    hhigh, hsecond]

/-- The second half of a pair is refused where no first one stands before it. -/
theorem readString_low (h : (Piece.unit digits code).IsProper) (hlow : isLowSurrogate code)
    (rest : List Char) :
    readString ('\\' :: 'u' :: (digits ++ rest)) = .error .malformed := by
  apply readString_of_readEscape_error
  simp [readEscape, readUnicodeEscape, readHex4_digits h.1 h.2, hlow]

/-- The first half of a pair is refused where another code unit than a second one follows. -/
theorem readString_unpaired (h : (Piece.unit digits code).IsProper)
    (h' : (Piece.unit digits' second).IsProper) (hlow : ¬isLowSurrogate code)
    (hhigh : isHighSurrogate code) (hsecond : ¬isLowSurrogate second) (rest : List Char) :
    readString ('\\' :: 'u' :: (digits ++ '\\' :: 'u' :: (digits' ++ rest))) =
      .error .malformed := by
  apply readString_of_readEscape_error
  simp [readEscape, readUnicodeEscape, readHex4_digits h.1 h.2, readHex4_digits h'.1 h'.2, hlow,
    hhigh, hsecond]

/-- The first half of a pair is refused where no code unit follows. -/
theorem readString_high {rest : List Char} (h : (Piece.unit digits code).IsProper)
    (hlow : ¬isLowSurrogate code) (hhigh : isHighSurrogate code)
    (hrest : c ≠ '\\' ∨ ∃ d more, rest = d :: more ∧ d ≠ 'u') :
    readString ('\\' :: 'u' :: (digits ++ c :: rest)) = .error .malformed := by
  apply readString_of_readEscape_error
  simp only [readEscape, readUnicodeEscape, readHex4_digits h.1 h.2, hlow, hhigh]
  rcases hrest with hc | ⟨d, more, rfl, hd⟩
  · simp [hc]
  · simp [hd]

end Pieces

/-- What stands after a piece that is no code unit cannot complete a pair. -/
theorem exists_not_unit {ps : List Piece} (h : ∀ p ∈ ps, p.IsProper)
    (hunit : ∀ digits code more, ps ≠ .unit digits code :: more) (rest : List Char) :
    ∃ c more, ps.flatMap Piece.text ++ '"' :: rest = c :: more ∧
      (c ≠ '\\' ∨ ∃ d rest, more = d :: rest ∧ d ≠ 'u') := by
  cases ps with
  | nil => exact ⟨'"', rest, rfl, .inl (by decide)⟩
  | cons p ps =>
    have hp := h p List.mem_cons_self
    cases p with
    | plain c => exact ⟨c, _, rfl, .inl hp.2.1⟩
    | short c =>
      refine ⟨'\\', _, rfl, .inr ⟨c, _, rfl, ?_⟩⟩
      -- the letter that announces a code unit is no short escape
      rintro rfl
      simp [Piece.IsProper, shortEscape?] at hp
    | unit digits code => exact absurd rfl (hunit digits code ps)

/-- What is made of a result does not matter where it is refused. -/
theorem toOption_map {α β : Type} (f : α → β) (x : Except Problem α) :
    (x.map f).toOption = x.toOption.map f := by
  cases x <;> rfl

/-- A string literal after its opening quote is read as its content, and refused if it has none. -/
theorem readString_pieces {ps : List Piece} (h : ∀ p ∈ ps, p.IsProper) (rest : List Char) :
    (readString (ps.flatMap Piece.text ++ '"' :: rest)).toOption =
      (Piece.content? ps).map (·, rest) := by
  -- a character that was read stands before what the other pieces stand for
  have before (c : Char) (s : Option (List Char)) :
      (s.map (·, rest)).map (fun (s, final) => (c :: s, final)) =
        (s.map (c :: ·)).map (·, rest) := by
    cases s <;> rfl
  -- one case for each way to go on, where a pair is taken as a whole
  induction ps using Piece.content?.induct with
  | case1 => simp [readString, Piece.content?, Except.toOption]
  | case2 c ps ih =>
    obtain ⟨hp, hps⟩ := List.forall_mem_cons.1 h
    simp only [List.flatMap_cons, Piece.text, List.cons_append, List.nil_append]
    rw [readString_plain hp, toOption_map, ih hps, before, Piece.content?]
  | case3 c ps ih =>
    obtain ⟨hp, hps⟩ := List.forall_mem_cons.1 h
    obtain ⟨d, hd⟩ := Option.isSome_iff_exists.1 hp
    simp only [List.flatMap_cons, Piece.text, List.cons_append, List.nil_append]
    rw [readString_short hd, toOption_map, ih hps, before, Piece.content?, hd, Option.bind_some]
  | case4 digits code ps hlow =>
    obtain ⟨hp, hps⟩ := List.forall_mem_cons.1 h
    simp only [List.flatMap_cons, Piece.text, List.cons_append, List.append_assoc]
    rw [readString_low hp hlow, Piece.content?.eq_def]
    simp only [if_pos hlow]
    rfl
  | case5 digits code hlow hhigh digits' second ps hsecond ih =>
    obtain ⟨hp, hp', hps⟩ := by simpa using h
    simp only [List.flatMap_cons, Piece.text, List.cons_append, List.append_assoc]
    rw [readString_pair hp hp' hlow hhigh hsecond, toOption_map, ih hps, before, Piece.content?,
      if_neg hlow, if_pos hhigh, if_pos hsecond]
  | case6 digits code hlow hhigh digits' second ps hsecond =>
    obtain ⟨hp, hp', hps⟩ := by simpa using h
    simp only [List.flatMap_cons, Piece.text, List.cons_append, List.append_assoc]
    rw [readString_unpaired hp hp' hlow hhigh hsecond, Piece.content?, if_neg hlow, if_pos hhigh,
      if_neg hsecond]
    rfl
  | case7 digits code ps hlow hhigh hunit =>
    obtain ⟨hp, hps⟩ := List.forall_mem_cons.1 h
    obtain ⟨c, more, htext, hc⟩ := exists_not_unit hps hunit rest
    simp only [List.flatMap_cons, Piece.text, List.cons_append, List.append_assoc]
    rw [htext, readString_high hp hlow hhigh hc, Piece.content?, if_neg hlow, if_pos hhigh]
    · rfl
    · exact hunit
  | case8 digits code ps hlow hhigh ih =>
    obtain ⟨hp, hps⟩ := List.forall_mem_cons.1 h
    simp only [List.flatMap_cons, Piece.text, List.cons_append, List.append_assoc]
    have hcontent : Piece.content? (.unit digits code :: ps) =
        (Piece.content? ps).map (Char.ofNat code :: ·) := by
      rw [Piece.content?.eq_def]
      simp only [if_neg hlow, if_neg hhigh]
    rw [readString_character hp hlow hhigh, toOption_map, ih hps, before, hcontent]

/-! ## Numerals -/

/-- The digits after the point. -/
inductive WritesFraction : Option (List Char) → List Char → Prop where
  | absent : WritesFraction none []
  | digits {ds : List Char} (digits : IsDigits ds) : WritesFraction (some ds) ('.' :: ds)

/-- The sign and the digits of the exponent. -/
inductive WritesExponent : Option (Bool × List Char) → List Char → Prop where
  | absent : WritesExponent none []
  | unsigned {letter : Char} {ds : List Char} (begins : letter = 'e' ∨ letter = 'E')
    (digits : IsDigits ds) : WritesExponent (some (false, ds)) (letter :: ds)
  | signed {letter : Char} {ds : List Char} (negative : Bool)
    (begins : letter = 'e' ∨ letter = 'E') (digits : IsDigits ds) :
    WritesExponent (some (negative, ds)) (letter :: (if negative then '-' else '+') :: ds)

/-- A text is a numeral with the given parts. No zero stands before other digits. -/
inductive WritesNumeral : Numeral → List Char → Prop where
  | parts (negative : Bool) {whole f e : List Char} {fraction : Option (List Char)}
    {exponent : Option (Bool × List Char)} (digits : IsDigits whole)
    (zero : whole.head? = some '0' → whole = ['0']) (hf : WritesFraction fraction f)
    (he : WritesExponent exponent e) :
    WritesNumeral ⟨negative, whole, fraction, exponent⟩
      ((if negative then ['-'] else []) ++ (whole ++ (f ++ e)))

/-- Digits start with a digit. -/
theorem IsDigits.exists_cons {ds : List Char} (h : IsDigits ds) :
    ∃ d more, ds = d :: more ∧ d.isDigit = true := by
  obtain ⟨d, more, rfl⟩ := List.exists_cons_of_ne_nil h.1
  exact ⟨d, more, rfl, h.2 d List.mem_cons_self⟩

/-- Digits have no sign before them. -/
theorem readSign_digits {ds : List Char} (h : IsDigits ds) (rest : List Char) :
    readSign (ds ++ rest) = (false, ds ++ rest) := by
  obtain ⟨d, more, rfl, hd⟩ := h.exists_cons
  -- neither of the two signs is a digit
  unfold readSign
  split
  · next heq =>
    cases heq
    exact absurd hd (by decide)
  · next heq =>
    cases heq
    exact absurd hd (by decide)
  · rfl

/-- An exponent is read as it was written, however its sign was. -/
theorem readExponent_written (cut : Problem) {exponent : Option (Bool × List Char)}
    {e rest : List Char} (h : WritesExponent exponent e) (hrest : Boundary rest) :
    readExponent cut (e ++ rest) = .ok (exponent, rest) := by
  -- there is no exponent, or one without a sign, or one with a sign
  cases h with
  | absent => exact readExponent_boundary cut hrest
  | unsigned begins digits =>
    simp only [List.cons_append, readExponent, if_pos begins, readSign_digits digits,
      readDigits_append cut digits hrest.isDigit_head?]
  | signed negative begins digits =>
    cases negative <;> simp [readExponent, begins, readSign,
      readDigits_append cut digits hrest.isDigit_head?]

/-- What follows the digits after the point. -/
theorem WritesExponent.boundary {exponent : Option (Bool × List Char)} {e rest : List Char}
    (h : WritesExponent exponent e) (hrest : Boundary rest) :
    ∀ c ∈ (e ++ rest).head?, c.isDigit = false ∧ c ≠ '.' := by
  have letter {c : Char} (begins : c = 'e' ∨ c = 'E') : c.isDigit = false ∧ c ≠ '.' := by
    rcases begins with rfl | rfl <;> decide
  -- the letter of an exponent is no digit and no point, and neither is what ends a numeral
  intro c hc
  cases h with
  | absent =>
    obtain ⟨more, hmore⟩ := List.head?_eq_some_iff.1 hc
    exact ⟨(hrest c more hmore).1, (hrest c more hmore).2.1⟩
  | unsigned begins digits =>
    cases hc
    exact letter begins
  | signed negative begins digits =>
    cases hc
    exact letter begins

/-- The digits after the point are read as they were written, if any. -/
theorem readFraction_written (cut : Problem) {fraction : Option (List Char)} {f rest : List Char}
    (h : WritesFraction fraction f) (hrest : ∀ c ∈ rest.head?, c.isDigit = false ∧ c ≠ '.') :
    readFraction cut (f ++ rest) = .ok (fraction, rest) := by
  -- without a point there is no fraction to read
  cases h with
  | absent =>
    unfold readFraction
    split
    · next heq =>
      have hpoint := (hrest '.' (by rw [List.nil_append] at heq; rw [heq]; rfl)).2
      exact absurd rfl hpoint
    · rfl
  | digits digits =>
    simp only [List.cons_append, readFraction,
      readDigits_append cut digits fun c hc => (hrest c hc).1]

/-- A numeral is taken apart into what it was written from. -/
theorem lexNumber_written (cut : Problem) {n : Numeral} {text rest : List Char}
    (h : WritesNumeral n text) (hrest : Boundary rest) :
    lexNumber cut (text ++ rest) = .ok (n, rest) := by
  cases h with
  | @parts negative whole f e fraction exponent digits zero hf he =>
    have hexponent := he.boundary hrest
    -- digits end at the point, at the exponent, or where the numeral does
    have hwhole : ∀ c ∈ (f ++ (e ++ rest)).head?, c.isDigit = false := by
      intro c hc
      cases hf with
      | absent => exact (hexponent c hc).1
      | digits digits =>
        cases hc
        decide
    have hminus : readMinus ((if negative then ['-'] else []) ++ (whole ++ (f ++ e)) ++ rest) =
        (negative, whole ++ (f ++ (e ++ rest))) := by
      cases negative with
      | true => simp [readMinus]
      | false =>
        obtain ⟨d, more, rfl, hd⟩ := digits.exists_cons
        simp only [Bool.false_eq_true, if_false, List.nil_append, List.cons_append,
          List.append_assoc]
        unfold readMinus
        split
        · next heq =>
          cases heq
          exact absurd hd (by decide)
        · rfl
    simp only [lexNumber, hminus, readWhole_append cut digits zero hwhole,
      readFraction_written cut hf hexponent, readExponent_written cut he hrest]

/-- What a numeral starts with is not passed over as a blank. -/
theorem isBlank_of_digit {c : Char} (h : c = '-' ∨ c.isDigit) : isBlank c = false := by
  rcases h with rfl | h
  · rfl
  · exact isBlank_of_isOpening (by simp [isOpening, h])

/-- A numeral starts with a digit or with its sign. -/
theorem WritesNumeral.opening {n : Numeral} {text : List Char} (h : WritesNumeral n text) :
    ∃ c more, text = c :: more ∧ (c = '-' ∨ c.isDigit) := by
  cases h with
  | parts negative digits zero hf he =>
    cases negative with
    | true => exact ⟨'-', _, rfl, .inl rfl⟩
    | false =>
      obtain ⟨d, more, rfl, hd⟩ := digits.exists_cons
      exact ⟨d, _, rfl, .inr hd⟩

end Json

end ClientMetrics
