import ClientMetrics.Proofs.Json.Grammar

/-!
# Values of one type

A reader takes the values of its type and refuses all others, whatever form their text has.
`Takes r view` says so: `view` yields what the reader makes of a value, or nothing.

A whole number is one that is written without a sign, a point and an exponent. Any other numeral is
evaluated as a double, also where its value is whole, and a double is no whole number.

Key results:
- `Numeral.value?_eq_integer_iff`: which numerals are evaluated as a natural number.
- `takes_text`, `takes_boolean`, `takes_word64`, `takes_word32`: the readers of each type.
- `Takes.map`, `Takes.optional`: what is made of a value, and values that may be `null`.
-/

namespace ClientMetrics

namespace Json

/-! ## What a value is worth -/

/-- The natural number below a bound that a numeral stands for. -/
def Numeral.natural? (bound : Nat) (n : Numeral) : Option Nat :=
  if n.negative = false ∧ n.fraction = none ∧ n.exponent = none ∧
      Nat.ofDigitChars 10 n.whole 0 < bound then
    some (Nat.ofDigitChars 10 n.whole 0)
  else none

namespace Value

/-- The content of a string that has one. -/
def text? : Value → Option String
  | string content => content
  | _ => none

/-- The truth value, if it is one. -/
def boolean? : Value → Option Bool
  | boolean b => some b
  | _ => none

/-- The natural number below a bound, if it is one. -/
def natural? (bound : Nat) : Value → Option Nat
  | number n => n.natural? bound
  | _ => none

/-- The number of 64 bits, if it is one. -/
def word64? (v : Value) : Option UInt64 := (v.natural? UInt64.size).map UInt64.ofNat

/-- The number of 32 bits, if it is one. -/
def word32? (v : Value) : Option UInt32 := (v.natural? UInt32.size).map UInt32.ofNat

/-- The value is `null`. -/
def isNull : Value → Bool
  | null => true
  | _ => false

/-- A value that may be `null` instead. -/
def optional? {α : Type} (view : Value → Option α) : Value → Option (Option α)
  | null => some none
  | v => (view v).map some

/-- What is made of `null` is nothing of the type. -/
theorem optional?_eq {α : Type} {view : Value → Option α} (h : view null = none) (v : Value) :
    optional? view v = if v.isNull || (view v).isSome then some (view v) else none := by
  -- the view decides about every value but `null`, which is always admitted
  cases v with
  | null => rw [h]; rfl
  | _ =>
    simp only [optional?, isNull, Bool.false_or]
    split
    · next hsome =>
      obtain ⟨a, ha⟩ := Option.isSome_iff_exists.1 hsome
      rw [ha]
      rfl
    · next hnone =>
      rw [Option.not_isSome_iff_eq_none.1 hnone]
      rfl

/-! Only a value of the type starts with its character. -/

/-- Only `null` starts with its first letter. -/
theorem eq_null {v : Value} (h : v.opens 'n') : v = null := by
  cases v with
  | null => rfl
  | boolean b => cases b <;> cases h
  | _ => cases h

/-- Only a truth value starts with the first letter of one, and that tells which. -/
theorem eq_boolean {v : Value} {c : Char} (h : v.opens c) (hc : c = 't' ∨ c = 'f') :
    v = boolean (c = 't') := by
  cases v with
  | boolean b => cases b <;> rcases hc with rfl | rfl <;> first | rfl | cases h
  | _ => rcases hc with rfl | rfl <;> cases h

/-- Only a string starts with a quote. -/
theorem exists_string {v : Value} (h : v.opens '"') : ∃ s, v = string s := by
  cases v with
  | string s => exact ⟨s, rfl⟩
  | boolean b => cases b <;> cases h
  | _ => cases h

/-- Only a number starts with a sign or a digit. -/
theorem exists_number {v : Value} {c : Char} (h : v.opens c) (hc : c = '-' ∨ c.isDigit) :
    ∃ n, v = number n := by
  have hne (d : Char) (hd : ¬(d = '-' ∨ d.isDigit)) : c ≠ d := by
    rintro rfl
    exact hd hc
  cases v with
  | number n => exact ⟨n, rfl⟩
  | boolean b => cases b <;> exact absurd (of_decide_eq_true h) (hne _ (by decide))
  | _ => exact absurd (of_decide_eq_true h) (hne _ (by decide))

end Value

/-- What a reader makes of a value, whatever form its text has. -/
structure Takes {α : Type} (r : Reader α) (view : Value → Option α) : Prop where
  blanks : ∀ b cs, Blanks b → r.read (b ++ cs) = r.read cs
  written : ∀ v t rest, Writes (.value v) t → Boundary rest →
    (r.read (t ++ rest)).toOption = (view v).map (·, rest)

section Takes

variable {α β : Type} {r : Reader α} {view : Value → Option α}

/-- Blanks around a value do not matter, but those after it are left. -/
theorem Takes.spaced (h : Takes r view) {v : Value} {t t' rest : List Char}
    (w : Writes (.value v) t) (spaced : Spaced t t') (hrest : Boundary rest) :
    ∃ after, Blanks after ∧
      (r.read (t' ++ rest)).toOption = (view v).map (·, after ++ rest) := by
  obtain ⟨before, after, hbefore, hafter, rfl⟩ := spaced
  refine ⟨after, hafter, ?_⟩
  rw [List.append_assoc, List.append_assoc, h.blanks _ _ hbefore,
    h.written _ _ _ w (hafter.boundary_append hrest)]

/-- What is made of a value is made of what the reader finds. -/
theorem Takes.map (h : Takes r view) (f : α → β) :
    Takes (r.map f) fun v => (view v).map f where
  blanks b cs hb := by simp only [Reader.map, h.blanks b cs hb]
  written v t rest w hrest := by
    have hmap : (r.map f).read (t ++ rest) = (r.read (t ++ rest)).map (Prod.map f id) := by
      simp only [Reader.map]
      cases r.read (t ++ rest) <;> rfl
    rw [hmap, toOption_map, h.written v t rest w hrest]
    cases view v <;> rfl

/-- What does not start as `null` does is read as a value. -/
theorem read_optional {c : Char} {cs : List Char} (hblank : isBlank c = false) (hc : c ≠ 'n') :
    r.optional.read (c :: cs) = (r.read (c :: cs)).map fun (a, rest) => (some a, rest) := by
  simp only [Reader.optional, skipBlank_cons hblank]
  split
  · next heq =>
    cases heq
    exact absurd rfl hc
  · cases r.read (c :: cs) <;> rfl

/-- A reader of a type takes `null` as well, where a value may be left out. -/
theorem Takes.optional (h : Takes r view) : Takes r.optional (Value.optional? view) where
  blanks b cs hb := by simp only [Reader.optional, hb.skipBlank_append]
  written v t rest w hrest := by
    have hread := h.written v t rest w hrest
    obtain ⟨c, more, rfl, hc⟩ := w.opening
    -- the first letter decides whether the text is `null` or a value of the type
    by_cases hnull : c = 'n'
    · rw [hnull] at hc
      obtain rfl := Value.eq_null hc
      cases w
      simp [Reader.optional, skipBlank, isBlank, expectWord, Value.optional?, Except.toOption]
    · have hview : Value.optional? view v = (view v).map some := by
        cases v with
        | null => exact absurd (of_decide_eq_true hc) hnull
        | _ => rfl
      rw [List.cons_append] at hread ⊢
      rw [read_optional (Value.isBlank_of_opens hc) hnull, toOption_map, hread, hview]
      cases view v <;> rfl

/-- A reader that reads the values of its own type, and refuses any other for its first character,
makes of each value what it should. -/
theorem Takes.of_type {own : Value → Prop}
    (blanks : ∀ b cs, Blanks b → r.read (b ++ cs) = r.read cs)
    (reads : ∀ v t rest, own v → Writes (.value v) t → Boundary rest →
      (r.read (t ++ rest)).toOption = (view v).map (·, rest))
    (refuses : ∀ v c cs, ¬own v → v.opens c → (r.read (c :: cs)).toOption = none)
    (other : ∀ v, ¬own v → view v = none) : Takes r view where
  blanks := blanks
  written v t rest w hrest := by
    by_cases hown : own v
    · exact reads v t rest hown w hrest
    · obtain ⟨c, more, rfl, hc⟩ := w.opening
      rw [List.cons_append, refuses v c _ hown hc, other v hown, Option.map_none]

end Takes

/-! ## Strings and truth values -/

/-- After a quote a string is read. -/
theorem read_text_quote (cs : List Char) :
    Reader.text.read ('"' :: cs) =
      (readString cs).map fun (s, rest) => (String.ofList s, rest) := by
  simp only [Reader.text, skipBlank_cons (show isBlank '"' = false by decide)]
  cases readString cs <;> rfl

/-- What does not start with a quote is no string. -/
theorem read_text_of_ne {c : Char} {cs : List Char} (hblank : isBlank c = false) (hc : c ≠ '"') :
    (Reader.text.read (c :: cs)).toOption = none := by
  simp only [Reader.text, skipBlank_cons hblank]
  split
  · next heq =>
    cases heq
    exact absurd rfl hc
  · rfl

/-- The reader of strings takes those that have a content. -/
theorem takes_text : Takes .text Value.text? := by
  apply @Takes.of_type _ _ _ fun v => ∃ s, v = .string s
  · intro b cs hb
    simp only [Reader.text, hb.skipBlank_append]
  · rintro _ t rest ⟨s, rfl⟩ w _
    cases w with
    | string w =>
      cases w with
      | @pieces ps proper =>
        rw [List.cons_append, List.cons_append, List.append_assoc, read_text_quote, toOption_map,
          List.singleton_append, readString_pieces proper, Value.text?]
        -- the content of a literal is that of its pieces, if none is half of a pair
        cases Piece.content? ps <;> rfl
  · intro v c cs hother hc
    have hquote : c ≠ '"' := by
      rintro rfl
      exact hother (Value.exists_string hc)
    exact read_text_of_ne (Value.isBlank_of_opens hc) hquote
  · intro v hother
    cases v with
    | string s => exact absurd ⟨s, rfl⟩ hother
    | _ => rfl

/-- What starts with another letter is no truth value. -/
theorem read_boolean_of_ne {c : Char} {cs : List Char} (hblank : isBlank c = false)
    (hc : ¬(c = 't' ∨ c = 'f')) : (Reader.boolean.read (c :: cs)).toOption = none := by
  simp only [Reader.boolean, skipBlank_cons hblank]
  -- the two letters that a truth value starts with are ruled out
  split
  · next heq =>
    cases heq
    exact absurd (.inl rfl) hc
  · next heq =>
    cases heq
    exact absurd (.inr rfl) hc
  · rfl

/-- The reader of truth values takes these. -/
theorem takes_boolean : Takes .boolean Value.boolean? := by
  -- blanks are passed over, truth values are read, and neither reader nor view takes anything else
  apply @Takes.of_type _ _ _ fun v => ∃ b, v = .boolean b
  · intro b cs hb
    simp only [Reader.boolean, hb.skipBlank_append]
  · rintro _ t rest ⟨b, rfl⟩ w hrest
    cases w
    rw [(reads_boolean b).read_append rest hrest]
    rfl
  · intro v c cs hother hc
    exact read_boolean_of_ne (Value.isBlank_of_opens hc)
      fun hletter => hother ⟨_, Value.eq_boolean hc hletter⟩
  · intro v hother
    cases v with
    | boolean b => exact absurd ⟨b, rfl⟩ hother
    | _ => rfl

/-! ## Whole numbers -/

/-- If no digit is left out, the whole number fits. -/
theorem le_maxWord_of_appendWhole {s : Nat} {ds : List Char} (hs : s ≤ maxWord)
    (h : (appendWhole s ds).2 = 0) : Nat.ofDigitChars 10 ds s ≤ maxWord := by
  induction ds generalizing s with
  | nil => simpa using hs
  | cons d ds ih =>
    rw [appendWhole] at h
    by_cases hfits : s * 10 + digitValue d ≤ maxWord
    · rw [if_pos hfits] at h
      have hstep : s * 10 + digitValue d = 10 * s + (d.toNat - '0'.toNat) := by
        rw [Nat.mul_comm]
        rfl
      rw [Nat.ofDigitChars_cons, ← hstep]
      exact ih hfits h
    · -- a digit that does not fit is left out, so not every digit counts
      rw [if_neg hfits] at h
      omega

/-- A numeral that is no whole number of 64 bits is evaluated as a double. -/
theorem Numeral.value?_ne_integer {n : Numeral} (h : n.isWord = false) (z : Int) :
    n.value? ≠ some (.integer z) := by
  simp [Numeral.value?, h]

/-- Whole numbers of 64 bits are written without point and exponent. -/
theorem Numeral.isWord_iff (n : Numeral) : n.isWord ↔
    n.fraction = none ∧ n.exponent = none ∧ Nat.ofDigitChars 10 n.whole 0 < UInt64.size := by
  have hmax : ∀ k, k < UInt64.size ↔ k ≤ maxWord := fun k => Nat.lt_iff_le_pred (by decide)
  have hfits : (appendWhole 0 n.whole).2 = 0 ↔ Nat.ofDigitChars 10 n.whole 0 < UInt64.size := by
    rw [hmax]
    -- no digit was left out exactly if the number fits into a word
    constructor
    · exact le_maxWord_of_appendWhole (Nat.zero_le _)
    · intro h
      rw [appendWhole_eq 0 n.whole h]
  simp [Numeral.isWord, ← hfits, and_assoc]

/-- The whole number that a numeral without point and exponent is evaluated to. -/
theorem Numeral.value?_of_isWord {n : Numeral} (h : n.isWord) (hsign : n.negative = false) :
    n.value? = some (.integer (Nat.ofDigitChars 10 n.whole 0)) := by
  obtain ⟨hfraction, -, hfits⟩ := n.isWord_iff.1 h
  have hwhole := appendWhole_eq 0 n.whole (Nat.le_pred_of_lt hfits)
  simp [Numeral.value?, Numeral.parts, h, hsign, hwhole, hfraction, appendFraction]

/-- A sign makes a number that is not natural, or a double. -/
theorem Numeral.value?_of_negative {n : Numeral} (hsign : n.negative) (k : Nat) :
    n.value? ≠ some (.integer k) := by
  unfold Numeral.value?
  simp only [hsign]
  split
  · next hexact =>
    simp at hexact ⊢
    omega
  · simp

/-- A numeral is evaluated as a natural number if it has no sign, no point and no exponent, and if
it fits into 64 bits. -/
theorem Numeral.value?_eq_integer_iff (n : Numeral) (k : Nat) :
    n.value? = some (.integer k) ↔ n.natural? UInt64.size = some k := by
  -- a numeral that is no word is read as a double, if at all
  by_cases hword : n.isWord
  · obtain ⟨hfraction, hexponent, hfits⟩ := n.isWord_iff.1 hword
    by_cases hsign : n.negative
    · simp [n.value?_of_negative hsign, Numeral.natural?, hsign]
    · rw [Bool.not_eq_true] at hsign
      rw [n.value?_of_isWord hword hsign, Numeral.natural?,
        if_pos ⟨hsign, hfraction, hexponent, hfits⟩, Option.some.injEq, Option.some.injEq,
        Number.integer.injEq, Int.natCast_inj]
  · have hnone : n.natural? UInt64.size = none := by
      rw [Numeral.natural?, if_neg]
      rintro ⟨-, h⟩
      exact hword (n.isWord_iff.2 h)
    simp [n.value?_ne_integer (Bool.eq_false_iff.2 hword), hnone]

/-- A bound is checked after the number was evaluated. -/
theorem Numeral.natural?_eq_some_iff {bound : Nat} (hbound : bound ≤ UInt64.size) (n : Numeral)
    (k : Nat) : n.natural? bound = some k ↔ n.value? = some (.integer k) ∧ k < bound := by
  rw [n.value?_eq_integer_iff, Numeral.natural?, Numeral.natural?]
  simp only [Option.ite_none_right_eq_some, Option.some.injEq]
  constructor
  · rintro ⟨⟨hsign, hfraction, hexponent, hlt⟩, rfl⟩
    exact ⟨⟨⟨hsign, hfraction, hexponent, Nat.lt_of_lt_of_le hlt hbound⟩, rfl⟩, hlt⟩
  · rintro ⟨⟨⟨hsign, hfraction, hexponent, -⟩, rfl⟩, hlt⟩
    exact ⟨⟨hsign, hfraction, hexponent, hlt⟩, rfl⟩

/-- What starts neither with a sign nor with a digit is no number. -/
theorem read_natural_of_ne {bound : Nat} {expected : String} {c : Char} {cs : List Char}
    (hblank : isBlank c = false) (hc : ¬(c = '-' ∨ c.isDigit)) :
    ((Reader.natural bound expected).read (c :: cs)).toOption = none := by
  simp only [Reader.natural, skipBlank_cons hblank, if_neg hc]
  rfl

/-- A numeral is read as a natural number below the bound, or refused. -/
theorem read_natural_number {bound : Nat} (expected : String) (hbound : bound ≤ UInt64.size)
    {n : Numeral} {t rest : List Char} (h : WritesNumeral n t) (hrest : Boundary rest) :
    ((Reader.natural bound expected).read (t ++ rest)).toOption =
      (n.natural? bound).map (·, rest) := by
  have hlex := lexNumber_written .endOfText h hrest
  obtain ⟨c, more, rfl, hc⟩ := h.opening
  -- the bound is that of the type, while a numeral is evaluated with all of 64 bits
  have hnone (hne : ∀ k : Nat, k < bound → n.value? ≠ some (.integer k)) :
      n.natural? bound = none := by
    rw [Option.eq_none_iff_forall_ne_some]
    intro k hk
    obtain ⟨hvalue, hlt⟩ := (n.natural?_eq_some_iff hbound k).1 hk
    exact hne k hlt hvalue
  rw [List.cons_append] at hlex ⊢
  simp only [Reader.natural, skipBlank_cons (isBlank_of_digit hc), if_pos hc, readNumber, hlex]
  cases hvalue : n.value? with
  | none =>
    rw [hnone (by simp [hvalue])]
    rfl
  | some x =>
    cases x with
    | decimal x =>
      rw [hnone (by simp [hvalue])]
      rfl
    | integer z =>
      -- what remains to be checked is the bound
      by_cases hz : 0 ≤ z ∧ z < bound
      · obtain ⟨k, rfl⟩ := Int.eq_ofNat_of_zero_le hz.1
        rw [(n.natural?_eq_some_iff hbound k).2 ⟨hvalue, by omega⟩]
        simp only [if_pos hz]
        rfl
      · have hout : n.natural? bound = none := by
          apply hnone
          intro k hk heq
          rw [hvalue] at heq
          cases heq
          omega
        simp only [if_neg hz, hout]
        rfl

/-- The reader of natural numbers takes those below its bound. -/
theorem takes_natural {bound : Nat} (expected : String) (hbound : bound ≤ UInt64.size) :
    Takes (.natural bound expected) (Value.natural? bound) := by
  -- blanks are passed over, numerals are read, and neither reader nor view takes anything else
  apply @Takes.of_type _ _ _ fun v => ∃ n, v = .number n
  · intro b cs hb
    simp only [Reader.natural, hb.skipBlank_append]
  · rintro _ t rest ⟨n, rfl⟩ w hrest
    cases w with
    | number w => exact read_natural_number expected hbound w hrest
  · intro v c cs hother hc
    exact read_natural_of_ne (Value.isBlank_of_opens hc)
      fun hdigit => hother (Value.exists_number hc hdigit)
  · intro v hother
    cases v with
    | number n => exact absurd ⟨n, rfl⟩ hother
    | _ => rfl

/-- The reader of numbers of 64 bits takes these. -/
theorem takes_word64 : Takes .word64 Value.word64? := (takes_natural "u64" (Nat.le_refl _)).map _

theorem takes_word32 : Takes .word32 Value.word32? := (takes_natural "u32" (by decide)).map _

end Json

end ClientMetrics
