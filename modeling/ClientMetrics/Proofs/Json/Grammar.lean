import ClientMetrics.Proofs.Json.Literals

/-!
# What a text denotes

`Value` is a JSON value without the blanks and the choices that a text has in writing it, and
`Writes` relates a value to each of its texts. Two things are kept that are no part of a value
elsewhere: a number keeps its digits, since a reader tells `1` from `1.0`, and a string may have no
content.

Whatever is written can be passed over, however deeply it is nested. The arrays and objects around
a value are left as they are.

Key results:
- `Writes.opening`: the first character of a value tells its type.
- `Writes.skipped`: a value is passed over, whatever it contains.
-/

namespace ClientMetrics

namespace Json

/-- A JSON value. -/
inductive Value where
  | null
  | boolean (value : Bool)
  | number (numeral : Numeral)
  /-- A literal without content names half of a surrogate pair. -/
  | string (content : Option String)
  | array (elements : List Value)
  /-- Names may repeat. -/
  | object (members : List (Option String × Value))

/-- What a stretch of text can stand for. -/
inductive Part where
  | value (v : Value)
  /-- What stands between the brackets of an array. -/
  | elements (vs : List Value)
  | member (m : Option String × Value)
  /-- What stands between the braces of an object. -/
  | members (ms : List (Option String × Value))

/-- A text stands for a value, or for what an array or object holds. -/
inductive Writes : Part → List Char → Prop where
  | null : Writes (.value .null) ['n', 'u', 'l', 'l']
  | boolean (b : Bool) : Writes (.value (.boolean b)) (boolean b)
  | number {n : Numeral} {t : List Char} (h : WritesNumeral n t) : Writes (.value (.number n)) t
  | string {s : Option String} {t : List Char} (h : WritesLiteral s t) :
    Writes (.value (.string s)) t
  | array {vs : List Value} {t : List Char} (h : Writes (.elements vs) t) :
    Writes (.value (.array vs)) ('[' :: (t ++ [']']))
  | object {ms : List (Option String × Value)} {t : List Char} (h : Writes (.members ms) t) :
    Writes (.value (.object ms)) ('{' :: (t ++ ['}']))
  | noElements {t : List Char} (blanks : Blanks t) : Writes (.elements []) t
  | lastElement {v : Value} {t t' : List Char} (h : Writes (.value v) t) (spaced : Spaced t t') :
    Writes (.elements [v]) t'
  | moreElements {v w : Value} {vs : List Value} {t t' ts : List Char} (h : Writes (.value v) t)
    (spaced : Spaced t t') (hs : Writes (.elements (w :: vs)) ts) :
    Writes (.elements (v :: w :: vs)) (t' ++ ',' :: ts)
  | member {name : Option String} {v : Value} {n n' t t' : List Char} (hn : WritesLiteral name n)
    (spaced : Spaced n n') (h : Writes (.value v) t) (spaced' : Spaced t t') :
    Writes (.member (name, v)) (n' ++ ':' :: t')
  | noMembers {t : List Char} (blanks : Blanks t) : Writes (.members []) t
  | lastMember {m : Option String × Value} {t : List Char} (h : Writes (.member m) t) :
    Writes (.members [m]) t
  | moreMembers {m m' : Option String × Value} {ms : List (Option String × Value)}
    {t ts : List Char} (h : Writes (.member m) t) (hs : Writes (.members (m' :: ms)) ts) :
    Writes (.members (m :: m' :: ms)) (t ++ ',' :: ts)

/-! ## First characters -/

/-- The characters with which a value starts. -/
def Value.opens : Value → Char → Bool
  | null, c => c = 'n'
  | boolean true, c => c = 't'
  | boolean false, c => c = 'f'
  | number _, c => c = '-' || c.isDigit
  | string _, c => c = '"'
  | array _, c => c = '['
  | object _, c => c = '{'

/-- The first character of a value tells its type. -/
theorem Writes.opening {v : Value} {t : List Char} (h : Writes (.value v) t) :
    ∃ c more, t = c :: more ∧ v.opens c := by
  -- each kind of value has an opening of its own
  cases h with
  | null => exact ⟨'n', _, rfl, rfl⟩
  | boolean b => cases b <;> exact ⟨_, _, rfl, rfl⟩
  | number h =>
    obtain ⟨c, more, rfl, hc⟩ := h.opening
    exact ⟨c, more, rfl, by simpa [Value.opens] using hc⟩
  | string h =>
    cases h with
    | pieces proper => exact ⟨'"', _, rfl, rfl⟩
  | array h => exact ⟨'[', _, rfl, rfl⟩
  | object h => exact ⟨'{', _, rfl, rfl⟩

/-- No value starts with a blank or with what closes an array or an object. -/
theorem Value.opens_eq_false (v : Value) {c : Char}
    (h : c ∈ [' ', '\n', '\t', '\r', ']', '}']) : v.opens c = false := by
  simp only [List.mem_cons, List.not_mem_nil, or_false] at h
  cases v with
  | boolean b => cases b <;> (rcases h with rfl | rfl | rfl | rfl | rfl | rfl <;> rfl)
  | _ => rcases h with rfl | rfl | rfl | rfl | rfl | rfl <;> rfl

theorem Value.ne_of_opens {v : Value} {c d : Char} (h : v.opens c)
    (hd : d ∈ [' ', '\n', '\t', '\r', ']', '}']) : c ≠ d := by
  rintro rfl
  simp [v.opens_eq_false hd] at h

theorem Value.isBlank_of_opens {v : Value} {c : Char} (h : v.opens c) : isBlank c = false := by
  simp [isBlank, ne_of_opens h]

/-- There are no blanks in front of a value. -/
theorem Writes.skipBlank_append {v : Value} {t : List Char} (h : Writes (.value v) t)
    (rest : List Char) : skipBlank (t ++ rest) = t ++ rest := by
  obtain ⟨c, more, rfl, hc⟩ := h.opening
  exact skipBlank_cons (Value.isBlank_of_opens hc)

/-! ## Steps of passing over

The four functions that pass over values only look at what follows the blanks. -/

section Steps

variable {frame : Frame} {frames : List Frame} {c : Char} {cs rest final : List Char}

/-- A value is an array, an object, or something that is passed over in one go. -/
theorem skipValueIn_eq : skipValueIn frames cs =
    match skipBlank cs with
    | [] => .error .endOfText
    | '[' :: rest => skipFirst .array frames rest
    | '{' :: rest => skipFirst .object frames rest
    | c :: rest =>
      match skipScalar c rest with
      | .error p => .error p
      | .ok rest => skipClosing frames rest := by
  rw [skipValueIn]
  -- the definition carries proofs that the text gets shorter, which are left out here
  split
  · next h => simp only [h]
  · next h => simp only [h]
  · next h => simp only [h]
  · next h =>
    simp only [h]
    split <;> simp_all

/-- What an opening bracket is followed by is its closing one, or something in between. -/
theorem skipFirst_eq : skipFirst frame frames cs =
    match skipBlank cs with
    | [] => .error .endOfText
    | c :: rest =>
      if c = frame.closing then skipClosing frames rest else skipPart frame frames cs := by
  rw [skipFirst]
  split <;> simp_all

/-- What an array holds next is a value. -/
theorem skipPart_array : skipPart .array frames cs = skipValueIn (.array :: frames) cs := by
  rw [skipPart]

/-- What an object holds next is a name and then a value. -/
theorem skipPart_object (h : skipName cs = .ok rest) :
    skipPart .object frames cs = skipValueIn (.object :: frames) rest := by
  rw [skipPart.eq_def]
  split
  · contradiction
  · split <;> simp_all

/-- After a value comes a comma or the closing bracket of the frame around it. -/
theorem skipClosing_eq : skipClosing (frame :: frames) cs =
    match skipBlank cs with
    | [] => .error .endOfText
    | c :: rest =>
      if c = ',' then skipPart frame frames rest
      else if c = frame.closing then skipClosing frames rest
      else .error .malformed := by
  rw [skipClosing]
  split <;> simp_all

/-- Blanks after a value do not count. -/
theorem skipClosing_blanks {b : List Char} (h : Blanks b) :
    skipClosing (frame :: frames) (b ++ cs) = skipClosing (frame :: frames) cs := by
  rw [skipClosing_eq, skipClosing_eq, h.skipBlank_append]

/-- A comma is followed by what the frame holds next. -/
theorem skipClosing_comma :
    skipClosing (frame :: frames) (',' :: cs) = skipPart frame frames cs := by
  rw [skipClosing_eq, skipBlank_cons (by decide)]
  rfl

/-- A closing bracket leads back to the frame around it. -/
theorem skipClosing_closing :
    skipClosing (frame :: frames) (frame.closing :: cs) = skipClosing frames cs := by
  rw [skipClosing_eq]
  cases frame <;> simp [Frame.closing, skipBlank, isBlank]

/-- A frame may be closed at once, with blanks in between. -/
theorem skipFirst_closing {b : List Char} (h : Blanks b) :
    skipFirst frame frames (b ++ frame.closing :: cs) = skipClosing frames cs := by
  rw [skipFirst_eq, h.skipBlank_append]
  cases frame <;> simp [Frame.closing, skipBlank, isBlank]

/-- A frame that is not closed at once holds something. -/
theorem skipFirst_part (h : skipBlank cs = c :: rest) (hc : c ≠ frame.closing) :
    skipFirst frame frames cs = skipPart frame frames cs := by
  simp only [skipFirst_eq, h, if_neg hc]

/-- Blanks before a value do not count. -/
theorem skipValueIn_blanks {b : List Char} (h : Blanks b) :
    skipValueIn frames (b ++ cs) = skipValueIn frames cs := by
  rw [skipValueIn_eq, skipValueIn_eq, h.skipBlank_append]

/-- An array starts with its bracket. -/
theorem skipValueIn_array : skipValueIn frames ('[' :: cs) = skipFirst .array frames cs := by
  simp only [skipValueIn_eq, skipBlank_cons (show isBlank '[' = false by decide)]

/-- An object starts with its brace. -/
theorem skipValueIn_object : skipValueIn frames ('{' :: cs) = skipFirst .object frames cs := by
  simp only [skipValueIn_eq, skipBlank_cons (show isBlank '{' = false by decide)]

/-- Any other value is passed over in one go, and then comes what follows it. -/
theorem skipValueIn_scalar (hc : isBlank c = false) (harray : c ≠ '[') (hobject : c ≠ '{')
    (hscalar : skipScalar c cs = .ok rest) :
    skipValueIn frames (c :: cs) = skipClosing frames rest := by
  rw [skipValueIn_eq, skipBlank_cons hc]
  simp [hscalar]

end Steps

/-! ## Names -/

/-- A literal starts with a quote. -/
theorem WritesLiteral.opening {name : Option String} {t : List Char} (h : WritesLiteral name t) :
    ∃ more, t = '"' :: more := by
  cases h with
  | pieces proper => exact ⟨_, rfl⟩

/-- Blanks before a colon do not count. -/
theorem expectColon_spaced {after : List Char} (h : Blanks after) (rest : List Char) :
    expectColon (after ++ ':' :: rest) = .ok rest := by
  simp [expectColon, h.skipBlank_append, skipBlank_cons (show isBlank ':' = false by decide)]

/-- A name is passed over with the colon after it. -/
theorem skipName_written {name : Option String} {n n' : List Char} (h : WritesLiteral name n)
    (spaced : Spaced n n') (rest : List Char) : skipName (n' ++ ':' :: rest) = .ok rest := by
  obtain ⟨before, after, hbefore, hafter, rfl⟩ := spaced
  cases h with
  | @pieces ps proper =>
    have hstring := skipString_pieces proper (after ++ ':' :: rest)
    simp only [List.append_assoc, List.cons_append, List.nil_append, skipName,
      hbefore.skipBlank_append, skipBlank_cons (show isBlank '"' = false by decide), hstring]
    exact expectColon_spaced hafter rest

/-! ## Passing over a value -/

/-- The first character of a value with blanks around it. -/
theorem Writes.first {v : Value} {t t' : List Char} (h : Writes (.value v) t)
    (spaced : Spaced t t') (rest : List Char) :
    ∃ c more, skipBlank (t' ++ rest) = c :: more ∧ v.opens c := by
  obtain ⟨before, after, hbefore, -, rfl⟩ := spaced
  obtain ⟨c, more, rfl, hc⟩ := h.opening
  refine ⟨c, more ++ (after ++ rest), ?_, hc⟩
  simp [hbefore.skipBlank_append, skipBlank_cons (Value.isBlank_of_opens hc)]

/-- A member starts with the quote of its name. -/
theorem Writes.first_member {m : Option String × Value} {t : List Char} (h : Writes (.member m) t)
    (rest : List Char) : ∃ more, skipBlank (t ++ rest) = '"' :: more := by
  cases h with
  | member hn spaced h spaced' =>
    obtain ⟨before, after, hbefore, -, rfl⟩ := spaced
    obtain ⟨more, rfl⟩ := hn.opening
    simp [hbefore.skipBlank_append, skipBlank_cons (show isBlank '"' = false by decide)]

/-- So do the members of an object, if there are any. -/
theorem Writes.first_members {ms : List (Option String × Value)} {t : List Char}
    (h : Writes (.members ms) t) (hne : ms ≠ []) (rest : List Char) :
    ∃ more, skipBlank (t ++ rest) = '"' :: more := by
  cases h with
  | noMembers blanks => exact absurd rfl hne
  | lastMember h => exact h.first_member rest
  | moreMembers h hs =>
    rw [List.append_assoc]
    exact h.first_member _

/-- What it means for a stretch of text to be passed over. What an array or an object holds is
passed over after the opening bracket, and after a comma as well unless there is nothing. -/
def Skipped : Part → List Char → Prop
  | .value _, t => ∀ frames rest, Boundary rest →
    skipValueIn frames (t ++ rest) = skipClosing frames rest
  | .member _, t => ∀ frames rest, Boundary rest →
    skipPart .object frames (t ++ rest) = skipClosing (.object :: frames) rest
  | .elements vs, t => ∀ frames rest,
    skipFirst .array frames (t ++ ']' :: rest) = skipClosing frames rest ∧
    (vs ≠ [] → skipPart .array frames (t ++ ']' :: rest) = skipClosing frames rest)
  | .members ms, t => ∀ frames rest,
    skipFirst .object frames (t ++ '}' :: rest) = skipClosing frames rest ∧
    (ms ≠ [] → skipPart .object frames (t ++ '}' :: rest) = skipClosing frames rest)

/-- A numeral is passed over up to where it ends. -/
theorem skipValueIn_numeral {n : Numeral} {t rest : List Char} {frames : List Frame}
    (h : WritesNumeral n t) (hrest : Boundary rest) :
    skipValueIn frames (t ++ rest) = skipClosing frames rest := by
  have hlex := lexNumber_written .malformed h hrest
  obtain ⟨c, more, rfl, hc⟩ := h.opening
  -- its first character, a digit or the sign, tells it from all other values
  have hne (d : Char) (hd : ¬(d = '-' ∨ d.isDigit)) : c ≠ d := by
    rintro rfl
    exact hd hc
  rw [List.cons_append] at hlex ⊢
  refine skipValueIn_scalar (isBlank_of_digit hc) (hne _ (by decide)) (hne _ (by decide)) ?_
  simp only [skipScalar, if_neg (hne 'n' (by decide)), if_neg (hne 't' (by decide)),
    if_neg (hne 'f' (by decide)), if_pos hc, hlex]

/-- Inside an array or an object the blanks around a value are passed over with it. -/
theorem Skipped.spaced {v : Value} {t t' rest : List Char} (h : Skipped (.value v) t)
    (spaced : Spaced t t') (hrest : Boundary rest) (frame : Frame) (frames : List Frame) :
    skipValueIn (frame :: frames) (t' ++ rest) = skipClosing (frame :: frames) rest := by
  obtain ⟨before, after, hbefore, hafter, rfl⟩ := spaced
  rw [List.append_assoc, List.append_assoc, skipValueIn_blanks hbefore,
    h _ _ (hafter.boundary_append hrest), skipClosing_blanks hafter]

/-- A value is passed over, whatever it contains. -/
theorem Writes.skipped {part : Part} {t : List Char} (h : Writes part t) : Skipped part t := by
  induction h with
  | null =>
    intro frames rest _
    exact skipValueIn_scalar (by decide) (by decide) (by decide) (by simp [skipScalar, expectWord])
  | boolean b =>
    intro frames rest _
    cases b <;> exact skipValueIn_scalar (by decide) (by decide) (by decide)
      (by simp [skipScalar, expectWord])
  | number h =>
    intro frames rest hrest
    exact skipValueIn_numeral h hrest
  | string h =>
    intro frames rest _
    cases h with
    | pieces proper =>
      rw [List.cons_append, List.cons_append, List.append_assoc]
      refine skipValueIn_scalar (by decide) (by decide) (by decide) ?_
      simpa [skipScalar] using skipString_pieces proper rest
  | array h ih =>
    intro frames rest _
    rw [List.cons_append, List.append_assoc, skipValueIn_array]
    exact (ih frames rest).1
  | object h ih =>
    intro frames rest _
    rw [List.cons_append, List.append_assoc, skipValueIn_object]
    exact (ih frames rest).1
  | noElements blanks =>
    intro frames rest
    exact ⟨skipFirst_closing blanks, absurd rfl⟩
  | @lastElement v t t' h spaced ih =>
    -- what comes first is no closing bracket, so the opening one is like a comma
    intro frames rest
    obtain ⟨c, more, hfirst, hc⟩ := h.first spaced (']' :: rest)
    have hpart : skipPart .array frames (t' ++ ']' :: rest) = skipClosing frames rest := by
      rw [skipPart_array, ih.spaced spaced (boundary_bracket rest)]
      exact skipClosing_closing
    have hne : c ≠ Frame.array.closing := Value.ne_of_opens hc (by decide)
    exact ⟨(skipFirst_part hfirst hne).trans hpart, fun _ => hpart⟩
  | @moreElements v w vs t t' ts h spaced hs ih ihs =>
    intro frames rest
    obtain ⟨c, more, hfirst, hc⟩ := h.first spaced (',' :: (ts ++ ']' :: rest))
    have hpart : skipPart .array frames (t' ++ ',' :: (ts ++ ']' :: rest)) =
        skipClosing frames rest := by
      -- the value, its comma, and then what follows as if it came first
      rw [skipPart_array, ih.spaced spaced (boundary_comma _), skipClosing_comma]
      exact (ihs frames rest).2 (List.cons_ne_nil w vs)
    rw [List.append_assoc, List.cons_append]
    have hne : c ≠ Frame.array.closing := Value.ne_of_opens hc (by decide)
    exact ⟨(skipFirst_part hfirst hne).trans hpart, fun _ => hpart⟩
  | member hn spaced h spaced' ih =>
    intro frames rest hrest
    rw [List.append_assoc, List.cons_append, skipPart_object (skipName_written hn spaced _)]
    exact ih.spaced spaced' hrest _ _
  | noMembers blanks =>
    intro frames rest
    exact ⟨skipFirst_closing blanks, absurd rfl⟩
  | @lastMember m t h ih =>
    intro frames rest
    obtain ⟨more, hfirst⟩ := h.first_member ('}' :: rest)
    have hpart : skipPart .object frames (t ++ '}' :: rest) = skipClosing frames rest := by
      rw [ih _ _ (boundary_brace rest)]
      exact skipClosing_closing
    exact ⟨(skipFirst_part hfirst (by decide)).trans hpart, fun _ => hpart⟩
  | @moreMembers m m' ms t ts h hs ih ihs =>
    intro frames rest
    obtain ⟨more, hfirst⟩ := h.first_member (',' :: (ts ++ '}' :: rest))
    have hpart : skipPart .object frames (t ++ ',' :: (ts ++ '}' :: rest)) =
        skipClosing frames rest := by
      rw [ih _ _ (boundary_comma _), skipClosing_comma]
      exact (ihs frames rest).2 (List.cons_ne_nil m' ms)
    rw [List.append_assoc, List.cons_append]
    exact ⟨(skipFirst_part hfirst (by decide)).trans hpart, fun _ => hpart⟩

end Json

end ClientMetrics
