import ClientMetrics.Json.Literal
import ClientMetrics.Json.Number

/-!
# Passing over a value

A member of no interest is passed over, however deeply it is nested. The arrays and objects that
are open are kept in a list, innermost first, so nothing but the length of the text bounds them.
The value must be well formed; numbers are not evaluated, and escapes need not name characters.
-/

namespace ClientMetrics

namespace Json

/-- Characters between the parts of a text. -/
def isBlank (c : Char) : Bool := c = ' ' || c = '\n' || c = '\t' || c = '\r'

/-- A text without the blanks at its front. -/
def skipBlank (cs : List Char) : List Char := cs.dropWhile isBlank

theorem length_skipBlank_le (cs : List Char) : (skipBlank cs).length ≤ cs.length :=
  (List.dropWhile_suffix _).length_le

/-- A character that was taken behind the blanks is gone from the text. -/
theorem length_lt_of_skipBlank_eq_cons {cs rest : List Char} {c : Char}
    (h : skipBlank cs = c :: rest) : rest.length < cs.length := by
  have := length_skipBlank_le cs
  rw [h, List.length_cons] at this
  omega

/-- Reads the colon between the name of a member and its value. -/
def expectColon (cs : List Char) : Except Problem (List Char) :=
  match skipBlank cs with
  | [] => .error .endOfText
  | ':' :: rest => .ok rest
  | _ => .error .malformed

/-- The colon is consumed. -/
theorem length_of_expectColon {cs rest : List Char} (h : expectColon cs = .ok rest) :
    rest.length < cs.length := by
  unfold expectColon at h
  split at h
  · simp at h
  · next hs =>
    simp only [Except.ok.injEq] at h
    exact h ▸ length_lt_of_skipBlank_eq_cons hs
  · simp at h

/-- Passes over the name of a member and the colon after it. -/
def skipName (cs : List Char) : Except Problem (List Char) :=
  match skipBlank cs with
  | [] => .error .endOfText
  | '"' :: rest =>
    match skipString rest with
    | .error p => .error p
    | .ok rest => expectColon rest
  | _ => .error .malformed

/-- A name is consumed with its colon, so that the value of a member is shorter than the member. -/
theorem length_of_skipName {cs rest : List Char} (h : skipName cs = .ok rest) :
    rest.length < cs.length := by
  unfold skipName at h
  split at h
  · simp at h
  · next r hs =>
    split at h
    · simp at h
    · next hr =>
      have := length_lt_of_skipBlank_eq_cons hs
      have := length_of_skipString hr
      have := length_of_expectColon h
      omega
  · simp at h

/-- An array or object that is open. -/
inductive Frame where
  | array
  | object
  deriving DecidableEq, Repr

/-- The character that closes a frame. -/
def Frame.closing : Frame → Char
  | array => ']'
  | object => '}'

/-- Passes over a value that is no array and no object, given its first character. -/
def skipScalar (c : Char) (rest : List Char) : Except Problem (List Char) :=
  if c = 'n' then expectWord ['u', 'l', 'l'] rest
  else if c = 't' then expectWord ['r', 'u', 'e'] rest
  else if c = 'f' then expectWord ['a', 'l', 's', 'e'] rest
  else if c = '-' ∨ c.isDigit then
    match lexNumber .malformed (c :: rest) with
    | .error p => .error p
    | .ok (_, rest) => .ok rest
  else if c = '"' then skipString rest
  else .error .malformed

/-- Nothing is put back when a scalar is passed over. Its first character was taken before. -/
theorem length_of_skipScalar {c : Char} {cs rest : List Char} (h : skipScalar c cs = .ok rest) :
    rest.length ≤ cs.length := by
  unfold skipScalar at h
  -- the three words are passed over letter by letter
  have word {w : List Char} (h : expectWord w cs = .ok rest) : rest.length ≤ cs.length := by
    simp [eq_append_of_expectWord h]
  split at h
  · exact word h
  split at h
  · exact word h
  split at h
  · exact word h
  split at h
  · split at h
    · simp at h
    · next hl =>
      simp only [Except.ok.injEq] at h
      have := length_of_lexNumber hl
      rw [h, List.length_cons] at this
      omega
  split at h
  · exact Nat.le_of_lt (length_of_skipString h)
  · simp at h

mutual

/-- Passes over a value inside the open frames, and then over what closes them. -/
def skipValueIn (frames : List Frame) (cs : List Char) : Except Problem (List Char) :=
  match _h : skipBlank cs with
  | [] => .error .endOfText
  | '[' :: rest => skipFirst .array frames rest
  | '{' :: rest => skipFirst .object frames rest
  | c :: rest =>
    match _scalar : skipScalar c rest with
    | .error p => .error p
    | .ok rest => skipClosing frames rest
-- a call that takes no character goes on to one with a smaller second number
termination_by (cs.length, 0)
decreasing_by
  · have := length_lt_of_skipBlank_eq_cons _h
    exact Prod.Lex.left _ _ this
  · have := length_lt_of_skipBlank_eq_cons _h
    exact Prod.Lex.left _ _ this
  · have := length_lt_of_skipBlank_eq_cons _h
    have := length_of_skipScalar _scalar
    exact Prod.Lex.left _ _ (by omega)

/-- After a frame was opened: it is closed at once, or its first part follows. -/
def skipFirst (frame : Frame) (frames : List Frame) (cs : List Char) :
    Except Problem (List Char) :=
  match _h : skipBlank cs with
  | [] => .error .endOfText
  | c :: rest =>
    if c = frame.closing then skipClosing frames rest
    else skipPart frame frames cs
termination_by (cs.length, 2)
decreasing_by
  · exact Prod.Lex.left _ _ (length_lt_of_skipBlank_eq_cons _h)
  · exact Prod.Lex.right _ (by omega)

/-- Passes over one element, or one name and value, of the innermost frame. -/
def skipPart (frame : Frame) (frames : List Frame) (cs : List Char) :
    Except Problem (List Char) :=
  match frame with
  | .array => skipValueIn (.array :: frames) cs
  | .object =>
    match _h : skipName cs with
    | .error p => .error p
    | .ok rest => skipValueIn (.object :: frames) rest
termination_by (cs.length, 1)
decreasing_by
  · exact Prod.Lex.right _ (by omega)
  · exact Prod.Lex.left _ _ (length_of_skipName _h)

/-- After a value: the innermost frame goes on with a comma or is closed. -/
def skipClosing (frames : List Frame) (cs : List Char) : Except Problem (List Char) :=
  match frames with
  | [] => .ok cs
  | frame :: frames =>
    match _h : skipBlank cs with
    | [] => .error .endOfText
    | c :: rest =>
      if c = ',' then skipPart frame frames rest
      else if c = frame.closing then skipClosing frames rest
      else .error .malformed
termination_by (cs.length, 0)
decreasing_by
  · exact Prod.Lex.left _ _ (length_lt_of_skipBlank_eq_cons _h)
  · exact Prod.Lex.left _ _ (length_lt_of_skipBlank_eq_cons _h)

end

mutual

/-- A value has at least one character. -/
theorem length_of_skipValueIn {frames : List Frame} {cs rest : List Char}
    (h : skipValueIn frames cs = .ok rest) : rest.length < cs.length := by
  rw [skipValueIn] at h
  split at h
  · simp at h
  · next r hs =>
    have := length_lt_of_skipBlank_eq_cons hs
    have := length_of_skipFirst h
    omega
  · next r hs =>
    have := length_lt_of_skipBlank_eq_cons hs
    have := length_of_skipFirst h
    omega
  · next c r _ _ hs =>
    split at h
    · simp at h
    · next r' hr =>
      have := length_lt_of_skipBlank_eq_cons hs
      have := length_of_skipScalar hr
      have := length_of_skipClosing h
      omega
termination_by (cs.length, 0)

/-- What follows an opening bracket has at least the closing one. -/
theorem length_of_skipFirst {frame : Frame} {frames : List Frame} {cs rest : List Char}
    (h : skipFirst frame frames cs = .ok rest) : rest.length < cs.length := by
  rw [skipFirst] at h
  split at h
  · simp at h
  · next c r hs =>
    split at h
    · have := length_lt_of_skipBlank_eq_cons hs
      have := length_of_skipClosing h
      omega
    · exact length_of_skipPart h
termination_by (cs.length, 2)

/-- A part of a frame has at least one character. -/
theorem length_of_skipPart {frame : Frame} {frames : List Frame} {cs rest : List Char}
    (h : skipPart frame frames cs = .ok rest) : rest.length < cs.length := by
  rw [skipPart.eq_def] at h
  split at h
  · exact length_of_skipValueIn h
  · split at h
    · simp at h
    · next r hr =>
      have := length_of_skipName hr
      have := length_of_skipValueIn h
      omega
termination_by (cs.length, 1)

/-- Nothing is put back behind a value. Where no frame is open, nothing is consumed either. -/
theorem length_of_skipClosing {frames : List Frame} {cs rest : List Char}
    (h : skipClosing frames cs = .ok rest) : rest.length ≤ cs.length := by
  rw [skipClosing.eq_def] at h
  split at h
  · simp only [Except.ok.injEq] at h; simp [h]
  · split at h
    · simp at h
    · next c r hs =>
      have := length_lt_of_skipBlank_eq_cons hs
      split at h
      · have := length_of_skipPart h
        omega
      · split at h
        · have := length_of_skipClosing h
          omega
        · simp at h
termination_by (cs.length, 0)

end

/-- Passes over a value. -/
def skipValue (cs : List Char) : Except Problem (List Char) := skipValueIn [] cs

/-- A value that is passed over has at least one character. -/
theorem length_of_skipValue {cs rest : List Char} (h : skipValue cs = .ok rest) :
    rest.length < cs.length :=
  length_of_skipValueIn h

end Json

end ClientMetrics
