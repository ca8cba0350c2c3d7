/-!
# Places in a document

A `Cursor` is what is left of a text together with the place it stands at. Lines end at a line
feed, a carriage return, both in that order, or one of three rarer characters. Every move forward
consumes something, which is what the readers end on.
-/

namespace ClientMetrics

namespace Yaml

/-- A space or a tab. -/
def isBlank (c : Char) : Bool := c = ' ' || c = '\t'

/-- A character that ends a line. -/
def isBreak (c : Char) : Bool :=
  c = '\n' || c = '\r' || c = '\u0085' || c = '\u2028' || c = '\u2029'

/-- A character that may occur in a document at all. -/
def isAllowed (c : Char) : Bool :=
  let n := c.toNat
  n = 0x09 || n = 0x0a || n = 0x0d || (0x20 ≤ n && n ≤ 0x7e) || n = 0x85
    || (0xa0 ≤ n && n ≤ 0xd7ff) || (0xe000 ≤ n && n ≤ 0xfffd) || 0x10000 ≤ n

/-- A letter, a digit, a hyphen or an underscore. -/
def isWordChar (c : Char) : Bool := c.isAlphanum || c = '-' || c = '_'

/-- The text starts with a blank or a line end, or is over. -/
def startsBlank : List Char → Bool
  | [] => true
  | c :: _ => isBlank c || isBreak c

/-- The text is over or starts with a line end. -/
def startsBreak : List Char → Bool
  | [] => true
  | c :: _ => isBreak c

/-- What is left of a text, and where that starts. Lines and columns count from zero. -/
structure Cursor where
  rest : List Char
  index : Nat := 0
  line : Nat := 0
  column : Nat := 0
  deriving DecidableEq, Repr

namespace Cursor

/-- Past a character that does not end a line. -/
def skip (c : Cursor) : Cursor :=
  { c with rest := c.rest.tail, index := c.index + 1, column := c.column + 1 }

/-- Past some characters that do not end a line. -/
def skipMany (c : Cursor) (n : Nat) : Cursor :=
  { c with rest := c.rest.drop n, index := c.index + n, column := c.column + n }

/-- Past the characters that satisfy a condition, none of which ends a line. -/
def skipWhile (p : Char → Bool) (c : Cursor) : Cursor :=
  c.skipMany (c.rest.takeWhile p).length

/-- Past a line end. -/
def skipBreak (c : Cursor) : Cursor :=
  match c.rest with
  | [] => c
  | '\r' :: '\n' :: rest => ⟨rest, c.index + 2, c.line + 1, 0⟩
  | _ :: rest => ⟨rest, c.index + 1, c.line + 1, 0⟩

/-- What a line end counts as in a scalar: the rare separators stay, all others are line feeds. -/
def breakText (c : Cursor) : List Char :=
  match c.rest with
  | '\u2028' :: _ => ['\u2028']
  | '\u2029' :: _ => ['\u2029']
  | ch :: _ => if isBreak ch then ['\n'] else []
  | [] => []

/-- A line of three hyphens or three dots stands here. -/
def atMarker (c : Cursor) : Bool :=
  c.column = 0 &&
    match c.rest with
    | '-' :: '-' :: '-' :: rest => startsBlank rest
    | '.' :: '.' :: '.' :: rest => startsBlank rest
    | _ => false

/-- Past a comment, up to the end of the line. -/
def skipComment (c : Cursor) : Cursor :=
  if c.rest.head? = some '#' then c.skipWhile (!isBreak ·) else c

/-- Past the rest of a line that holds blanks and a comment at most. -/
def endLine? (c : Cursor) : Option Cursor :=
  let c := (c.skipWhile isBlank).skipComment
  if startsBreak c.rest then some c.skipBreak else none

/-- To the place where the text is `rest`, on the same line. -/
def moveTo (c : Cursor) (rest : List Char) : Cursor :=
  c.skipMany (c.rest.length - rest.length)

/-- A character that is skipped is consumed. -/
theorem length_skip {c : Cursor} {ch : Char} {rest : List Char} (h : c.rest = ch :: rest) :
    c.skip.rest.length < c.rest.length := by
  simp [skip, h]

/-- A line end has at least one character. -/
theorem length_skipBreak {c : Cursor} {ch : Char} {rest : List Char} (h : c.rest = ch :: rest) :
    c.skipBreak.rest.length < c.rest.length := by
  unfold skipBreak
  split
  · next hn => simp [hn] at h
  · next hr => simp only [hr, List.length_cons]; omega
  · next hr => simp [hr]

/-- Where no line end stands, nothing is put back. -/
theorem length_skipBreak_le (c : Cursor) : c.skipBreak.rest.length ≤ c.rest.length := by
  rcases hc : c.rest with _ | ⟨ch, rest⟩
  · simp [skipBreak, hc]
  · have := length_skipBreak hc
    rw [hc] at this
    exact Nat.le_of_lt this

theorem length_skipMany_le (c : Cursor) (n : Nat) :
    (c.skipMany n).rest.length ≤ c.rest.length := by
  simp [skipMany]

theorem length_skipMany_lt {c : Cursor} {ch : Char} {rest : List Char} (n : Nat)
    (h : c.rest = ch :: rest) : (c.skipMany (1 + n)).rest.length < c.rest.length := by
  simp only [skipMany, h, List.length_drop, List.length_cons]; omega

theorem length_skipWhile_le (p : Char → Bool) (c : Cursor) :
    (c.skipWhile p).rest.length ≤ c.rest.length := length_skipMany_le ..

theorem length_skipComment_le (c : Cursor) : c.skipComment.rest.length ≤ c.rest.length := by
  unfold skipComment
  split
  · exact length_skipWhile_le ..
  · exact Nat.le_refl _

end Cursor

end Yaml

end ClientMetrics
