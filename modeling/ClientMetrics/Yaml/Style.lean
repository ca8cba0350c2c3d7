import ClientMetrics.Yaml.Cursor
import ClientMetrics.Yaml.Scalar
import ClientMetrics.Yaml.Token

/-!
# The style of a scalar

How a text is written so that it reads back as itself: plainly if that is possible, else between
single quotes, else between double quotes. A text of several lines is written as a literal block if
its lines end in line feeds and everything in it can be shown.
-/

namespace ClientMetrics

namespace Yaml

/-- A character that can be shown as it is. -/
def isPrintable (c : Char) : Bool :=
  let n := c.toNat
  n = 0x0a || (0x20 ≤ n && n ≤ 0x7e) || (0xa0 ≤ n && n ≤ 0xd7ff)
    || (0xe000 ≤ n && n ≤ 0xfffd && n ≠ 0xfeff) || 0x10000 ≤ n

namespace Style

/-- Whether the rest of a plain text holds a mark that would end it: a colon before a blank, or a
number sign after one. -/
def hasInnerMark (afterBlank : Bool) : List Char → Bool
  | [] => false
  | c :: cs =>
    (c = ':' && startsBlank cs) || (c = '#' && afterBlank)
      || hasInnerMark (isBlank c || isBreak c) cs

/-- Whether a text starts with a mark, or with a character that is one before a blank. -/
def hasFirstMark : List Char → Bool
  | [] => false
  | c :: cs =>
    (",[]\x7b\x7d#&*!|>'\"%@`".toList).contains c
      || ((c = '?' || c = ':' || c = '-') && startsBlank cs)

/-- The text starts like the marker of a document. -/
def startsLikeMarker : List Char → Bool
  | '-' :: '-' :: '-' :: _ => true
  | '.' :: '.' :: '.' :: _ => true
  | _ => false

/-- A line end follows a space somewhere. -/
def hasBreakAfterSpace : List Char → Bool
  | a :: b :: cs => (a = ' ' && isBreak b) || hasBreakAfterSpace (b :: cs)
  | _ => false

/-- A space follows a line end somewhere. -/
def hasSpaceAfterBreak : List Char → Bool
  | a :: b :: cs => (isBreak a && b = ' ') || hasSpaceAfterBreak (b :: cs)
  | _ => false

/-- A text that neither quotes nor a block can show as it is. -/
def needsEscapes (cs : List Char) : Bool := !cs.all isPrintable || hasBreakAfterSpace cs

/-- A text that can be written without quotes and is then read as a single line of text. -/
def allowsPlain (cs : List Char) : Bool :=
  !startsLikeMarker cs && !hasFirstMark cs && !hasInnerMark true cs && !cs.any isBreak
    && cs.head? ≠ some ' ' && cs.getLast? ≠ some ' ' && !needsEscapes cs

/-- A text that can be written between single quotes. -/
def allowsSingle (cs : List Char) : Bool := !hasSpaceAfterBreak cs && !needsEscapes cs

/-- A text that can be written as a literal block. -/
def allowsLiteral (cs : List Char) : Bool := cs.getLast? ≠ some ' ' && !needsEscapes cs

end Style

/-- The style in which a text is written. -/
def styleOf (cs : List Char) : ScalarStyle :=
  if cs.contains '\n' then if Style.allowsLiteral cs then .literal else .doubleQuoted
  else if !Scalar.needsQuotes cs && Style.allowsPlain cs then .plain
  else if Style.allowsSingle cs then .singleQuoted
  else .doubleQuoted

end Yaml

end ClientMetrics
