import ClientMetrics.Text.Hex
import ClientMetrics.Yaml.Gap

/-!
# Quoted scalars

Between single quotes everything stands for itself, and a quote is written twice. Between double
quotes a backslash starts an escape, and a backslash before a line end joins two lines. In both
styles line ends are folded as in any scalar that goes over several lines.
-/

namespace ClientMetrics

namespace Yaml

namespace Quoted

/-- The character that an escape of one letter stands for. -/
def escaped? : Char → Option Char
  | '0' => some '\x00'
  | 'a' => some '\x07'
  | 'b' => some '\x08'
  | 't' => some '\t'
  | '\t' => some '\t'
  | 'n' => some '\n'
  | 'v' => some '\x0b'
  | 'f' => some '\x0c'
  | 'r' => some '\r'
  | 'e' => some '\x1b'
  | ' ' => some ' '
  | '"' => some '"'
  | '/' => some '/'
  | '\\' => some '\\'
  | 'N' => some '\u0085'
  | '_' => some '\u00a0'
  | 'L' => some '\u2028'
  | 'P' => some '\u2029'
  | _ => none

/-- How many digits follow the letter of a numeric escape. -/
def digitCount? : Char → Option Nat
  | 'x' => some 2
  | 'u' => some 4
  | 'U' => some 8
  | _ => none

/-- The character of a number, if there is one. -/
def charOf? (n : Nat) : Option Char :=
  if n.isValidChar then some (Char.ofNat n) else none

/-- The character of an escape whose text after the backslash is given, and how many digits
follow its letter. -/
def escape? : List Char → Option (Char × Nat)
  | [] => none
  | letter :: rest =>
    match escaped? letter with
    | some c => some (c, 0)
    | none => do
      let count ← digitCount? letter
      if rest.length < count then none
      else
        let c ← charOf? (← Text.Hex.number? (rest.take count))
        some (c, count)

/-- A quoted scalar after its opening quote. -/
def read (double : Bool) (c : Cursor) : Option (List Char × Cursor) :=
  if c.atMarker then none
  else
    match h : c.rest with
    | [] => none
    | ch :: more =>
      have := Cursor.length_skip h
      have : (c.skipMany 2).rest.length < c.rest.length := Cursor.length_skipMany_lt 1 h
      if double ∧ ch = '"' then some ([], c.skip)
      else if ¬double ∧ ch = '\'' then
        if more.head? = some '\'' then do
          let (text, final) ← read double (c.skipMany 2)
          some ('\'' :: text, final)
        else some ([], c.skip)
      else if double ∧ ch = '\\' then
        if more.head?.any isBreak then
          match hg : Gap.read 0 { broken := true } c.skip.skipBreak with
          | none => none
          | some (gap, c') => do
            have := Gap.length_of_read hg
            have := c.skip.length_skipBreak_le
            let (text, final) ← read double c'
            some (gap.text ++ text, final)
        else do
          let (e, digits) ← escape? more
          have := Cursor.length_skipMany_lt (1 + digits) h
          let (text, final) ← read double (c.skipMany (1 + (1 + digits)))
          some (e :: text, final)
      else if hb : isBlank ch || isBreak ch then
        match hg : Gap.read 0 {} c with
        | none => none
        | some (gap, c') => do
          have := Gap.length_of_read_lt h hb hg
          let (text, final) ← read double c'
          some (gap.text ++ text, final)
      else do
        let (text, final) ← read double c.skip
        some (ch :: text, final)
termination_by c.rest.length

end Quoted

end Yaml

end ClientMetrics
