import ClientMetrics.Yaml.Gap

/-!
# Plain scalars

A plain scalar has no delimiters. It goes on until something that cannot belong to it: a colon or
a number sign set off by blanks, punctuation within brackets, or less indentation than the
surroundings have.
-/

namespace ClientMetrics

namespace Yaml

namespace Plain

/-- Punctuation that separates the parts of a collection in brackets. -/
def isFlowIndicator (c : Char) : Bool := c = ',' || c = '[' || c = ']' || c = '{' || c = '}'

/-- A character with which nothing plain starts, unless it is one of the three that may. -/
def isIndicator (c : Char) : Bool :=
  isFlowIndicator c || c = '#' || c = '&' || c = '*' || c = '!' || c = '|' || c = '>' || c = '\''
    || c = '"' || c = '%' || c = '@' || c = '`'

/-- A plain scalar may start here. -/
def starts (flow : Bool) : List Char → Bool
  | [] => false
  | '-' :: rest => !rest.head?.any isBlank
  | '?' :: rest => !flow && !startsBlank rest
  | ':' :: rest => !flow && !startsBlank rest
  | c :: _ => !isBlank c && !isBreak c && !isIndicator c

/-- What stands here cannot belong to a plain scalar. -/
def stops (flow : Bool) : List Char → Bool
  | [] => true
  | ':' :: rest => startsBlank rest
  | c :: _ => flow && isFlowIndicator c

/-- A colon stands here whose meaning is not clear. -/
def isUnclear (flow : Bool) : List Char → Bool
  | ':' :: c :: _ => flow && (isFlowIndicator c || c = '?')
  | _ => false

/-- What stands here after a gap cannot belong to a plain scalar. -/
def stopsAfterGap (flow : Bool) (level : Nat) (c : Cursor) : Bool :=
  (!flow && c.column < level) || c.atMarker || c.rest.head? = some '#' || stops flow c.rest

/-- A plain scalar, and whether a line ended after it. Its further lines start at the column
`level` or after it. -/
def read (flow : Bool) (level : Nat) (c : Cursor) : Option (List Char × Cursor × Bool) :=
  match h : c.rest with
  | [] => some ([], c, false)
  | ch :: _ =>
    have := Cursor.length_skip h
    if hb : isBlank ch || isBreak ch then
      match hg : Gap.read level {} c with
      | none => none
      | some (gap, c') =>
        have := Gap.length_of_read_lt h hb hg
        if stopsAfterGap flow level c' then some ([], c', gap.broken)
        else do
          let (text, final) ← read flow level c'
          some (gap.text ++ text, final)
    else if isUnclear flow c.rest then none
    else if stops flow c.rest then some ([], c, false)
    else do
      let (text, final) ← read flow level c.skip
      some (ch :: text, final)
termination_by c.rest.length

end Plain

end Yaml

end ClientMetrics
