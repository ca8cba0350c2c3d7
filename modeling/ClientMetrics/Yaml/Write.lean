import ClientMetrics.Text.Bytes
import ClientMetrics.Yaml.Style

/-!
# Writing

Scalars and entries of mappings as text. Lines are as long as it takes; what goes over several
lines is indented two columns deeper than its key.
-/

namespace ClientMetrics

namespace Yaml

/-- Some spaces. -/
def spaces (n : Nat) : List Char := List.replicate n ' '

namespace Write

/-- A text between single quotes. A quote is written twice, and the lines after the first are
indented. -/
def singleBody (indent : Nat) (afterBreak : Bool) : List Char → List Char
  | [] => if afterBreak then spaces indent else []
  | c :: cs =>
    if isBreak c then c :: singleBody indent true cs
    else
      (if afterBreak then spaces indent else []) ++ (if c = '\'' then ['\'', '\''] else [c])
        ++ singleBody indent false cs

/-- The letter of an escape. -/
def escapeLetter? : Char → Option Char
  | '\x00' => some '0'
  | '\x07' => some 'a'
  | '\x08' => some 'b'
  | '\t' => some 't'
  | '\n' => some 'n'
  | '\x0b' => some 'v'
  | '\x0c' => some 'f'
  | '\r' => some 'r'
  | '\x1b' => some 'e'
  | '"' => some '"'
  | '\\' => some '\\'
  | '\u0085' => some 'N'
  | '\u00a0' => some '_'
  | '\u2028' => some 'L'
  | '\u2029' => some 'P'
  | _ => none

/-- The escape of a character: a letter if it has one, else its number in hexadecimal digits. -/
def escape (c : Char) : List Char :=
  match escapeLetter? c with
  | some letter => ['\\', letter]
  | none =>
    let n := c.toNat
    if n ≤ 0xff then '\\' :: 'x' :: Text.Hex.upperDigits 2 n
    else if n ≤ 0xffff then '\\' :: 'u' :: Text.Hex.upperDigits 4 n
    else '\\' :: 'U' :: Text.Hex.upperDigits 8 n

/-- A character between double quotes. -/
def doubleChar (c : Char) : List Char :=
  if isPrintable c && !isBreak c && c ≠ '"' && c ≠ '\\' then [c] else escape c

/-- What the header of a literal block says of its last line ends. -/
def chomping (cs : List Char) : List Char :=
  match cs.reverse with
  | [] => ['-']
  | [c] => if isBreak c then ['+'] else ['-']
  | c :: d :: _ => if !isBreak c then ['-'] else if isBreak d then ['+'] else []

/-- What the header of a literal block says of the indentation, where the first line does not show
it. -/
def indentHint (cs : List Char) : List Char :=
  if cs.head?.any (fun c => c = ' ' || isBreak c) then ['2'] else []

/-- The lines of a literal block. Empty lines are not indented. -/
def literalBody (indent : Nat) (afterBreak : Bool) : List Char → List Char
  | [] => []
  | c :: cs =>
    if isBreak c then c :: literalBody indent true cs
    else (if afterBreak then spaces indent else []) ++ c :: literalBody indent false cs

/-- A text in its style, of which the lines after the first are indented. -/
def scalar (indent : Nat) (cs : List Char) : List Char :=
  match styleOf cs with
  | .singleQuoted => '\'' :: singleBody indent false cs ++ ['\'']
  | .doubleQuoted => '"' :: cs.flatMap doubleChar ++ ['"']
  | .literal => '|' :: indentHint cs ++ chomping cs ++ '\n' :: literalBody indent true cs
  | _ => cs

/-- The end of a line, unless the text so far ends in one. -/
def endLine (cs : List Char) : List Char :=
  if cs.getLast?.any isBreak then cs else cs ++ ['\n']

/-- A key that can stand on one line with its value. -/
def isSimpleKey (cs : List Char) : Bool := !cs.any isBreak && Text.byteCount cs ≤ 128

/-- An entry of a mapping whose value has been written. -/
def entry (indent : Nat) (key value : List Char) : List Char :=
  if isSimpleKey key then
    endLine (spaces indent ++ scalar (indent + 2) key ++ ':' :: ' ' :: value)
  else
    endLine (spaces indent ++ '?' :: ' ' :: scalar (indent + 2) key)
      ++ endLine (spaces indent ++ ':' :: ' ' :: value)

/-- An entry of a mapping whose value is a text. -/
def textEntry (indent : Nat) (key value : String) : List Char :=
  entry indent key.toList (scalar (indent + 2) value.toList)

/-- An entry of a mapping whose value is a number or a word. -/
def wordEntry (indent : Nat) (key word : String) : List Char :=
  entry indent key.toList word.toList

/-- An entry of a mapping whose value is a mapping, which stands below it. -/
def sectionEntry (indent : Nat) (key : String) (entries : List (List Char)) : List Char :=
  match entries with
  | [] => wordEntry indent key "\x7b\x7d"
  | _ => spaces indent ++ key.toList ++ [':', '\n'] ++ entries.flatten

end Write

end Yaml

end ClientMetrics
