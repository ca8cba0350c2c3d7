import ClientMetrics.Text.Hex
import ClientMetrics.Yaml.Cursor
import ClientMetrics.Yaml.Token

/-!
# Anchors, tags and directives

What may stand before a node, and what may stand before a document. A tag is a handle and a suffix;
a directive may say what a handle is short for.
-/

namespace ClientMetrics

namespace Yaml

namespace Property

/-- The name of an anchor or an alias after its indicator. -/
def name? (cs : List Char) : Option (List Char) :=
  let name := cs.takeWhile isWordChar
  let rest := cs.dropWhile isWordChar
  if name = [] then none
  else if startsBlank rest || rest.head?.any (['?', ':', ',', ']', '}', '%', '@', '`'].contains ·)
    then some name
  else none

/-- A character of a tag. Punctuation of collections counts only where the tag is delimited. -/
def isUriChar (wide : Bool) (c : Char) : Bool :=
  isWordChar c
    || [';', '/', '?', ':', '@', '&', '=', '+', '$', '.', '!', '~', '*', '\'', '(', ')'].contains c
    || (wide && (c = ',' || c = '[' || c = ']'))

/-- A character of which some of the octets are known. -/
structure Octets where
  /-- The number of octets to come. -/
  needed : Nat
  value : Nat
  /-- The least number that needs so many octets. -/
  least : Nat
  deriving DecidableEq, Repr

/-- A character whose first octet is given. -/
def Octets.first? (n : Nat) : Option Octets :=
  if n < 0x80 then some ⟨0, n, 0⟩
  else if 0xc0 ≤ n ∧ n < 0xe0 then some ⟨1, n - 0xc0, 0x80⟩
  else if 0xe0 ≤ n ∧ n < 0xf0 then some ⟨2, n - 0xe0, 0x800⟩
  else if 0xf0 ≤ n ∧ n < 0xf8 then some ⟨3, n - 0xf0, 0x10000⟩
  else none

/-- A character with one more octet. -/
def Octets.next? (o : Octets) (n : Nat) : Option Octets :=
  if 0x80 ≤ n ∧ n < 0xc0 then some ⟨o.needed - 1, o.value * 64 + (n - 0x80), o.least⟩ else none

/-- The character of complete octets. What no character is written as counts as a replacement
character. -/
def Octets.char (o : Octets) : Char :=
  if o.least ≤ o.value ∧ o.value.isValidChar then Char.ofNat o.value else '\ufffd'

/-- The characters of a tag and what follows them. A percent sign and two digits stand for an
octet. -/
def uri (wide : Bool) : Option Octets → List Char → Option (List Char × List Char)
  | some o, '%' :: a :: b :: rest => do
    let o ← o.next? (← Text.Hex.number? [a, b])
    if o.needed = 0 then
      let (text, final) ← uri wide none rest
      some (o.char :: text, final)
    else uri wide (some o) rest
  | some _, _ => none
  | none, '%' :: a :: b :: rest => do
    let o ← Octets.first? (← Text.Hex.number? [a, b])
    if o.needed = 0 then
      let (text, final) ← uri wide none rest
      some (o.char :: text, final)
    else uri wide (some o) rest
  | none, [] => some ([], [])
  | none, c :: rest =>
    if isUriChar wide c then do
      let (text, final) ← uri wide none rest
      some (c :: text, final)
    else if c = '%' then none
    else some ([], c :: rest)

/-- A text up to its first null character. -/
def untilNull (cs : List Char) : String := .ofList (cs.takeWhile (· ≠ '\x00'))

/-- The characters of a tag, of which there is at least one. -/
def uri? (wide : Bool) (cs : List Char) : Option (String × List Char) := do
  let (text, rest) ← uri wide none cs
  if text = [] then none else some (untilNull text, rest)

/-- A tag after its indicator: its handle, its suffix, and what follows. A tag in angle brackets
has no handle, and neither has the indicator alone. -/
def tagParts? (cs : List Char) : Option (String × String × List Char) :=
  match cs with
  | '<' :: rest => do
    let (suffix, rest) ← uri? true rest
    match rest with
    | '>' :: rest => some ("", suffix, rest)
    | _ => none
  | _ =>
    let word := cs.takeWhile isWordChar
    match cs.dropWhile isWordChar with
    | '!' :: rest => do
      let (suffix, rest) ← uri? false rest
      some (.ofList ('!' :: word ++ ['!']), suffix, rest)
    | rest => do
      let (more, rest) ← uri false none rest
      match untilNull (word ++ more) with
      | "" => some ("", "!", rest)
      | suffix => some ("!", suffix, rest)

/-- A tag after its indicator. A comma may follow it within brackets. -/
def tag? (flow : Bool) (cs : List Char) : Option (Token × List Char) := do
  let (handle, suffix, rest) ← tagParts? cs
  if startsBlank rest || (flow && rest.head? = some ',') then some (.tag handle suffix, rest)
  else none

/-- A number of up to nine digits. -/
def versionNumber? (cs : List Char) : Option (Nat × List Char) :=
  let digits := cs.takeWhile Char.isDigit
  if digits = [] ∨ 9 < digits.length then none
  else some (digits.foldl (fun n c => 10 * n + (c.toNat - 48)) 0, cs.dropWhile Char.isDigit)

/-- The handle that a directive is about: an exclamation mark, or a word between two of them. -/
def handle? (cs : List Char) : Option (String × List Char) :=
  match cs with
  | '!' :: cs =>
    let word := cs.takeWhile isWordChar
    match cs.dropWhile isWordChar with
    | '!' :: rest => some (.ofList ('!' :: word ++ ['!']), rest)
    | rest => if word = [] then some ("!", rest) else none
  | _ => none

/-- A directive after its indicator. -/
def directive? (cs : List Char) : Option (Token × List Char) :=
  let rest := cs.dropWhile isWordChar
  if !startsBlank rest then none
  else
    match String.ofList (cs.takeWhile isWordChar) with
    | "YAML" => do
      let (major, rest) ← versionNumber? (rest.dropWhile isBlank)
      match rest with
      | '.' :: rest =>
        let (minor, rest) ← versionNumber? rest
        some (.versionDirective major minor, rest)
      | _ => none
    | "TAG" => do
      let (handle, rest) ← handle? (rest.dropWhile isBlank)
      if rest.head?.any isBlank then
        let (beginning, rest) ← uri? true (rest.dropWhile isBlank)
        if startsBlank rest then some (.tagDirective handle beginning, rest) else none
      else none
    | _ => none

end Property

end Yaml

end ClientMetrics
