import ClientMetrics.Yaml.Block
import ClientMetrics.Yaml.Plain
import ClientMetrics.Yaml.Property
import ClientMetrics.Yaml.Quoted

/-!
# The layout of a document

A `Layout` is a document of which a part has been cut into tokens. Outside brackets, a deeper
column starts a collection and a shallower one ends it. That a node is a key shows only at the
colon after it; the tokens that announce it are then put before it, which is why its place is
remembered. A node can only be such a key if it is on one line and not too long.
-/

namespace ClientMetrics

namespace Yaml

/-- A node that is a key if a colon follows. -/
structure PendingKey where
  /-- It has to be a key, because of where it stands. -/
  required : Bool
  /-- The number of tokens before it. -/
  place : Nat
  index : Nat
  line : Nat
  column : Nat
  deriving DecidableEq, Repr

/-- Where a document stands that is being cut into tokens. -/
structure Layout where
  cursor : Cursor
  /-- The tokens so far, the latest first. -/
  tokens : List Token := []
  /-- The column after the one at which the innermost collection by indentation stands, or zero. -/
  level : Nat := 0
  /-- The levels of the surrounding collections, innermost first. -/
  outer : List Nat := []
  key : Option PendingKey := none
  /-- The pending keys before each open bracket, innermost first. -/
  outerKeys : List (Option PendingKey) := []
  /-- A key without an indicator may start here. -/
  keyAllowed : Bool := true
  deriving DecidableEq, Repr

namespace Layout

/-- A bracket is open. -/
def inFlow (s : Layout) : Bool := !s.outerKeys.isEmpty

/-- One more token. -/
def push (s : Layout) (t : Token) : Layout := { s with tokens := t :: s.tokens }

/-- A token before those from a given place on. -/
def insert (s : Layout) (place : Nat) (t : Token) : Layout :=
  let later := s.tokens.length - place
  { s with tokens := s.tokens.take later ++ t :: s.tokens.drop later }

/-- Starts a collection at a column, if that is deeper than the surroundings. -/
def indent (s : Layout) (column place : Nat) (t : Token) : Layout :=
  if !s.inFlow && s.level ≤ column then
    { s.insert place t with level := column + 1, outer := s.level :: s.outer }
  else s

/-- Ends the collections that are deeper than a level. -/
def closeTo (level : Nat) (tokens : List Token) (current : Nat) :
    List Nat → List Token × Nat × List Nat
  | [] => (tokens, current, [])
  | next :: outer =>
    if level < current then closeTo level (.blockEnd :: tokens) next outer
    else (tokens, current, next :: outer)

/-- Ends the collections by indentation that are deeper than a level. -/
def dedent (s : Layout) (level : Nat) : Layout :=
  if s.inFlow then s
  else
    let (tokens, level, outer) := closeTo level s.tokens s.level s.outer
    { s with tokens, level, outer }

/-- No key is pending any more. -/
def dropKey (s : Layout) : Option Layout :=
  if s.key.any (·.required) then none else some { s with key := none }

/-- What starts here may turn out to be a key. -/
def saveKey (s : Layout) : Option Layout :=
  if s.keyAllowed then do
    let s ← s.dropKey
    some { s with
      key := some {
        required := !s.inFlow && s.level = s.cursor.column + 1
        place := s.tokens.length
        index := s.cursor.index
        line := s.cursor.line
        column := s.cursor.column } }
  else some s

/-- A pending key that is too far back, or on an earlier line. -/
def isStale (c : Cursor) (k : PendingKey) : Bool := k.line < c.line || k.index + 1024 < c.index

/-- A pending key, unless it is stale. One that has to be a key may not be stale. -/
def refreshKey (c : Cursor) : Option PendingKey → Option (Option PendingKey)
  | none => some none
  | some k => if isStale c k then if k.required then none else some none else some (some k)

/-- Forgets stale keys. -/
def refreshKeys (s : Layout) : Option Layout := do
  let key ← refreshKey s.cursor s.key
  let outerKeys ← s.outerKeys.mapM (refreshKey s.cursor)
  some { s with key, outerKeys }

/-- Past a byte order mark at the start of a line. -/
def skipOrderMark (c : Cursor) : Cursor :=
  if c.column = 0 ∧ c.rest.head? = some '\ufeff' then c.skip else c

/-- Past the blanks and the comment up to the end of a line or the next token. Tabs do not count
where indentation matters. -/
def restOfLine (tabs : Bool) (c : Cursor) : Cursor :=
  ((skipOrderMark c).skipWhile fun ch => ch = ' ' || (tabs && ch = '\t')).skipComment

/-- Nothing is put back at the end of a line. -/
theorem length_restOfLine_le (tabs : Bool) (c : Cursor) :
    (restOfLine tabs c).rest.length ≤ c.rest.length := by
  have : (skipOrderMark c).rest.length ≤ c.rest.length := by
    unfold skipOrderMark
    split <;> simp [Cursor.skip]
  exact Nat.le_trans (Cursor.length_skipComment_le _)
    (Nat.le_trans (Cursor.length_skipWhile_le ..) this)

/-- The place of the next token, and whether a key may start there. A line end allows one outside
brackets. -/
def nextPlace (flow keyAllowed : Bool) (c : Cursor) : Cursor × Bool :=
  match h : (restOfLine (flow || !keyAllowed) c).rest with
  | [] => (restOfLine (flow || !keyAllowed) c, keyAllowed)
  | ch :: _ =>
    if isBreak ch then
      have := Cursor.length_skipBreak h
      have := length_restOfLine_le (flow || !keyAllowed) c
      nextPlace flow (keyAllowed || !flow) (restOfLine (flow || !keyAllowed) c).skipBreak
    else (restOfLine (flow || !keyAllowed) c, keyAllowed)
termination_by c.rest.length

/-- Goes on to the next token and ends the collections that it is not part of. -/
def advance (s : Layout) : Option Layout := do
  let (cursor, keyAllowed) := nextPlace s.inFlow s.keyAllowed s.cursor
  let s ← { s with cursor, keyAllowed }.refreshKeys
  some (s.dedent (cursor.column + 1))

/-- A token of one character or more after which a key may or may not start. -/
def mark (s : Layout) (t : Token) (width : Nat) (keyAllowed : Bool) : Layout :=
  { s.push t with cursor := s.cursor.skipMany width, keyAllowed }

/-- A marker or a directive, which ends all collections. -/
def boundary (s : Layout) : Option Layout := (s.dedent 0).dropKey

/-- An opening bracket. -/
def openFlow (s : Layout) (t : Token) : Option Layout := do
  let s ← s.saveKey
  some { s.mark t 1 true with key := none, outerKeys := s.key :: s.outerKeys }

/-- A closing bracket. -/
def closeFlow (s : Layout) (t : Token) : Option Layout := do
  let s ← s.dropKey
  match s.outerKeys with
  | [] => some (s.mark t 1 false)
  | key :: outerKeys => some { s.mark t 1 false with key, outerKeys }

/-- An indicator that starts a collection by indentation if it stands deeper than the
surroundings. -/
def indicator (s : Layout) (collection t : Token) (keyAllowed : Bool) : Option Layout := do
  if !s.inFlow && !s.keyAllowed then none
  else
    let s := s.indent s.cursor.column s.tokens.length collection
    let s ← s.dropKey
    some (s.mark t 1 keyAllowed)

/-- The colon after a key. -/
def colon (s : Layout) : Option Layout :=
  match s.key with
  | some k =>
    let s := (s.insert k.place .key).indent k.column k.place .blockMappingStart
    some { s.mark .value 1 false with key := none }
  | none =>
    if s.inFlow then some (s.mark .value 1 false)
    else if s.keyAllowed then
      some ((s.indent s.cursor.column s.tokens.length .blockMappingStart).mark .value 1 true)
    else none

/-- A scalar or a property of a node, which may be a key or the start of one. -/
def part (s : Layout) (read : Cursor → Option (Token × Cursor × Bool)) : Option Layout := do
  let s ← s.saveKey
  let (t, cursor, keyAllowed) ← read s.cursor
  some { s.push t with cursor, keyAllowed }

/-- A quoted scalar after its opening quote. -/
def quoted (double : Bool) (c : Cursor) : Option (Token × Cursor × Bool) := do
  let (text, c) ← Quoted.read double c.skip
  some (.scalar (.ofList text) (if double then .doubleQuoted else .singleQuoted), c, false)

/-- A plain scalar. -/
def plain (flow : Bool) (level : Nat) (c : Cursor) : Option (Token × Cursor × Bool) := do
  let (text, c, broken) ← Plain.read flow level c
  some (.scalar (.ofList text) .plain, c, broken)

/-- An anchor or an alias. -/
def named (token : String → Token) (c : Cursor) : Option (Token × Cursor × Bool) := do
  let name ← Property.name? c.skip.rest
  some (token (.ofList name), c.skipMany (1 + name.length), false)

/-- A tag. -/
def tag (flow : Bool) (c : Cursor) : Option (Token × Cursor × Bool) := do
  let (t, rest) ← Property.tag? flow c.skip.rest
  some (t, c.moveTo rest, false)

/-- A block scalar. -/
def block (literal : Bool) (s : Layout) : Option Layout := do
  let s ← s.dropKey
  let (text, cursor) ← Block.read literal s.level s.cursor.skip
  some { s.push (.scalar (.ofList text) (if literal then .literal else .folded)) with
    cursor, keyAllowed := true }

/-- A directive. -/
def directive (s : Layout) : Option Layout := do
  let s ← s.boundary
  let (t, rest) ← Property.directive? s.cursor.skip.rest
  let cursor ← (s.cursor.moveTo rest).endLine?
  some { s.push t with cursor, keyAllowed := false }

/-- Takes the next token, which starts here. -/
def take (s : Layout) : Option Layout :=
  match s.cursor.rest with
  | [] => none
  | ch :: rest =>
    if s.cursor.column = 0 ∧ ch = '%' then s.directive
    else if s.cursor.atMarker then do
      let s ← s.boundary
      some (s.mark (if ch = '-' then .documentStart else .documentEnd) 3 false)
    else if ch = '[' then s.openFlow .flowSequenceStart
    else if ch = '\x7b' then s.openFlow .flowMappingStart
    else if ch = ']' then s.closeFlow .flowSequenceEnd
    else if ch = '\x7d' then s.closeFlow .flowMappingEnd
    else if ch = ',' then do
      let s ← s.dropKey
      some (s.mark .flowEntry 1 true)
    else if ch = '-' ∧ startsBlank rest then s.indicator .blockSequenceStart .blockEntry true
    else if ch = '?' ∧ (s.inFlow ∨ startsBlank rest) then
      s.indicator .blockMappingStart .key !s.inFlow
    else if ch = ':' ∧ (s.inFlow ∨ startsBlank rest) then s.colon
    else if ch = '*' then s.part (named .aliasOf)
    else if ch = '&' then s.part (named .anchor)
    else if ch = '!' then s.part (tag s.inFlow)
    else if ch = '|' ∧ ¬s.inFlow then block true s
    else if ch = '>' ∧ ¬s.inFlow then block false s
    else if ch = '\'' then s.part (quoted false)
    else if ch = '"' then s.part (quoted true)
    else if Plain.starts s.inFlow (ch :: rest) then s.part (plain s.inFlow s.level)
    else none

/-- The tokens of a document that has been cut up to its end. -/
def finish (s : Layout) : Option (List Token) := do
  let s ← s.boundary
  some s.tokens.reverse

/-- Cuts the rest of a document. Every token takes something away. -/
def run (s : Layout) : Option (List Token) :=
  match s.advance with
  | none => none
  | some next =>
    if next.cursor.rest = [] then next.finish
    else
      match next.take with
      | none => none
      | some after =>
        if after.cursor.rest.length < s.cursor.rest.length then run after else none
termination_by s.cursor.rest.length

end Layout

/-- The tokens of a document. A byte order mark may stand before it. -/
def tokens? (text : String) : Option (List Token) :=
  let cs := match text.toList with
    | '\ufeff' :: rest => rest
    | cs => cs
  if cs.all isAllowed then Layout.run { cursor := { rest := cs } } else none

end Yaml

end ClientMetrics
