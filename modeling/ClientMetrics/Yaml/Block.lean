import ClientMetrics.Yaml.Gap

/-!
# Block scalars

A block scalar stands below its header, each line indented. A literal one keeps its lines, a folded
one joins lines that start at the indentation. The header says what becomes of the line ends after
the last line, and may give the indentation, which otherwise is that of the first line.
-/

namespace ClientMetrics

namespace Yaml

namespace Block

/-- What becomes of the line ends after the last line. -/
inductive Chomping where
  /-- The first is kept if there is one. -/
  | clip
  | strip
  | keep
  deriving DecidableEq, Repr

/-- What a header says. -/
structure Header where
  chomping : Chomping := .clip
  /-- How much deeper the lines are than the surroundings. -/
  increment : Option Nat := none
  deriving DecidableEq, Repr

/-- The sign that says what becomes of the last line ends. -/
def chomping? : Char → Option Chomping
  | '+' => some .keep
  | '-' => some .strip
  | _ => none

/-- The number of a digit other than zero. -/
def increment? (c : Char) : Option Nat :=
  if '1' ≤ c ∧ c ≤ '9' then some (c.toNat - 48) else none

/-- The header after the indicator, and how many characters it has: a sign and a digit in either
order, each of which may be missing. -/
def header? : List Char → Option (Header × Nat)
  | [] => some ({}, 0)
  | [a] =>
    match chomping? a, increment? a with
    | some c, _ => some ({ chomping := c }, 1)
    | none, some n => some ({ increment := some n }, 1)
    | none, none => if a = '0' then none else some ({}, 0)
  | a :: b :: _ =>
    match chomping? a, increment? a with
    | some c, _ =>
      match increment? b with
      | some n => some ({ chomping := c, increment := some n }, 2)
      | none => if b = '0' then none else some ({ chomping := c }, 1)
    | none, some n =>
      match chomping? b with
      | some c => some ({ chomping := c, increment := some n }, 2)
      | none => some ({ increment := some n }, 1)
    | none, none => if a = '0' then none else some ({}, 0)

/-- Past the spaces before a line. With a known indentation, no further than that. -/
def indentation (indent : Option Nat) (c : Cursor) : Cursor :=
  let spaces := (c.rest.takeWhile (· = ' ')).length
  match indent with
  | some n => c.skipMany (min spaces (n - c.column))
  | none => c.skipMany spaces

theorem length_indentation_le (indent : Option Nat) (c : Cursor) :
    (indentation indent c).rest.length ≤ c.rest.length := by
  unfold indentation
  split <;> exact Cursor.length_skipMany_le ..

/-- Empty lines, up to the first that is not: the line ends, the greatest column reached, and the
place after the indentation. A tab may not stand in the place of indentation. -/
def emptyLines (indent : Option Nat) (c : Cursor) : Option (List Char × Nat × Cursor) :=
  match h : (indentation indent c).rest with
  | [] => some ([], (indentation indent c).column, indentation indent c)
  | ch :: _ =>
    if ch = '\t' ∧ indent.all ((indentation indent c).column < ·) then none
    else if isBreak ch then
      have := Cursor.length_skipBreak h
      have := length_indentation_le indent c
      do
        let (ends, widest, final) ← emptyLines indent (indentation indent c).skipBreak
        some ((indentation indent c).breakText ++ ends, max (indentation indent c).column widest,
          final)
    else some ([], (indentation indent c).column, indentation indent c)
termination_by c.rest.length

/-- Nor at empty lines. -/
theorem length_of_emptyLines {indent : Option Nat} {c final : Cursor} {ends : List Char}
    {widest : Nat} (h : emptyLines indent c = some (ends, widest, final)) :
    final.rest.length ≤ c.rest.length := by
  fun_induction emptyLines indent c generalizing ends widest with
  | case1 c =>
    simp only [Option.some.injEq, Prod.mk.injEq] at h
    exact h.2.2 ▸ length_indentation_le ..
  | case2 => simp at h
  | case3 c =>
    rename_i ih
    simp only [Option.bind_eq_bind, Option.bind_eq_some_iff, Option.some.injEq, Prod.mk.injEq,
      Prod.exists] at h
    -- the first line end is consumed, and then the other empty lines
    obtain ⟨ends', widest', final', hr, -, -, rfl⟩ := h
    have := ih hr
    omega
  | case4 c =>
    simp only [Option.some.injEq, Prod.mk.injEq] at h
    exact h.2.2 ▸ length_indentation_le ..

/-- What has been read of a block scalar and not yet been decided about. -/
structure Tail where
  /-- The line end of the last line with text. -/
  lineEnd : List Char := []
  /-- The line ends after it. -/
  more : List Char := []
  /-- The last line with text starts with a blank. -/
  blank : Bool := false
  deriving DecidableEq, Repr

/-- What stands between a line and the next one with text. -/
def Tail.join (t : Tail) (literal blank : Bool) : List Char :=
  if !literal && t.lineEnd = ['\n'] && !t.blank && !blank then
    if t.more = [] then [' '] else t.more
  else t.lineEnd ++ t.more

/-- What stands after the last line. -/
def Tail.chomp (t : Tail) : Chomping → List Char
  | .strip => []
  | .clip => t.lineEnd
  | .keep => t.lineEnd ++ t.more

/-- The text from here to the end of the line. -/
def lineText (c : Cursor) : List Char := c.rest.takeWhile (!isBreak ·)

/-- A line that is not over has at least one character or a line end. -/
theorem length_line_lt {c : Cursor} {ch : Char} {rest : List Char} (h : c.rest = ch :: rest) :
    (c.skipMany (lineText c).length).skipBreak.rest.length < c.rest.length := by
  by_cases hb : isBreak ch
  · have hz : lineText c = [] := by simp [lineText, h, hb]
    have hc : c.skipMany 0 = c := by simp [Cursor.skipMany]
    rw [hz, List.length_nil, hc]
    exact Cursor.length_skipBreak h
  · have hl : (lineText c).length = 1 + (rest.takeWhile (!isBreak ·)).length := by
      simp [lineText, h, hb, Nat.add_comm]
    rw [hl]
    have := Cursor.length_skipMany_lt (rest.takeWhile (!isBreak ·)).length h
    have := (c.skipMany (1 + (rest.takeWhile (!isBreak ·)).length)).length_skipBreak_le
    omega

/-- The lines of a block scalar at a known indentation. -/
def lines (literal : Bool) (chomping : Chomping) (indent : Nat) (tail : Tail) (c : Cursor) :
    Option (List Char × Cursor) :=
  match h : c.rest with
  | [] => some (tail.chomp chomping, c)
  | ch :: _ =>
    if c.column = indent then
      have := length_line_lt h
      match he : emptyLines (some indent) (c.skipMany (lineText c).length).skipBreak with
      | none => none
      | some (more, _, c') => do
        have := length_of_emptyLines he
        let next : Tail := ⟨(c.skipMany (lineText c).length).breakText, more, isBlank ch⟩
        let (rest, final) ← lines literal chomping indent next c'
        some (tail.join literal (isBlank ch) ++ lineText c ++ rest, final)
    else some (tail.chomp chomping, c)
termination_by c.rest.length

/-- A block scalar after its indicator, in surroundings at `level`. -/
def read (literal : Bool) (level : Nat) (c : Cursor) : Option (List Char × Cursor) := do
  let (header, width) ← header? c.rest
  let start ← (c.skipMany width).endLine?
  match header.increment with
  | some n =>
    let indent := level - 1 + n
    let (more, _, first) ← emptyLines (some indent) start
    lines literal header.chomping indent { more } first
  | none =>
    let (more, widest, first) ← emptyLines none start
    lines literal header.chomping (max widest (max level 1)) { more } first

end Block

end Yaml

end ClientMetrics
