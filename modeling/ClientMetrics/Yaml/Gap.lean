import ClientMetrics.Yaml.Cursor

/-!
# Gaps within scalars

A scalar may go on over blanks and line ends. Blanks on one line are kept. A single line end counts
as a space, several as one less than there are, and the blanks around them do not count.
-/

namespace ClientMetrics

namespace Yaml

/-- Blanks and line ends between two parts of a scalar. -/
structure Gap where
  /-- The blanks before the first line end. -/
  blanks : List Char := []
  /-- A line ended. -/
  broken : Bool := false
  /-- The first line end, unless it was escaped. -/
  first : List Char := []
  /-- The line ends after the first. -/
  more : List Char := []
  deriving DecidableEq, Repr

namespace Gap

/-- What a gap counts as. -/
def text (g : Gap) : List Char :=
  if g.broken then
    if g.first = ['\n'] then if g.more = [] then [' '] else g.more
    else g.first ++ g.more
  else g.blanks

/-- A gap with one more line end. -/
def addBreak (g : Gap) (lineEnd : List Char) : Gap :=
  if g.broken then { g with more := g.more ++ lineEnd }
  else { broken := true, first := lineEnd }

/-- Reads on to the next character that is neither blank nor line end. A tab may not stand in the
place of indentation, that is, before the column `least`. -/
def read (least : Nat) (g : Gap) (c : Cursor) : Option (Gap × Cursor) :=
  match h : c.rest with
  | [] => some (g, c)
  | ch :: _ =>
    have := Cursor.length_skip h
    have := Cursor.length_skipBreak h
    if isBlank ch then
      if g.broken then
        if ch = '\t' ∧ c.column < least then none else read least g c.skip
      else read least { g with blanks := g.blanks ++ [ch] } c.skip
    else if isBreak ch then read least (g.addBreak c.breakText) c.skipBreak
    else some (g, c)
termination_by c.rest.length

/-- Nothing is put back where a gap is read. -/
theorem length_of_read {least : Nat} {g g' : Gap} {c c' : Cursor}
    (h : g.read least c = some (g', c')) : c'.rest.length ≤ c.rest.length := by
  fun_induction read least g c with
  | case1 => simp only [Option.some.injEq, Prod.mk.injEq] at h; simp [h.2]
  | case2 => simp at h
  | case3 => rename_i ih; have := ih h; omega
  | case4 => rename_i ih; have := ih h; omega
  | case5 => rename_i ih; have := ih h; omega
  | case6 => simp only [Option.some.injEq, Prod.mk.injEq] at h; simp [h.2]

/-- A gap that starts with a blank or a line end takes something away. -/
theorem length_of_read_lt {least : Nat} {g g' : Gap} {c c' : Cursor} {ch : Char} {rest : List Char}
    (hc : c.rest = ch :: rest) (hch : isBlank ch || isBreak ch)
    (h : g.read least c = some (g', c')) : c'.rest.length < c.rest.length := by
  rw [read.eq_def] at h
  have hs := Cursor.length_skip hc
  have hb := Cursor.length_skipBreak hc
  -- whether it is a blank or a break, it is consumed before the rest of the gap
  split at h
  · next hn => simp [hn] at hc
  · next ch' rest' hc' =>
    obtain ⟨rfl, rfl⟩ : ch' = ch ∧ rest' = rest := by simpa [hc'] using hc
    split at h
    · split at h
      · split at h
        · simp at h
        · have := length_of_read h; omega
      · have := length_of_read h; omega
    · split at h
      · have := length_of_read h; omega
      · simp_all

end Gap

end Yaml

end ClientMetrics
