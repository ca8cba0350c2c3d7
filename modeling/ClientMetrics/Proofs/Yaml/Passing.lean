import ClientMetrics.Yaml.Gap
import ClientMetrics.Yaml.Style
import ClientMetrics.Yaml.Write

/-!
# Passing over written text

What is written in a file of settings holds few kinds of characters: those that can be shown, the
three line ends among them, and spaces, never a tab. Reading it therefore moves a cursor forward
one character at a time, which `Cursor.past` says for a whole piece of text at once. A gap in such
text is either spaces or some line ends and the indentation after them.

Key results:
- `Cursor.rest_past`, `Cursor.column_past_breaks`, `Cursor.past_eq_skipMany`: where a cursor stands
  after a piece of text.
- `Gap.read_spaces`, `Gap.read_breaks`: the two kinds of gap.
- `Continuation`: what may follow an entry, a line that is indented less or the end of the file.
-/

namespace ClientMetrics

namespace Yaml

/-! ## Characters -/

/-- What can be shown may stand in a document. -/
theorem isAllowed_of_isPrintable {c : Char} (h : isPrintable c) : isAllowed c := by
  simp only [isPrintable, isAllowed, Bool.or_eq_true, Bool.and_eq_true, decide_eq_true_eq] at h ⊢
  omega

/-- A tab cannot be shown, so what is written has none. -/
theorem ne_tab_of_isPrintable {c : Char} (h : isPrintable c) : c ≠ '\t' := by
  rintro rfl
  simp [isPrintable] at h

/-- The only blank that can be shown is the space. -/
theorem isBlank_eq_of_isPrintable {c : Char} (h : isPrintable c) :
    isBlank c = decide (c = ' ') := by
  simp [isBlank, ne_tab_of_isPrintable h]

/-- The line ends that can be shown. -/
theorem isBreak_cases {c : Char} (h : isPrintable c) (hb : isBreak c) :
    c = '\n' ∨ c = '\u2028' ∨ c = '\u2029' := by
  simp only [isBreak, Bool.or_eq_true, decide_eq_true_eq] at hb
  rcases hb with (((hb | hb) | hb) | hb) | hb
  · exact .inl hb
  · -- a carriage return and the line end of eight bits cannot be shown
    subst hb
    simp [isPrintable] at h
  · subst hb
    simp [isPrintable] at h
  · exact .inr (.inl hb)
  · exact .inr (.inr hb)

theorem isBlank_of_isBreak {c : Char} (h : isBreak c) : isBlank c = false := by
  simp only [isBreak, Bool.or_eq_true, decide_eq_true_eq] at h
  rcases h with (((rfl | rfl) | rfl) | rfl) | rfl <;> decide

/-- A character with which the next part of a document can start. -/
def isLead (c : Char) : Bool := isPrintable c && !isBreak c && c ≠ ' ' && c ≠ '#'

/-- The next part of a document starts with something that can be shown. -/
theorem isPrintable_of_isLead {c : Char} (h : isLead c) : isPrintable c := by
  simp only [isLead, Bool.and_eq_true] at h
  exact h.1.1.1

theorem isBreak_of_isLead {c : Char} (h : isLead c) : isBreak c = false := by
  simp only [isLead, Bool.and_eq_true, Bool.not_eq_true'] at h
  exact h.1.1.2

theorem ne_of_isLead {c d : Char} (h : isLead c) (hd : isLead d = false) : c ≠ d := by
  rintro rfl
  simp [h] at hd

theorem isBlank_of_isLead {c : Char} (h : isLead c) : isBlank c = false := by
  rw [isBlank_eq_of_isPrintable (isPrintable_of_isLead h), decide_eq_false_iff_not]
  exact ne_of_isLead h (by decide)

/-- The text is over, or the next part of a document starts here. -/
def Leads : List Char → Prop
  | [] => True
  | c :: _ => isLead c

/-- The text does not start with a blank or a line end. -/
def Solid : List Char → Prop
  | [] => True
  | c :: _ => isBlank c = false ∧ isBreak c = false

/-- Where the next part starts there is neither a blank nor a line end. -/
theorem Leads.solid {cs : List Char} (h : Leads cs) : Solid cs := by
  cases cs with
  | nil => trivial
  | cons c cs => exact ⟨isBlank_of_isLead h, isBreak_of_isLead h⟩

/-- The characters of one kind at the front of a text, and what follows them. -/
theorem exists_run (p : Char → Bool) (cs : List Char) :
    ∃ run more, cs = run ++ more ∧ (∀ c ∈ run, p c) ∧ ∀ d ∈ more.head?, p d = false := by
  refine ⟨cs.takeWhile p, cs.dropWhile p, List.takeWhile_append_dropWhile.symm, ?_, ?_⟩
  · exact List.all_eq_true.1 List.all_takeWhile
  · intro d hd
    have hfirst := List.head?_dropWhile_not p cs
    rwa [Option.mem_def.1 hd] at hfirst

/-! ## Spaces -/

@[simp] theorem spaces_zero : spaces 0 = [] := rfl

theorem spaces_succ (n : Nat) : spaces (n + 1) = ' ' :: spaces n := rfl

@[simp] theorem length_spaces (n : Nat) : (spaces n).length = n := by simp [spaces]

/-- Among spaces there is nothing else. -/
theorem eq_of_mem_spaces {n : Nat} {c : Char} (h : c ∈ spaces n) : c = ' ' :=
  List.eq_of_mem_replicate h

/-- A text that starts with a space starts with some spaces and then has something else. -/
theorem exists_spaces (cs : List Char) :
    ∃ n more, ' ' :: cs = spaces (n + 1) ++ more ∧ more.head? ≠ some ' ' := by
  induction cs with
  | nil => exact ⟨0, [], rfl, by simp⟩
  | cons c cs ih =>
    -- each space adds one to those of the rest
    by_cases hc : c = ' '
    · obtain ⟨n, more, hsplit, hmore⟩ := ih
      refine ⟨n + 1, more, ?_, hmore⟩
      rw [spaces_succ, List.cons_append, ← hsplit, hc]
    · exact ⟨0, c :: cs, rfl, by simpa using hc⟩

/-! ## Cursors -/

namespace Cursor

/-- Past a character, which may end a line. -/
def pastChar (c : Cursor) (ch : Char) : Cursor :=
  if isBreak ch then ⟨c.rest.tail, c.index + 1, c.line + 1, 0⟩ else c.skip

/-- Past a piece of text. -/
def past (c : Cursor) (text : List Char) : Cursor := text.foldl pastChar c

variable {c : Cursor}

@[simp] theorem past_nil (c : Cursor) : c.past [] = c := rfl

theorem past_cons (c : Cursor) (ch : Char) (text : List Char) :
    c.past (ch :: text) = (c.pastChar ch).past text := rfl

theorem past_append (c : Cursor) (text more : List Char) :
    c.past (text ++ more) = (c.past text).past more := List.foldl_append

/-- Past a character there is what stood behind it, whether it ended a line or not. -/
theorem rest_pastChar (c : Cursor) (ch : Char) : (c.pastChar ch).rest = c.rest.tail := by
  unfold pastChar
  split <;> rfl

/-- Past a piece of text there is what stood behind it. -/
theorem rest_past {text more : List Char} (h : c.rest = text ++ more) :
    (c.past text).rest = more := by
  induction text generalizing c with
  | nil => exact h
  | cons ch text ih =>
    apply ih
    rw [rest_pastChar, h]
    rfl

theorem rest_past_singleton {ch : Char} {more : List Char} (h : c.rest = ch :: more) :
    (c.past [ch]).rest = more := rest_past h

/-- A cursor does not go back to an earlier line. -/
theorem line_le_past (c : Cursor) (text : List Char) : c.line ≤ (c.past text).line := by
  induction text generalizing c with
  | nil => exact Nat.le_refl _
  | cons ch text ih =>
    refine Nat.le_trans ?_ (ih (c.pastChar ch))
    unfold pastChar
    -- a break goes on to the next line, and anything else stays on this one
    split
    · exact Nat.le_succ _
    · exact Nat.le_refl _

/-- A line end leads to the first column of the next line. -/
theorem past_of_isBreak {b : Char} (h : isBreak b) :
    c.pastChar b = ⟨c.rest.tail, c.index + 1, c.line + 1, 0⟩ := by
  rw [pastChar, if_pos h]

/-- A line end starts a line. -/
theorem line_lt_past {b : Char} (h : isBreak b) (text : List Char) :
    c.line < (c.past (b :: text)).line := by
  have := line_le_past (c.pastChar b) text
  rw [past_of_isBreak h] at this
  rw [past_cons, past_of_isBreak h]
  exact this

/-- Without line ends a cursor only counts characters. -/
theorem past_eq_skipMany {text : List Char} (h : ∀ ch ∈ text, isBreak ch = false) (c : Cursor) :
    c.past text = c.skipMany text.length := by
  induction text generalizing c with
  | nil => simp [skipMany]
  | cons ch text ih =>
    obtain ⟨hch, htext⟩ := List.forall_mem_cons.1 h
    rw [past_cons, ih htext, pastChar, hch]
    simp [skip, skipMany, Nat.add_assoc, Nat.add_comm 1]

/-- Passing spaces moves a cursor on by their number. -/
theorem past_spaces (c : Cursor) (n : Nat) : c.past (spaces n) = c.skipMany n := by
  rw [past_eq_skipMany, length_spaces]
  intro ch hch
  rw [eq_of_mem_spaces hch]
  decide

/-- The indentation of a line is its first column. -/
theorem column_past_breaks {b : Char} {ends : List Char} (h : ∀ b' ∈ b :: ends, isBreak b')
    (n : Nat) : (c.past (b :: ends ++ spaces n)).column = n := by
  induction ends generalizing b c with
  | nil =>
    -- the last line end takes the column back to the start, and the spaces count it up
    rw [List.cons_append, List.nil_append, past_cons, past_spaces,
      past_of_isBreak (h b List.mem_cons_self)]
    simp [skipMany]
  | cons b' ends ih =>
    rw [List.cons_append, past_cons]
    exact ih fun b'' hb => h b'' (List.mem_cons_of_mem _ hb)

/-- Nothing is skipped if the first character is of another kind. -/
theorem skipWhile_eq {p : Char → Bool} (h : ∀ ch ∈ c.rest.head?, p ch = false) :
    c.skipWhile p = c := by
  have hnone : c.rest.takeWhile p = [] := by
    cases hc : c.rest with
    | nil => rfl
    | cons ch more => simp [h ch (by simp [hc])]
  simp [skipWhile, hnone, skipMany]

/-- Skipping a character that ends no line is passing it. -/
theorem skip_eq_past {ch : Char} (h : isBreak ch = false) : c.skip = c.past [ch] := by
  simp [past, pastChar, h]

/-- Skipping a line end is passing it too, as long as it can be shown: two characters are skipped
only where a carriage return comes first. -/
theorem skipBreak_eq_past {b : Char} {more : List Char} (hc : c.rest = b :: more)
    (hb : isBreak b) (hp : isPrintable b) : c.skipBreak = c.past [b] := by
  rw [past_cons, past_nil, past_of_isBreak hb, skipBreak, hc]
  rcases isBreak_cases hp hb with rfl | rfl | rfl <;> rfl

/-- A line end that can be shown counts as itself. -/
theorem breakText_eq {b : Char} {more : List Char} (hc : c.rest = b :: more) (hb : isBreak b)
    (hp : isPrintable b) : c.breakText = [b] := by
  rw [breakText, hc]
  rcases isBreak_cases hp hb with rfl | rfl | rfl <;> rfl

end Cursor

/-! ## Gaps -/

namespace Gap

variable {least : Nat} {g : Gap} {c : Cursor}

/-- What a gap does at the next character. -/
theorem read_cons {ch : Char} {more : List Char} (hc : c.rest = ch :: more) :
    read least g c =
      if isBlank ch then
        if g.broken then
          if ch = '\t' ∧ c.column < least then none else read least g c.skip
        else read least { g with blanks := g.blanks ++ [ch] } c.skip
      else if isBreak ch then read least (g.addBreak c.breakText) c.skipBreak
      else some (g, c) := by
  rw [read.eq_def]
  -- the text is not empty, so the second branch is taken
  split
  · next hn => simp [hn] at hc
  · next ch' more' hch =>
    obtain ⟨rfl, -⟩ : ch' = ch ∧ more' = more := by simpa [hch] using hc
    rfl

/-- A gap ends where something solid stands. -/
theorem read_solid (h : Solid c.rest) : read least g c = some (g, c) := by
  -- at the end of the text there is nothing to pass over either
  cases hc : c.rest with
  | nil =>
    rw [read.eq_def]
    split
    · rfl
    · next hch => simp [hch] at hc
  | cons ch more =>
    rw [hc] at h
    rw [read_cons hc, if_neg (by simp [h.1]), if_neg (by simp [h.2])]

/-- A space is kept in a line of text and does not count at the start of one. -/
theorem read_space {more : List Char} (hc : c.rest = ' ' :: more) :
    read least g c
      = read least (if g.broken then g else { g with blanks := g.blanks ++ [' '] })
          (c.past [' ']) := by
  rw [read_cons hc, Cursor.skip_eq_past (show isBreak ' ' = false by decide), if_pos (by decide)]
  split
  · rw [if_neg (by simp)]
  · rfl

/-- Spaces on one line are kept. -/
theorem read_spaces (n : Nat) {more : List Char} (hg : g.broken = false)
    (hc : c.rest = spaces n ++ more) (hmore : Solid more) :
    read least g c = some ({ g with blanks := g.blanks ++ spaces n }, c.past (spaces n)) := by
  induction n generalizing g c with
  | zero =>
    rw [spaces_zero, List.nil_append] at hc
    simp [read_solid (hc ▸ hmore)]
  | succ n ih =>
    rw [spaces_succ, List.cons_append] at hc
    -- the first space is one of the blanks, and the others follow it
    have hnext := ih (g := { g with blanks := g.blanks ++ [' '] }) hg
      (Cursor.rest_past_singleton hc)
    rw [read_space hc, if_neg (by simp [hg]), hnext, spaces_succ, ← Cursor.past_append]
    simp

/-- Spaces after a line end do not count. -/
theorem read_indentation (n : Nat) {more : List Char} (hg : g.broken = true)
    (hc : c.rest = spaces n ++ more) (hmore : Solid more) :
    read least g c = some (g, c.past (spaces n)) := by
  induction n generalizing c with
  | zero =>
    rw [spaces_zero, List.nil_append] at hc
    simp [read_solid (hc ▸ hmore)]
  | succ n ih =>
    rw [spaces_succ, List.cons_append] at hc
    -- after a break spaces are indentation, and are not kept
    rw [read_space hc, if_pos hg, ih (Cursor.rest_past_singleton hc), spaces_succ,
      ← Cursor.past_append]
    rfl

/-- A line end goes to those of the gap, and the next line starts. -/
theorem read_break {b : Char} {more : List Char} (hc : c.rest = b :: more) (hb : isBreak b)
    (hp : isPrintable b) : read least g c = read least (g.addBreak [b]) (c.past [b]) := by
  rw [read_cons hc, if_neg (by simp [isBlank_of_isBreak hb]), if_pos hb,
    Cursor.skipBreak_eq_past hc hb hp, Cursor.breakText_eq hc hb hp]

/-- Line ends after the first, and the indentation of the next line. -/
theorem read_moreBreaks {ends : List Char} (hends : ∀ b ∈ ends, isBreak b ∧ isPrintable b) (n : Nat)
    {more : List Char} (hg : g.broken = true) (hc : c.rest = ends ++ (spaces n ++ more))
    (hmore : Solid more) :
    read least g c = some ({ g with more := g.more ++ ends }, c.past (ends ++ spaces n)) := by
  induction ends generalizing g c with
  | nil => simpa using read_indentation n hg hc hmore
  | cons b ends ih =>
    obtain ⟨⟨hb, hp⟩, hends⟩ := List.forall_mem_cons.1 hends
    rw [List.cons_append] at hc
    -- the gap is broken already, so each line end joins those after the first
    have hadd : (g.addBreak [b]).broken = true := by simp [addBreak, hg]
    rw [read_break hc hb hp, ih hends hadd (Cursor.rest_past_singleton hc)]
    simp [addBreak, hg, Cursor.past_cons]

/-- Some line ends and the indentation of the next line. -/
theorem read_breaks {b : Char} {ends : List Char}
    (hends : ∀ b' ∈ b :: ends, isBreak b' ∧ isPrintable b') (n : Nat) {more : List Char}
    (hc : c.rest = b :: ends ++ (spaces n ++ more)) (hmore : Solid more) :
    read least {} c
      = some ({ broken := true, first := [b], more := ends }, c.past (b :: ends ++ spaces n)) := by
  obtain ⟨⟨hb, hp⟩, hends⟩ := List.forall_mem_cons.1 hends
  rw [List.cons_append] at hc
  rw [read_break hc hb hp, read_moreBreaks hends n rfl (Cursor.rest_past_singleton hc) hmore]
  simp [addBreak, Cursor.past_cons]

end Gap

/-! ## What follows an entry -/

/-- What follows an entry of a mapping: line ends that are left over, the indentation of the next
line, and what stands there. At the end of a file nothing stands there. -/
structure Continuation where
  ends : List Char := []
  column : Nat := 0
  text : List Char := []
  ends_eq : ∀ b ∈ ends, b = '\n' := by simp
  leads : Leads text := by trivial

namespace Continuation

variable {least : Nat} {c : Cursor} {b : Char}

/-- What stands before the next part of the document. -/
def gap (k : Continuation) : List Char := k.ends ++ spaces k.column

/-- All that follows. -/
def chars (k : Continuation) : List Char := k.gap ++ k.text

theorem isBreak_ends (k : Continuation) : ∀ b ∈ k.ends, isBreak b ∧ isPrintable b := by
  intro b hb
  rw [k.ends_eq b hb]
  decide

theorem isBreak_append_ends (k : Continuation) {ends : List Char}
    (h : ∀ b ∈ ends, isBreak b ∧ isPrintable b) :
    ∀ b ∈ ends ++ k.ends, isBreak b ∧ isPrintable b := by
  intro b hb
  exact (List.mem_append.1 hb).elim (h b) (k.isBreak_ends b)

/-- The column after a line end is that of the next part. -/
theorem column_past (k : Continuation) (hb : isBreak b) : (c.past (b :: k.gap)).column = k.column :=
  Cursor.column_past_breaks
    (List.forall_mem_cons.2 ⟨hb, fun b' hb' => (k.isBreak_ends b' hb').1⟩) k.column

/-- Past the gap there is the next part. -/
theorem rest_past (k : Continuation) (hc : c.rest = b :: k.chars) :
    (c.past (b :: k.gap)).rest = k.text :=
  Cursor.rest_past hc

/-- A gap in a scalar reaches up to the next part. -/
theorem read_gap (k : Continuation) (hb : isBreak b) (hp : isPrintable b)
    (hc : c.rest = b :: k.chars) :
    Gap.read least {} c
      = some ({ broken := true, first := [b], more := k.ends }, c.past (b :: k.gap)) :=
  Gap.read_breaks (List.forall_mem_cons.2 ⟨⟨hb, hp⟩, k.isBreak_ends⟩) k.column
    (by rw [hc, chars, gap, List.cons_append, List.append_assoc]) k.leads.solid

end Continuation

end Yaml

end ClientMetrics
