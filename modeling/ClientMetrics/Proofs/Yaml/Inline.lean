import ClientMetrics.Proofs.Yaml.Passing
import ClientMetrics.Yaml.Plain
import ClientMetrics.Yaml.Quoted
import Mathlib.Algebra.Group.Nat.Defs

/-!
# Reading scalars without a block

What is written plainly, or between quotes of either kind, is read back as itself, and the cursor
ends just after it. Spaces are the only gaps in a plain scalar and between double quotes; between
single quotes there are line ends too, but only those that are not folded.

Key results:
- `Plain.read_append`: a text that may be written plainly is taken as it stands.
- `Plain.read_colon`, `Plain.read_continuation`: it ends at the colon after a key, or at a line end
  and with it at the next line that is indented less.
- `Quoted.read_singleBody`, `Quoted.read_doubleBody`: texts between quotes.
-/

namespace ClientMetrics

namespace Yaml

/-- Within a line there is no document marker. -/
theorem atMarker_of_column {c : Cursor} (h : 0 < c.column) : c.atMarker = false := by
  have : c.column ≠ 0 := by omega
  simp [Cursor.atMarker, this]

/-- Spaces move the column on by their number. -/
theorem column_past_spaces (c : Cursor) (n : Nat) :
    (c.past (spaces n)).column = c.column + n := by
  rw [Cursor.past_spaces]
  rfl

/-! ## Plain scalars -/

namespace Plain

variable {level : Nat} {c : Cursor}

/-- Outside of flow collections every text is clear. -/
theorem isUnclear_block (cs : List Char) : isUnclear false cs = false := by
  unfold isUnclear
  split <;> simp

/-- What a scalar does at its next character, outside of flow collections. -/
theorem read_cons {ch : Char} {more : List Char} (hc : c.rest = ch :: more) :
    read false level c =
      if isBlank ch || isBreak ch then
        (Gap.read level {} c).bind fun (gap, c') =>
          if stopsAfterGap false level c' then some ([], c', gap.broken)
          else (read false level c').map fun (text, final) => (gap.text ++ text, final)
      else if stops false (ch :: more) then some ([], c, false)
      else (read false level c.skip).map fun (text, final) => (ch :: text, final) := by
  rw [read.eq_def]
  -- the definition carries proofs that the text gets shorter, which its branches do not need
  split
  · next hn => simp [hn] at hc
  · next ch' more' hch =>
    obtain ⟨rfl, rfl⟩ : ch' = ch ∧ more' = more := by simpa [hch] using hc
    split
    · split
      · next hgap => rw [hgap, Option.bind_none]
      · next gap c' hgap =>
        simp only [hgap, Option.bind_some]
        split
        · rfl
        · cases read false level c' <;> rfl
    · rw [if_neg (by simp [isUnclear_block]), hch]
      split
      · rfl
      · cases read false level c.skip <;> rfl

/-- A character that belongs to the scalar. -/
theorem read_char {ch : Char} {more : List Char} (hc : c.rest = ch :: more)
    (hblank : isBlank ch = false) (hbreak : isBreak ch = false)
    (hstop : stops false (ch :: more) = false) :
    read false level c
      = (read false level (c.past [ch])).map fun (text, final) => (ch :: text, final) := by
  rw [read_cons hc, if_neg (by simp [hblank, hbreak]), if_neg (by simp [hstop]),
    Cursor.skip_eq_past hbreak]

/-- A gap that does not end the scalar belongs to it. -/
theorem read_gap {ch : Char} {more : List Char} {gap : Gap} {c' : Cursor}
    (hc : c.rest = ch :: more) (hch : isBlank ch || isBreak ch)
    (hgap : Gap.read level {} c = some (gap, c')) :
    read false level c
      = if stopsAfterGap false level c' then some ([], c', gap.broken)
        else (read false level c').map fun (text, final) => (gap.text ++ text, final) := by
  rw [read_cons hc, if_pos hch, hgap, Option.bind_some]

/-- Spaces before a text hide no mark in it. -/
theorem hasInnerMark_of_spaces {n : Nat} {afterBlank : Bool} {more : List Char}
    (h : Style.hasInnerMark afterBlank (spaces (n + 1) ++ more) = false) :
    Style.hasInnerMark true more = false := by
  induction n generalizing afterBlank with
  | zero => simpa [spaces_succ, Style.hasInnerMark, isBlank] using h
  | succ n ih =>
    rw [spaces_succ, List.cons_append, Style.hasInnerMark] at h
    simp only [Bool.or_eq_false_iff] at h
    exact ih h.2

/-- Without a mark in it, a text goes on whatever follows it. -/
theorem stops_append {afterBlank : Bool} {ch : Char} {cs : List Char} (tail : List Char)
    (h : Style.hasInnerMark afterBlank (ch :: cs) = false) :
    stops false (ch :: cs ++ tail) = false := by
  simp only [Style.hasInnerMark, Bool.or_eq_false_iff, Bool.and_eq_false_iff,
    decide_eq_false_iff_not] at h
  unfold stops
  split
  · next heq => simp at heq
  · next rest heq =>
    obtain ⟨rfl, rfl⟩ : ch = ':' ∧ cs ++ tail = rest := by simpa using heq
    have hcs : startsBlank cs = false := h.1.1.resolve_left (by simp)
    -- a colon at the end would be a mark itself
    cases cs with
    | nil => simp [startsBlank] at hcs
    | cons d cs => exact hcs
  · simp

/-- Spaces within the text belong to the scalar. -/
theorem read_spaces {n : Nat} {d : Char} {more tail : List Char} (hd : Solid (d :: more))
    (hmark : Style.hasInnerMark true (d :: more) = false) (hcol : level ≤ c.column + 1)
    (hc : c.rest = spaces (n + 1) ++ (d :: more ++ tail)) :
    read false level c = (read false level (c.past (spaces (n + 1)))).map
      fun (text, final) => (spaces (n + 1) ++ text, final) := by
  have hgap : Gap.read level {} c = _ := Gap.read_spaces (n + 1) rfl hc hd
  have hnext : (c.past (spaces (n + 1))).rest = d :: more ++ tail := Cursor.rest_past hc
  have hcolumn := column_past_spaces c (n + 1)
  -- the scalar goes on: it is not at a marker, and no comment starts here
  have hmarker : (c.past (spaces (n + 1))).atMarker = false := atMarker_of_column (by omega)
  have hhash : d ≠ '#' := by
    rintro rfl
    simp [Style.hasInnerMark] at hmark
  have hstop : stopsAfterGap false level (c.past (spaces (n + 1))) = false := by
    simp only [stopsAfterGap, hmarker, hnext, stops_append tail hmark]
    simp [hhash]
    omega
  rw [read_gap hc (by decide) hgap, if_neg (by simp [hstop])]
  simp [Gap.text]

/-- A text without marks is read as it stands, up to what follows it. -/
theorem read_append {afterBlank : Bool} {cs tail : List Char}
    (hmark : Style.hasInnerMark afterBlank cs = false)
    (hcs : ∀ ch ∈ cs, isPrintable ch ∧ isBreak ch = false) (hlast : cs.getLast? ≠ some ' ')
    (hcol : level ≤ c.column + 1) (hc : c.rest = cs ++ tail) :
    read false level c
      = (read false level (c.past cs)).map fun (text, final) => (cs ++ text, final) := by
  induction hlen : cs.length using Nat.strongRecOn generalizing cs c afterBlank with
  | _ len ih =>
    cases cs with
    | nil => simp
    | cons ch cs =>
      obtain ⟨hprintable, hbreak⟩ := hcs ch List.mem_cons_self
      by_cases hch : ch = ' '
      · -- some spaces, after which the text goes on
        subst hch
        obtain ⟨n, more, hsplit, hmore⟩ := exists_spaces cs
        rw [hsplit] at hmark hcs hlast hc hlen ⊢
        cases more with
        | nil => simp [spaces, List.getLast?_replicate] at hlast
        | cons d more =>
          have hd : d ≠ ' ' := by simpa using hmore
          have hsolid : Solid (d :: more) := by
            obtain ⟨hprintable, hbreak⟩ := hcs d (by simp)
            exact ⟨by simp [isBlank_eq_of_isPrintable hprintable, hd], hbreak⟩
          have hinner := hasInnerMark_of_spaces hmark
          rw [List.append_assoc] at hc
          have hcolumn : level ≤ (c.past (spaces (n + 1))).column + 1 := by
            rw [column_past_spaces]
            omega
          rw [read_spaces hsolid hinner hcol hc,
            ih _ (by simp at hlen ⊢; omega) hinner (fun x hx => hcs x (by simp [hx]))
              (by simpa using hlast) hcolumn (Cursor.rest_past hc) rfl, Cursor.past_append]
          simp [Function.comp_def]
      · have hblank : isBlank ch = false := by simp [isBlank_eq_of_isPrintable hprintable, hch]
        have hstop := stops_append tail hmark
        rw [Style.hasInnerMark, Bool.or_eq_false_iff] at hmark
        have hcolumn : level ≤ (c.past [ch]).column + 1 := by
          rw [← Cursor.skip_eq_past hbreak]
          exact Nat.le_succ_of_le hcol
        have hlast' : cs.getLast? ≠ some ' ' := by
          cases cs with
          | nil => simp
          | cons d cs => simpa using hlast
        rw [read_char hc hblank hbreak hstop,
          ih cs.length (by simp at hlen; omega) hmark.2
            (fun x hx => hcs x (List.mem_cons_of_mem _ hx)) hlast' hcolumn
            (Cursor.rest_past_singleton hc) rfl, Cursor.past_cons]
        simp [Function.comp_def, Cursor.past]

/-- A plain scalar ends at the colon after it. -/
theorem read_colon {more : List Char} (hc : c.rest = ':' :: more) (h : startsBlank more) :
    read false level c = some ([], c, false) := by
  rw [read_cons hc, if_neg (by decide), if_pos (by simpa [stops] using h)]

/-- A plain scalar ends with its line if the next line is indented less. -/
theorem read_continuation (k : Continuation) (hk : k.column < level)
    (hc : c.rest = '\n' :: k.chars) :
    read false level c = some ([], c.past ('\n' :: k.gap), true) := by
  have hgap : Gap.read level {} c = _ := k.read_gap (by decide) (by decide) hc
  have hstop : stopsAfterGap false level (c.past ('\n' :: k.gap)) = true := by
    rw [stopsAfterGap, k.column_past (by decide)]
    simp [hk]
  rw [read_gap hc (by decide) hgap, if_pos hstop]

end Plain

/-! ## Quoted scalars -/

namespace Quoted

variable {double : Bool} {c : Cursor}

/-- What a scalar does at its next character. -/
theorem read_cons {ch : Char} {more : List Char} (hcol : 0 < c.column) (hc : c.rest = ch :: more) :
    read double c =
      if double ∧ ch = '"' then some ([], c.skip)
      else if ¬double ∧ ch = '\'' then
        if more.head? = some '\'' then
          (read double (c.skipMany 2)).map fun (text, final) => ('\'' :: text, final)
        else some ([], c.skip)
      else if double ∧ ch = '\\' then
        if more.head?.any isBreak then
          (Gap.read 0 { broken := true } c.skip.skipBreak).bind fun (gap, c') =>
            (read double c').map fun (text, final) => (gap.text ++ text, final)
        else
          (escape? more).bind fun (e, digits) =>
            (read double (c.skipMany (1 + (1 + digits)))).map
              fun (text, final) => (e :: text, final)
      else if isBlank ch || isBreak ch then
        (Gap.read 0 {} c).bind fun (gap, c') =>
          (read double c').map fun (text, final) => (gap.text ++ text, final)
      else (read double c.skip).map fun (text, final) => (ch :: text, final) := by
  rw [read.eq_def, if_neg (by simp [atMarker_of_column hcol])]
  split
  · next hn => simp [hn] at hc
  · next ch' more' hch =>
    obtain ⟨rfl, rfl⟩ : ch' = ch ∧ more' = more := by simpa [hch] using hc
    refine ite_congr rfl (fun _ => rfl) fun _ => ite_congr rfl (fun _ => ?_) fun _ =>
      -- branch by branch, without the proofs that the text gets shorter
      ite_congr rfl (fun _ => ite_congr rfl (fun _ => ?_) fun _ => ?_) fun _ => ?_
    · refine ite_congr rfl (fun _ => ?_) fun _ => rfl
      cases read double (c.skipMany 2) <;> rfl
    · split
      · next hgap => rw [hgap, Option.bind_none]
      · next gap c' hgap =>
        simp only [hgap, Option.bind_some]
        cases read double c' <;> rfl
    · cases escape? more' with
      | none => rfl
      | some e =>
        rw [Option.bind_some]
        cases hread : read double (c.skipMany (1 + (1 + e.2))) <;> simp [hread]
    · split
      · split
        · next hgap => rw [hgap, Option.bind_none]
        · next gap c' hgap =>
          simp only [hgap, Option.bind_some]
          cases read double c' <;> rfl
      · cases read double c.skip <;> rfl

/-- The closing quote. -/
theorem read_quote {q : Char} {more : List Char} (hcol : 0 < c.column) (hc : c.rest = q :: more)
    (hq : (double = true ∧ q = '"') ∨ (double = false ∧ q = '\'' ∧ more.head? ≠ some '\'')) :
    read double c = some ([], c.past [q]) := by
  have hbreak : isBreak q = false := by rcases hq with ⟨-, rfl⟩ | ⟨-, rfl, -⟩ <;> decide
  rw [read_cons hcol hc, Cursor.skip_eq_past hbreak]
  rcases hq with hq | ⟨hdouble, hq, hmore⟩
  · rw [if_pos hq]
  · rw [if_neg (by simp [hdouble]), if_pos (by simp [hdouble, hq]), if_neg hmore]

/-- A character that stands for itself. -/
theorem read_char {ch : Char} {more : List Char} (hcol : 0 < c.column) (hc : c.rest = ch :: more)
    (hblank : isBlank ch = false) (hbreak : isBreak ch = false)
    (hch : (double = true ∧ ch ≠ '"' ∧ ch ≠ '\\') ∨ (double = false ∧ ch ≠ '\'')) :
    read double c = (read double (c.past [ch])).map fun (text, final) => (ch :: text, final) := by
  rw [read_cons hcol hc, if_neg (by rcases hch with h | h <;> simp [h]),
    if_neg (by rcases hch with h | h <;> simp [h]), if_neg (by rcases hch with h | h <;> simp [h]),
    if_neg (by simp [hblank, hbreak]), Cursor.skip_eq_past hbreak]

/-- A gap, line ends included. -/
theorem read_gap {ch : Char} {more : List Char} {gap : Gap} {c' : Cursor} (hcol : 0 < c.column)
    (hc : c.rest = ch :: more) (hch : isBlank ch || isBreak ch)
    (hgap : Gap.read 0 {} c = some (gap, c')) :
    read double c = (read double c').map fun (text, final) => (gap.text ++ text, final) := by
  -- a blank or a break is neither a quote nor a backslash
  have hne : ∀ d, (isBlank d || isBreak d) = false → ch ≠ d := by
    rintro d hd rfl
    simp [hch] at hd
  have h₁ := hne '"' (by decide)
  have h₂ := hne '\'' (by decide)
  have h₃ := hne '\\' (by decide)
  rw [read_cons hcol hc, if_neg (by simp [h₁]), if_neg (by simp [h₂]), if_neg (by simp [h₃]),
    if_pos hch, hgap, Option.bind_some]

/-- Spaces on one line stand for themselves. -/
theorem read_spaces {n : Nat} {more : List Char} (hcol : 0 < c.column)
    (hc : c.rest = spaces (n + 1) ++ more) (hmore : Solid more) :
    read double c = (read double (c.past (spaces (n + 1)))).map
      fun (text, final) => (spaces (n + 1) ++ text, final) := by
  have hgap : Gap.read 0 {} c = _ := Gap.read_spaces (n + 1) rfl hc hmore
  rw [read_gap hcol hc (by decide) hgap]
  simp [Gap.text]

/-! ### Single quotes -/

/-- A quote that is written twice. -/
theorem read_pair {more : List Char} (hcol : 0 < c.column) (hc : c.rest = '\'' :: '\'' :: more) :
    read false c
      = (read false (c.past ['\'', '\''])).map fun (text, final) => ('\'' :: text, final) := by
  have hquotes : ∀ ch ∈ ['\'', '\''], isBreak ch = false := by simp [isBreak]
  rw [read_cons hcol hc, if_neg (by simp), if_pos (by simp), List.head?_cons, if_pos rfl,
    Cursor.past_eq_skipMany hquotes]
  rfl

/-- Line ends in single quotes stand for themselves, unless they are folded. The indentation after
them does not count. -/
theorem read_breaks {b : Char} {ends more : List Char} {n : Nat}
    (hends : ∀ b' ∈ b :: ends, isBreak b' ∧ isPrintable b') (hb : b ≠ '\n') (hcol : 0 < c.column)
    (hc : c.rest = b :: ends ++ (spaces n ++ more)) (hmore : Solid more) :
    read false c = (read false (c.past (b :: ends ++ spaces n))).map
      fun (text, final) => (b :: ends ++ text, final) := by
  have hgap : Gap.read 0 {} c = _ := Gap.read_breaks hends n hc hmore
  have hbreak := (List.forall_mem_cons.1 hends).1.1
  rw [List.cons_append] at hc
  rw [read_gap hcol hc (by simp [hbreak]) hgap]
  simp [Gap.text, hb]

/-- No space stands after a line end in the rest of a text either. -/
theorem hasSpaceAfterBreak_of_cons {ch : Char} {cs : List Char}
    (h : Style.hasSpaceAfterBreak (ch :: cs) = false) : Style.hasSpaceAfterBreak cs = false := by
  cases cs with
  | nil => rfl
  | cons d cs =>
    rw [Style.hasSpaceAfterBreak, Bool.or_eq_false_iff] at h
    exact h.2

/-- Nor does a line end after a space. -/
theorem hasBreakAfterSpace_of_cons {ch : Char} {cs : List Char}
    (h : Style.hasBreakAfterSpace (ch :: cs) = false) : Style.hasBreakAfterSpace cs = false := by
  cases cs with
  | nil => rfl
  | cons d cs =>
    rw [Style.hasBreakAfterSpace, Bool.or_eq_false_iff] at h
    exact h.2

/-- A text that can stand between single quotes: its line ends are none that are folded, and no
space stands beside them. -/
structure IsSingle (cs : List Char) : Prop where
  printable : ∀ ch ∈ cs, isPrintable ch
  unfolded : ∀ ch ∈ cs, ch ≠ '\n'
  spaceAfterBreak : Style.hasSpaceAfterBreak cs = false
  breakAfterSpace : Style.hasBreakAfterSpace cs = false

namespace IsSingle

variable {ch d : Char} {cs more : List Char}

/-- What can stand between single quotes can do so without its first character. -/
theorem tail (h : IsSingle (ch :: cs)) : IsSingle cs where
  printable x hx := h.printable x (List.mem_cons_of_mem _ hx)
  unfolded x hx := h.unfolded x (List.mem_cons_of_mem _ hx)
  spaceAfterBreak := hasSpaceAfterBreak_of_cons h.spaceAfterBreak
  breakAfterSpace := hasBreakAfterSpace_of_cons h.breakAfterSpace

theorem of_append (h : IsSingle (cs ++ more)) : IsSingle more := by
  induction cs with
  | nil => exact h
  | cons c cs ih => exact ih h.tail

theorem isBlank_head (h : IsSingle (d :: more)) : isBlank d = decide (d = ' ') :=
  isBlank_eq_of_isPrintable (h.printable d List.mem_cons_self)

/-- What follows line ends is solid, if it is not another line end. -/
theorem solid_of_breaks {b : Char} {ends : List Char} (hends : ∀ b' ∈ b :: ends, isBreak b')
    (hmore : ∀ d ∈ more.head?, isBreak d = false) (h : IsSingle (b :: ends ++ more)) :
    Solid more := by
  induction ends generalizing b with
  | nil =>
    cases more with
    | nil => trivial
    | cons d more =>
      -- no space stands after the last of the breaks
      have hspace := h.spaceAfterBreak
      simp only [List.cons_append, List.nil_append, Style.hasSpaceAfterBreak, Bool.or_eq_false_iff,
        hends b List.mem_cons_self, Bool.true_and] at hspace
      exact ⟨h.tail.isBlank_head.trans hspace.1, hmore d rfl⟩
  | cons b' ends ih => exact ih (fun x hx => hends x (List.mem_cons_of_mem _ hx)) h.tail

/-- What follows spaces is solid, if it is not another space. -/
theorem solid_of_spaces {n : Nat} (hmore : more.head? ≠ some ' ')
    (h : IsSingle (spaces (n + 1) ++ more)) : Solid more := by
  induction n with
  | zero =>
    cases more with
    | nil => trivial
    | cons d more =>
      have hd : d ≠ ' ' := by simpa using hmore
      -- no break stands after the last of the spaces
      have hbreak := h.breakAfterSpace
      simp only [spaces_succ, spaces_zero, List.cons_append, List.nil_append,
        Style.hasBreakAfterSpace, Bool.or_eq_false_iff, decide_true, Bool.true_and] at hbreak
      exact ⟨by simp [h.tail.isBlank_head, hd], hbreak.1⟩
  | succ n ih => exact ih h.tail

end IsSingle

/-- After line ends the next line is indented. -/
theorem singleBody_breaks {ends more : List Char} (n : Nat) (hends : ∀ b ∈ ends, isBreak b)
    (hmore : ∀ d ∈ more.head?, isBreak d = false) :
    Write.singleBody n true (ends ++ more)
      = ends ++ (spaces n ++ Write.singleBody n false more) := by
  induction ends with
  | nil =>
    cases more with
    | nil => simp [Write.singleBody]
    | cons d more =>
      have hd : isBreak d = false := by simpa using hmore
      simp [Write.singleBody, hd]
  | cons b ends ih =>
    obtain ⟨hb, hends⟩ := List.forall_mem_cons.1 hends
    -- a break is written as it is, and the indentation comes after the last one
    rw [List.cons_append, Write.singleBody, if_pos hb, ih hends, List.cons_append]

/-- Spaces are written as they are. -/
theorem singleBody_spaces (n m : Nat) (more : List Char) :
    Write.singleBody n false (spaces m ++ more) = spaces m ++ Write.singleBody n false more := by
  induction m with
  | zero => rfl
  | succ m ih =>
    rw [spaces_succ, List.cons_append, Write.singleBody, ih]
    simp [isBreak]

/-- So is any other character that does not end a line, but for the quote, which is written
twice. -/
theorem singleBody_char {ch : Char} (n : Nat) (cs : List Char) (h : isBreak ch = false) :
    Write.singleBody n false (ch :: cs)
      = (if ch = '\'' then ['\'', '\''] else [ch]) ++ Write.singleBody n false cs := by
  simp [Write.singleBody, h]

/-- The text between single quotes goes on with a character of its own, or with a quote. -/
theorem solid_singleBody {cs : List Char} (n : Nat) (tail : List Char) (h : Solid cs) :
    Solid (Write.singleBody n false cs ++ '\'' :: tail) := by
  cases cs with
  | nil => exact ⟨by decide, by decide⟩
  | cons d cs =>
    obtain ⟨hblank, hbreak⟩ := h
    -- a quote that is written twice starts with one
    rw [singleBody_char n cs hbreak]
    split
    · exact ⟨by decide, by decide⟩
    · exact ⟨hblank, hbreak⟩

/-- A text between single quotes is read as it was. -/
theorem read_singleBody {n : Nat} {cs tail : List Char} (hn : 0 < n) (hcs : IsSingle cs)
    (htail : tail.head? ≠ some '\'') (hcol : 0 < c.column)
    (hc : c.rest = Write.singleBody n false cs ++ '\'' :: tail) :
    read false c = some (cs, c.past (Write.singleBody n false cs ++ ['\''])) := by
  induction hlen : cs.length using Nat.strongRecOn generalizing cs c with
  | _ len ih =>
    cases cs with
    | nil => exact read_quote hcol hc (.inr ⟨rfl, rfl, htail⟩)
    | cons ch cs =>
      by_cases hch : isBreak ch = true
      · -- line ends, after which the next line is indented
        obtain ⟨ends, more, rfl, hends, hmore⟩ := exists_run isBreak cs
        have hall : ∀ b ∈ ch :: ends, isBreak b := List.forall_mem_cons.2 ⟨hch, hends⟩
        have hsolid := solid_singleBody n tail (hcs.solid_of_breaks hall hmore)
        rw [Write.singleBody, if_pos hch, singleBody_breaks n hends hmore] at hc ⊢
        rw [← List.cons_append] at hcs hc ⊢
        have hprintable : ∀ b ∈ ch :: ends, isBreak b ∧ isPrintable b :=
          fun b hb => ⟨hall b hb, hcs.printable b (List.mem_append_left _ hb)⟩
        have hcolumn : 0 < (c.past (ch :: ends ++ spaces n)).column := by
          rw [Cursor.column_past_breaks hall]
          exact hn
        rw [List.append_assoc, List.append_assoc] at hc
        have hnext := ih more.length (by simp at hlen; omega) hcs.of_append hcolumn
          (Cursor.rest_past (by rw [hc, List.append_assoc])) rfl
        rw [read_breaks hprintable (hcs.unfolded ch (by simp)) hcol hc hsolid, hnext,
          ← Cursor.past_append]
        simp
      · by_cases hspace : ch = ' '
        · -- some spaces, after which the line goes on
          subst hspace
          obtain ⟨m, more, hsplit, hmore⟩ := exists_spaces cs
          rw [hsplit] at hcs hc hlen ⊢
          have hsolid := solid_singleBody n tail (hcs.solid_of_spaces hmore)
          have hcolumn : 0 < (c.past (spaces (m + 1))).column := by
            rw [column_past_spaces]
            omega
          rw [singleBody_spaces, List.append_assoc] at hc ⊢
          have hnext := ih more.length (by simp at hlen; omega) hcs.of_append hcolumn
            (Cursor.rest_past hc) rfl
          rw [read_spaces hcol hc hsolid, hnext, Cursor.past_append c]
          rfl
        · have hbreak : isBreak ch = false := by simpa using hch
          -- a quote or another character, and the line goes on
          have hcolumn : 0 < (c.past [ch]).column := by
            rw [← Cursor.skip_eq_past hbreak]
            exact Nat.succ_pos _
          rw [singleBody_char n cs hbreak, List.append_assoc] at hc ⊢
          by_cases hquote : ch = '\''
          · subst hquote
            rw [if_pos rfl] at hc ⊢
            have hcolumn' : 0 < (c.past ['\'', '\'']).column := by
              rw [Cursor.past_eq_skipMany (by simp [isBreak])]
              exact Nat.succ_pos _
            have hnext := ih cs.length (by simp at hlen; omega) hcs.tail hcolumn'
              (Cursor.rest_past hc) rfl
            rw [read_pair hcol hc, hnext, Cursor.past_append c]
            rfl
          · have hblank : isBlank ch = false := by simp [hcs.isBlank_head, hspace]
            rw [if_neg hquote] at hc ⊢
            have hnext := ih cs.length (by simp at hlen; omega) hcs.tail hcolumn
              (Cursor.rest_past hc) rfl
            rw [read_char hcol hc hblank hbreak (.inr ⟨rfl, hquote⟩), hnext,
              Cursor.past_append c]
            rfl

/-! ### Double quotes -/

theorem length_upperDigits (width n : Nat) : (Text.Hex.upperDigits width n).length = width := by
  induction width generalizing n with
  | zero => rfl
  | succ width ih => simp [Text.Hex.upperDigits, ih]

/-- Hexadecimal digits are read as the number that they were written for. -/
theorem number?_upperDigits {width n : Nat} (h : n < 16 ^ width) :
    Text.Hex.number? (Text.Hex.upperDigits width n) = some n := by
  induction width generalizing n with
  | zero =>
    obtain rfl : n = 0 := by simpa using h
    rfl
  | succ width ih =>
    have hdiv : n / 16 < 16 ^ width := Nat.div_lt_of_lt_mul (by rwa [Nat.mul_comm, ← Nat.pow_succ])
    have hprefix := ih hdiv
    -- the last digit is the remainder, and those before it are the quotient
    have hlast := Text.Hex.value?_upper (Nat.mod_lt n (show 0 < 16 by decide))
    rw [Text.Hex.number?] at hprefix ⊢
    rw [Text.Hex.upperDigits, List.foldlM_append, hprefix]
    simp [hlast]
    omega

/-- The number of a character stands for it. -/
theorem charOf?_toNat (ch : Char) : charOf? ch.toNat = some ch := by
  rw [charOf?, if_pos (show ch.toNat.isValidChar from ch.valid), Char.ofNat_toNat]

/-- A hexadecimal digit can be shown. -/
theorem shown_upper {n : Nat} (h : n < 16) :
    isPrintable (Text.Hex.upper n) ∧ isBreak (Text.Hex.upper n) = false := by
  revert h; revert n; decide

/-- So can a number. -/
theorem shown_upperDigits {width n : Nat} :
    ∀ d ∈ Text.Hex.upperDigits width n, isPrintable d ∧ isBreak d = false := by
  induction width generalizing n with
  | zero => simp [Text.Hex.upperDigits]
  | succ width ih =>
    intro d hd
    rw [Text.Hex.upperDigits, List.mem_append, List.mem_singleton] at hd
    -- the digit is one of those before, or the last one
    rcases hd with hd | rfl
    · exact ih d hd
    · exact shown_upper (Nat.mod_lt n (by decide))

/-- The letter of an escape stands for the character it was chosen for. -/
theorem escaped?_escapeLetter? {ch letter : Char} (h : Write.escapeLetter? ch = some letter) :
    escaped? letter = some ch ∧ isPrintable letter ∧ isBreak letter = false := by
  unfold Write.escapeLetter? at h
  split at h <;> first | (simp only [Option.some.injEq] at h; subst h; decide) | simp at h

/-- An escape is a backslash, a letter and digits, and it is read as its character. -/
theorem escape?_escape (ch : Char) :
    ∃ letter digits, Write.escape ch = '\\' :: letter :: digits ∧
      (∀ d ∈ letter :: digits, isPrintable d ∧ isBreak d = false) ∧
      ∀ more, escape? (letter :: digits ++ more) = some (ch, digits.length) := by
  unfold Write.escape
  cases hletter : Write.escapeLetter? ch with
  | some letter =>
    obtain ⟨hescaped, hshown⟩ := escaped?_escapeLetter? hletter
    exact ⟨letter, [], rfl, by simp [hshown], by simp [escape?, hescaped]⟩
  | none =>
    -- a number of two, four or eight digits
    have hdigits : ∀ (letter : Char) (width : Nat), escaped? letter = none →
        digitCount? letter = some width → ch.toNat < 16 ^ width → ∀ more,
        escape? (letter :: Text.Hex.upperDigits width ch.toNat ++ more)
          = some (ch, (Text.Hex.upperDigits width ch.toNat).length) := by
      intro letter width hnone hcount hlt more
      have hlength := length_upperDigits width ch.toNat
      have htake : (Text.Hex.upperDigits width ch.toNat ++ more).take width
          = Text.Hex.upperDigits width ch.toNat := List.take_left' hlength
      simp [escape?, hnone, hcount, htake, number?_upperDigits hlt, charOf?_toNat, hlength]
    have hsmall : ch.toNat < 16 ^ 8 := Nat.lt_of_lt_of_le (UInt32.toNat_lt ch.val) (by decide)
    simp only
    split
    · exact ⟨'x', _, rfl, List.forall_mem_cons.2 ⟨by decide, shown_upperDigits⟩,
        hdigits 'x' 2 rfl rfl (by omega)⟩
    split
    · exact ⟨'u', _, rfl, List.forall_mem_cons.2 ⟨by decide, shown_upperDigits⟩,
        hdigits 'u' 4 rfl rfl (by omega)⟩
    · exact ⟨'U', _, rfl, List.forall_mem_cons.2 ⟨by decide, shown_upperDigits⟩,
        hdigits 'U' 8 rfl rfl hsmall⟩

/-- An escape is read as its character. -/
theorem read_escape (ch : Char) {more : List Char} (hcol : 0 < c.column)
    (hc : c.rest = Write.escape ch ++ more) :
    read true c
      = (read true (c.past (Write.escape ch))).map fun (text, final) => (ch :: text, final) := by
  obtain ⟨letter, digits, heq, hshown, hescape⟩ := escape?_escape ch
  -- an escape has no breaks, so the cursor moves on along the line
  have hpast : c.past (Write.escape ch) = c.skipMany (1 + (1 + digits.length)) := by
    rw [heq, Cursor.past_eq_skipMany
      (List.forall_mem_cons.2 ⟨by decide, fun d hd => (hshown d hd).2⟩)]
    congr 1
    simp only [List.length_cons]
    omega
  rw [heq, List.cons_append] at hc
  have hfirst : isBreak letter = false := (hshown letter List.mem_cons_self).2
  rw [read_cons hcol hc, if_neg (by simp), if_neg (by simp), if_pos (by simp),
    if_neg (by simp [hfirst]), hescape more, Option.bind_some, hpast]

/-- Between double quotes a space is written as it is. -/
theorem doubleChar_space : Write.doubleChar ' ' = [' '] := by decide

/-- So are some spaces. -/
theorem flatMap_doubleChar_spaces (n : Nat) (more : List Char) :
    (spaces n ++ more).flatMap Write.doubleChar = spaces n ++ more.flatMap Write.doubleChar := by
  induction n with
  | zero => rfl
  | succ n ih =>
    rw [spaces_succ, List.cons_append, List.flatMap_cons, ih, doubleChar_space]
    rfl

/-- A character between double quotes is written as itself or as an escape. -/
theorem doubleChar_cases (ch : Char) :
    (Write.doubleChar ch = [ch] ∧ isPrintable ch ∧ isBreak ch = false ∧ ch ≠ '"' ∧ ch ≠ '\\')
      ∨ Write.doubleChar ch = Write.escape ch := by
  unfold Write.doubleChar
  split
  · next h =>
    simp only [Bool.and_eq_true, Bool.not_eq_true', decide_eq_true_eq] at h
    exact .inl ⟨rfl, h.1.1.1, h.1.1.2, h.1.2, h.2⟩
  · exact .inr rfl

/-- The text between double quotes goes on with something solid where it has no space. -/
theorem solid_doubleBody {cs : List Char} (tail : List Char) (h : cs.head? ≠ some ' ') :
    Solid (cs.flatMap Write.doubleChar ++ '"' :: tail) := by
  cases cs with
  | nil => exact ⟨by decide, by decide⟩
  | cons ch cs =>
    rw [List.flatMap_cons]
    -- a character stands for itself if it is no space, or an escape starts with a backslash
    rcases doubleChar_cases ch with ⟨heq, hprintable, hbreak, -, -⟩ | heq
    · rw [heq]
      have hch : ch ≠ ' ' := by simpa using h
      exact ⟨by simp [isBlank_eq_of_isPrintable hprintable, hch], hbreak⟩
    · obtain ⟨letter, digits, heq', -, -⟩ := escape?_escape ch
      rw [heq, heq']
      exact ⟨by decide, by decide⟩

/-- Everything between double quotes can be shown on one line. -/
theorem shown_doubleChar (ch : Char) :
    ∀ d ∈ Write.doubleChar ch, isPrintable d ∧ isBreak d = false := by
  rcases doubleChar_cases ch with ⟨heq, hprintable, hbreak, -, -⟩ | heq
  · rw [heq]
    simp [hprintable, hbreak]
  · obtain ⟨letter, digits, heq', hshown, -⟩ := escape?_escape ch
    rw [heq, heq']
    exact List.forall_mem_cons.2 ⟨by decide, hshown⟩

/-- A text between double quotes is read as it was, whatever it holds. -/
theorem read_doubleBody {cs tail : List Char} (hcol : 0 < c.column)
    (hc : c.rest = cs.flatMap Write.doubleChar ++ '"' :: tail) :
    read true c = some (cs, c.past (cs.flatMap Write.doubleChar ++ ['"'])) := by
  induction hlen : cs.length using Nat.strongRecOn generalizing cs c with
  | _ len ih =>
    cases cs with
    | nil => exact read_quote hcol hc (.inl ⟨rfl, rfl⟩)
    | cons ch cs =>
      by_cases hspace : ch = ' '
      · -- some spaces, which are a gap of their own
        subst hspace
        obtain ⟨n, more, hsplit, hmore⟩ := exists_spaces cs
        rw [hsplit] at hc hlen ⊢
        have hsolid := solid_doubleBody tail hmore
        have hcolumn : 0 < (c.past (spaces (n + 1))).column := by
          rw [column_past_spaces]
          omega
        rw [flatMap_doubleChar_spaces, List.append_assoc] at hc ⊢
        have hnext := ih more.length (by simp at hlen; omega) hcolumn (Cursor.rest_past hc) rfl
        rw [read_spaces hcol hc hsolid, hnext, Cursor.past_append c]
        rfl
      · rw [List.flatMap_cons, List.append_assoc] at hc ⊢
        have hcolumn : 0 < (c.past (Write.doubleChar ch)).column := by
          rw [Cursor.past_eq_skipMany fun d hd => (shown_doubleChar ch d hd).2]
          exact Nat.lt_of_lt_of_le hcol (Nat.le_add_right _ _)
        have hnext := ih cs.length (by simp at hlen; omega) hcolumn (Cursor.rest_past hc) rfl
        rcases doubleChar_cases ch with ⟨heq, hprintable, hbreak, hquote, hslash⟩ | heq
        · -- a character that stands for itself
          have hblank : isBlank ch = false := by
            simp [isBlank_eq_of_isPrintable hprintable, hspace]
          rw [heq] at hc hnext ⊢
          rw [read_char hcol hc hblank hbreak (.inl ⟨rfl, hquote, hslash⟩), hnext,
            Cursor.past_append c]
          rfl
        · -- one that is written as an escape
          rw [heq] at hc hnext ⊢
          rw [read_escape ch hcol hc, hnext, Cursor.past_append c]
          rfl

end Quoted

end Yaml

end ClientMetrics
