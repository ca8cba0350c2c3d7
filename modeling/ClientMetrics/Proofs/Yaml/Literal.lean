import ClientMetrics.Proofs.Yaml.Inline
import ClientMetrics.Yaml.Block
import Mathlib.Tactic.ByContra

/-!
# Reading literal blocks

A literal block is read line by line: the text of a line at the indentation of the block, its line
end, and the line ends of empty lines after it, up to a line that is indented less. What becomes of
the last line ends is what its header says, and the header was chosen by how the text ends. So the
block is read back as the text it was written for, except that a block whose header keeps all line
ends takes those that follow it as well.

Key results:
- `Block.emptyLines_ends`: empty lines up to a line with text, or up to what follows the block.
- `Block.lines_literalBody`: the lines of a block, by induction on the lines of the text.
- `Block.header?_written`, `Block.read_written`: the header, and the whole block.
-/

namespace ClientMetrics

namespace Yaml

namespace Block

variable {c : Cursor} {k : Continuation} {n : Nat}

/-! ## Empty lines -/

/-- The text does not go on with a line end or a tab. -/
def StartsLine (cs : List Char) : Prop := ∀ d ∈ cs.head?, isBreak d = false ∧ d ≠ '\t'

/-- Where the next part of a document starts, a line of text could start too. -/
theorem startsLine_of_leads {cs : List Char} (h : Leads cs) : StartsLine cs := by
  intro d hd
  cases cs with
  | nil => simp at hd
  | cons d' cs =>
    obtain rfl : d' = d := by simpa using hd
    exact ⟨isBreak_of_isLead h, ne_tab_of_isPrintable (isPrintable_of_isLead h)⟩

/-- The indentation of a line is passed, up to the one that is asked for. -/
theorem indentation_spaces {indent : Option Nat} {m : Nat} {more : List Char}
    (hc : c.rest = spaces m ++ more) (hcol : c.column = 0)
    (hm : more.head? ≠ some ' ' ∧ (∀ n ∈ indent, m ≤ n) ∨ indent = some m) :
    indentation indent c = c.past (spaces m) := by
  have htake : (c.rest.takeWhile (· = ' ')).length
      = m + (more.takeWhile (· = ' ')).length := by
    rw [hc, List.takeWhile_append_of_pos, List.length_append, length_spaces]
    intro ch hch
    simp [eq_of_mem_spaces hch]
  rw [Cursor.past_spaces]
  -- the indentation is found by the spaces, or it is known and not all of them belong to it
  rcases hm with ⟨hmore, hle⟩ | rfl
  · have hnone : more.takeWhile (· = ' ') = [] := by
      cases more with
      | nil => rfl
      | cons d more =>
        have hd : d ≠ ' ' := by simpa using hmore
        simp [hd]
    cases indent with
    | none => simp [indentation, htake, hnone]
    | some n =>
      have := hle n rfl
      simp only [indentation, htake, hnone, hcol, List.length_nil]
      congr 1
      omega
  · simp only [indentation, htake, hcol]
    congr 1
    omega

/-- At the start of a line the indentation is the column. -/
theorem column_indentation {m : Nat} (hcol : c.column = 0) :
    (c.past (spaces m)).column = m := by
  rw [column_past_spaces, hcol, Nat.zero_add]

/-- The first line with text ends the empty lines. -/
theorem emptyLines_startsLine {indent : Option Nat} {m : Nat} {more : List Char}
    (hc : c.rest = spaces m ++ more) (hcol : c.column = 0)
    (hm : more.head? ≠ some ' ' ∧ (∀ n ∈ indent, m ≤ n) ∨ indent = some m)
    (hmore : StartsLine more) :
    emptyLines indent c = some ([], m, c.past (spaces m)) := by
  have hindent := indentation_spaces hc hcol hm
  have hrest : (indentation indent c).rest = more := by
    rw [hindent]
    exact Cursor.rest_past hc
  have hcolumn : (indentation indent c).column = m := by
    rw [hindent, column_indentation hcol]
  rw [emptyLines.eq_def]
  -- behind the indentation there is text, or nothing
  split
  · rw [hcolumn, hindent]
  · next ch rest hch =>
    obtain ⟨hbreak, htab⟩ := hmore ch (by simp [← hrest, hch])
    rw [if_neg (by simp [htab]), if_neg (by simp [hbreak]), hcolumn, hindent]

/-- Empty lines are counted by their line ends. -/
theorem emptyLines_ends {ends : List Char} {m : Nat} {more : List Char}
    (hends : ∀ b ∈ ends, isBreak b ∧ isPrintable b) (hc : c.rest = ends ++ (spaces m ++ more))
    (hcol : c.column = 0) (hm : more.head? ≠ some ' ' ∧ m ≤ n ∨ m = n)
    (hmore : StartsLine more) :
    ∃ widest, emptyLines (some n) c = some (ends, widest, c.past (ends ++ spaces m)) := by
  induction ends generalizing c with
  | nil =>
    refine ⟨m, emptyLines_startsLine hc hcol ?_ hmore⟩
    rcases hm with ⟨hspace, hle⟩ | rfl
    · exact .inl ⟨hspace, by simpa using hle⟩
    · exact .inr rfl
  | cons b ends ih =>
    obtain ⟨⟨hb, hp⟩, hends⟩ := List.forall_mem_cons.1 hends
    rw [List.cons_append] at hc
    have hnospace : b ≠ ' ' := by
      rintro rfl
      simp [isBreak] at hb
    -- a line end stands in the first column, so there is no indentation to pass
    have hindent : indentation (some n) c = c := by
      have hempty : c.rest = spaces 0 ++ c.rest := rfl
      rw [indentation_spaces hempty hcol (.inl ⟨by simpa [hc] using hnospace, by simp⟩)]
      rfl
    have htab : b ≠ '\t' := ne_tab_of_isPrintable hp
    have hcolumn : (c.past [b]).column = 0 := by
      rw [Cursor.past_cons, Cursor.past_of_isBreak hb]
      rfl
    obtain ⟨widest, hnext⟩ := ih hends (Cursor.rest_past_singleton hc) hcolumn
    refine ⟨max c.column widest, ?_⟩
    rw [emptyLines.eq_def]
    split
    · next hn => simp [hindent, hc] at hn
    · next ch rest hch =>
      obtain ⟨rfl, -⟩ : b = ch ∧ _ = rest := by simpa [hindent, hc] using hch
      rw [if_neg (by simp [htab]), if_pos hb, hindent, Cursor.skipBreak_eq_past hc hb hp, hnext,
        Cursor.breakText_eq hc hb hp]
      rfl

/-- Empty lines up to what follows the block. -/
theorem emptyLines_continuation {ends : List Char} (hk : k.column < n)
    (hends : ∀ b ∈ ends, isBreak b ∧ isPrintable b) (hc : c.rest = ends ++ k.chars)
    (hcol : c.column = 0) :
    ∃ widest, emptyLines (some n) c = some (ends ++ k.ends, widest, c.past (ends ++ k.gap)) := by
  have hall := k.isBreak_append_ends hends
  -- the next part does not start with a space, so its indentation is all there is
  have hspace : k.text.head? ≠ some ' ' := by
    intro h
    cases htext : k.text with
    | nil => simp [htext] at h
    | cons d text =>
      have hleads := k.leads
      rw [htext] at h hleads
      obtain rfl : d = ' ' := by simpa using h
      exact absurd (show isLead ' ' = true from hleads) (by decide)
  have := emptyLines_ends hall (by rw [hc, Continuation.chars, Continuation.gap]; simp) hcol
    (.inl ⟨hspace, Nat.le_of_lt hk⟩) (startsLine_of_leads k.leads)
  rwa [List.append_assoc] at this

/-! ## The lines of a block -/

/-- What the header of a written block says of the last line ends. -/
def chompingOf (cs : List Char) : Chomping :=
  match cs.reverse with
  | [] => .strip
  | [b] => if isBreak b then .keep else .strip
  | b :: d :: _ => if !isBreak b then .strip else if isBreak d then .keep else .clip

/-- A text without a line end has none to keep. -/
theorem chompingOf_line {l : List Char} (h : ∀ ch ∈ l, isBreak ch = false) :
    chompingOf l = .strip := by
  have hmem : ∀ ch ∈ l.reverse, isBreak ch = false := fun ch hch => h ch (List.mem_reverse.1 hch)
  unfold chompingOf
  split
  · rfl
  · next b heq => rw [if_neg (by simp [hmem b (by simp [heq])])]
  · next b d more heq => rw [if_pos (by simp [hmem b (by simp [heq])])]

/-- A single line end after a line of text is kept as it is. -/
theorem chompingOf_break {l : List Char} {b : Char} (hl : l ≠ [])
    (h : ∀ ch ∈ l, isBreak ch = false) (hb : isBreak b) : chompingOf (l ++ [b]) = .clip := by
  obtain ⟨d, more, hd⟩ := List.exists_cons_of_ne_nil (List.reverse_ne_nil_iff.2 hl)
  have hbreak : isBreak d = false := h d (List.mem_reverse.1 (by simp [hd]))
  simp [chompingOf, hd, hb, hbreak]

/-- Of more than one line end all are kept, and of a text of nothing but line ends too. -/
theorem chompingOf_breaks {l ends : List Char} (hne : l ≠ [] → 2 ≤ ends.length)
    (hpos : ends ≠ []) (h : ∀ b ∈ ends, isBreak b) : chompingOf (l ++ ends) = .keep := by
  have hmem : ∀ b ∈ ends.reverse, isBreak b := fun b hb => h b (List.mem_reverse.1 hb)
  obtain ⟨b, more, hb⟩ := List.exists_cons_of_ne_nil (List.reverse_ne_nil_iff.2 hpos)
  have hbreak : isBreak b := hmem b (by simp [hb])
  rw [chompingOf, List.reverse_append, hb]
  -- two breaks at the end are kept; a single one is kept only of a text that is nothing else
  cases more with
  | cons d more =>
    have hd : isBreak d := hmem d (by simp [hb])
    simp [hbreak, hd]
  | nil =>
    have hlength : ends.length = 1 := by simpa using congrArg List.length hb
    have hl : l = [] := by
      by_contra hl
      have := hne hl
      omega
    simp [hl, hbreak]

/-- Only the last line with text and what follows it count. -/
theorem chompingOf_append (p : List Char) {d : Char} {cs : List Char} (hd : isBreak d = false) :
    chompingOf (p ++ d :: cs) = chompingOf (d :: cs) := by
  unfold chompingOf
  rw [List.reverse_append, List.reverse_cons]
  cases hcs : cs.reverse with
  | nil => cases p.reverse <;> simp [hd]
  | cons b more => cases more <;> simp

/-- The line end after a written text that does not end in one. -/
def finish (cs : List Char) : List Char := if cs.getLast?.any isBreak then [] else ['\n']

/-- How a text ends does not depend on what comes before its last part. -/
theorem finish_append (p : List Char) {d : Char} {cs : List Char} :
    finish (p ++ d :: cs) = finish (d :: cs) := by
  have hlast := List.getLast?_eq_some_getLast (List.cons_ne_nil d cs)
  simp [finish, List.getLast?_append, hlast]

/-- With that a text ends in a line end. -/
theorem exists_lineEnd (cs : List Char) : ∃ p b, cs ++ finish cs = p ++ [b] ∧ isBreak b := by
  unfold finish
  split
  · next h =>
    obtain ⟨b, hlast, hb⟩ := (Option.any_eq_true ..).1 h
    obtain ⟨p, rfl⟩ := List.getLast?_eq_some_iff.1 hlast
    exact ⟨p, b, List.append_nil _, hb⟩
  · exact ⟨cs, '\n', rfl, by decide⟩

/-- A line end is added to a text without one. -/
theorem finish_line {l : List Char} (h : ∀ ch ∈ l, isBreak ch = false) : finish l = ['\n'] := by
  rw [finish, if_neg]
  cases hlast : l.getLast? with
  | none => simp
  | some b => simp [h b (List.mem_of_getLast? hlast)]

/-- None is added to a text that ends in line ends. -/
theorem finish_breaks (l : List Char) {b : Char} {ends : List Char}
    (h : ∀ b' ∈ b :: ends, isBreak b') : finish (l ++ b :: ends) = [] := by
  rw [finish_append, finish, if_pos]
  have hlast := List.getLast?_eq_some_getLast (List.cons_ne_nil b ends)
  rw [hlast]
  exact h _ (List.getLast_mem _)

/-- The lines of a block end as the text does. -/
theorem finish_literalBody {cs : List Char} (p : List Char) (n : Nat) (afterBreak : Bool)
    (hne : cs ≠ []) : finish (p ++ Write.literalBody n afterBreak cs) = finish cs := by
  induction cs generalizing p afterBreak with
  | nil => exact absurd rfl hne
  | cons c cs ih =>
    -- whatever is put before a character, the body goes on behind it
    have hline : ∃ q, p ++ Write.literalBody n afterBreak (c :: cs)
        = q ++ c :: Write.literalBody n (isBreak c) cs := by
      rw [Write.literalBody]
      split
      · next hc => exact ⟨p, by rw [hc]⟩
      · next hc => exact ⟨p ++ if afterBreak then spaces n else [], by simp [hc]⟩
    obtain ⟨q, hq⟩ := hline
    cases cs with
    | nil => rw [hq, finish_append]; rfl
    | cons d cs =>
      rw [hq, List.append_cons, ih _ _ (by simp)]
      exact (finish_append [c]).symm

/-- A line is written as it is. -/
theorem literalBody_line {l : List Char} (n : Nat) (more : List Char)
    (h : ∀ ch ∈ l, isBreak ch = false) :
    Write.literalBody n false (l ++ more) = l ++ Write.literalBody n false more := by
  induction l with
  | nil => rfl
  | cons ch l ih =>
    obtain ⟨hch, hl⟩ := List.forall_mem_cons.1 h
    simp [Write.literalBody, hch, ih hl]

/-- Line ends are written as they are, and empty lines are not indented. -/
theorem literalBody_breaks {ends : List Char} (n : Nat) (more : List Char)
    (h : ∀ b ∈ ends, isBreak b) :
    Write.literalBody n true (ends ++ more) = ends ++ Write.literalBody n true more := by
  induction ends with
  | nil => rfl
  | cons b ends ih =>
    obtain ⟨hb, hends⟩ := List.forall_mem_cons.1 h
    simp [Write.literalBody, hb, ih hends]

/-- A line of text after a line end is indented. -/
theorem literalBody_indented {d : Char} (n : Nat) (cs : List Char) (h : isBreak d = false) :
    Write.literalBody n true (d :: cs) = spaces n ++ Write.literalBody n false (d :: cs) := by
  simp [Write.literalBody, h]

/-- A line that ends the block: nothing at the indentation of the block is left. -/
theorem lines_end {q : Chomping} {t : Tail} (h : c.rest = [] ∨ c.column ≠ n) :
    lines true q n t c = some (t.chomp q, c) := by
  rw [lines.eq_def]
  split
  · rfl
  · next ch rest hch =>
    rw [if_neg (h.resolve_left (by simp [hch]))]

/-- One line of a block, and the empty lines after it. -/
theorem lines_line {q : Chomping} {t : Tail} {l : List Char} {b : Char} {more ends : List Char}
    {widest : Nat} {c' : Cursor} (hl : l ≠ []) (hline : ∀ ch ∈ l, isBreak ch = false)
    (hb : isBreak b) (hp : isPrintable b) (hcol : c.column = n) (hc : c.rest = l ++ b :: more)
    (hempty : emptyLines (some n) (c.past (l ++ [b])) = some (ends, widest, c')) :
    ∃ blank, lines true q n t c = (lines true q n ⟨[b], ends, blank⟩ c').map
      fun (text, final) => (t.lineEnd ++ t.more ++ l ++ text, final) := by
  obtain ⟨ch, l', rfl⟩ := List.exists_cons_of_ne_nil hl
  have htext : lineText c = ch :: l' := by
    rw [lineText, hc, List.takeWhile_append_of_pos fun x hx => by simp [hline x hx]]
    simp [hb]
  have hpast : c.skipMany (lineText c).length = c.past (ch :: l') := by
    rw [htext, Cursor.past_eq_skipMany hline]
  have hrest : (c.past (ch :: l')).rest = b :: more := Cursor.rest_past hc
  have hskip : (c.past (ch :: l')).skipBreak = c.past (ch :: l' ++ [b]) := by
    rw [Cursor.skipBreak_eq_past hrest hb hp, ← Cursor.past_append]
  refine ⟨isBlank ch, ?_⟩
  -- `lines` reads its text first and the empty lines after it, as `hempty` does
  rw [lines.eq_def]
  split
  · next hn => simp [hn] at hc
  · next x rest hx =>
    obtain ⟨rfl, -⟩ : x = ch ∧ rest = l' ++ b :: more := by simpa [hx] using hc
    rw [if_pos hcol]
    split
    · next hn =>
      rw [hpast, hskip, hempty] at hn
      simp at hn
    · next more' w' c'' he =>
      rw [hpast, hskip, hempty] at he
      obtain ⟨rfl, -, rfl⟩ : ends = more' ∧ widest = w' ∧ c' = c'' := by simpa using he
      have hbreak : (c.skipMany (lineText c).length).breakText = [b] := by
        rw [hpast, Cursor.breakText_eq hrest hb hp]
      rw [hbreak]
      simp only [htext]
      cases lines true q n ⟨[b], ends, isBlank x⟩ c' <;> simp [Tail.join]

/-- After a line end comes the first column. -/
theorem column_past_lineEnd {l : List Char} {b : Char} (hb : isBreak b) :
    (c.past (l ++ [b])).column = 0 := by
  rw [Cursor.past_append, Cursor.past_cons, Cursor.past_of_isBreak hb]
  rfl

/-- The last line with text, and what follows the block. -/
theorem lines_last {q : Chomping} {t : Tail} {l : List Char} {b : Char} {ends : List Char}
    (hl : l ≠ []) (hline : ∀ ch ∈ l, isBreak ch = false)
    (hends : ∀ b' ∈ b :: ends, isBreak b' ∧ isPrintable b') (hk : k.column < n)
    (hcol : c.column = n) (hc : c.rest = l ++ b :: (ends ++ k.chars)) :
    ∃ blank, lines true q n t c
      = some (t.lineEnd ++ t.more ++ l ++ Tail.chomp ⟨[b], ends ++ k.ends, blank⟩ q,
          c.past (l ++ (b :: (ends ++ k.gap)))) := by
  obtain ⟨⟨hb, hp⟩, hends⟩ := List.forall_mem_cons.1 hends
  have hrest : (c.past (l ++ [b])).rest = ends ++ k.chars := Cursor.rest_past (by simp [hc])
  obtain ⟨widest, hempty⟩ := emptyLines_continuation hk hends hrest (column_past_lineEnd hb)
  obtain ⟨blank, hlines⟩ := lines_line (t := t) (q := q) hl hline hb hp hcol hc hempty
  have hpast : (c.past (l ++ [b])).past (ends ++ k.gap)
      = c.past (l ++ (b :: (ends ++ k.gap))) := by
    rw [← Cursor.past_append]
    simp
  -- what follows is indented less than the block
  have hfinal : (c.past (l ++ (b :: (ends ++ k.gap)))).column ≠ n := by
    have hall : ∀ b' ∈ b :: (ends ++ k.ends), isBreak b' :=
      List.forall_mem_cons.2 ⟨hb, fun b' hb' => (k.isBreak_append_ends hends b' hb').1⟩
    have := Cursor.column_past_breaks (c := c.past l) hall k.column
    rw [Cursor.past_append, Continuation.gap, ← List.append_assoc, ← List.cons_append, this]
    omega
  refine ⟨blank, ?_⟩
  rw [hlines, hpast, lines_end (.inr hfinal)]
  rfl

/-- A line with text that is followed by another one. -/
theorem lines_next {q : Chomping} {t : Tail} {l : List Char} {b : Char} {ends more : List Char}
    (hl : l ≠ []) (hline : ∀ ch ∈ l, isBreak ch = false)
    (hends : ∀ b' ∈ b :: ends, isBreak b' ∧ isPrintable b') (hmore : StartsLine more)
    (hcol : c.column = n) (hc : c.rest = l ++ b :: (ends ++ (spaces n ++ more))) :
    (c.past (l ++ b :: (ends ++ spaces n))).column = n ∧
      ∃ blank, lines true q n t c
        = (lines true q n ⟨[b], ends, blank⟩ (c.past (l ++ b :: (ends ++ spaces n)))).map
          fun (text, final) => (t.lineEnd ++ t.more ++ l ++ text, final) := by
  obtain ⟨⟨hb, hp⟩, hall⟩ := List.forall_mem_cons.1 hends
  have hrest : (c.past (l ++ [b])).rest = ends ++ (spaces n ++ more) :=
    Cursor.rest_past (by simp [hc])
  -- the line ends after a line, and the indentation of the next one
  obtain ⟨widest, hempty⟩ := emptyLines_ends hall hrest (column_past_lineEnd hb) (.inr rfl) hmore
  obtain ⟨blank, hlines⟩ := lines_line (t := t) (q := q) hl hline hb hp hcol hc hempty
  have hpast : (c.past (l ++ [b])).past (ends ++ spaces n)
      = c.past (l ++ b :: (ends ++ spaces n)) := by
    rw [← Cursor.past_append]
    simp
  refine ⟨?_, blank, by rw [hlines, hpast]⟩
  rw [Cursor.past_append]
  exact Cursor.column_past_breaks (fun b' hb' => (hends b' hb').1) n

/-- What a block reads besides its own text: the line ends that follow it, if it keeps all. -/
def kept (cs ends : List Char) : List Char :=
  if chompingOf cs = .keep then ends else []

/-- The lines of a written block are read back. -/
theorem lines_literalBody {cs : List Char} (t : Tail) (hcs : ∀ ch ∈ cs, isPrintable ch)
    (hstart : ∃ d more, cs = d :: more ∧ isBreak d = false) (hk : k.column < n)
    (hcol : c.column = n)
    (hc : c.rest = Write.literalBody n false cs ++ (finish cs ++ k.chars)) :
    lines true (chompingOf cs) n t c
      = some (t.lineEnd ++ t.more ++ cs ++ kept cs k.ends,
          c.past (Write.literalBody n false cs ++ (finish cs ++ k.gap))) := by
  induction hlen : cs.length using Nat.strongRecOn generalizing cs c t with
  | _ len ih =>
    obtain ⟨l, rest, rfl, hline, hrest⟩ := exists_run (!isBreak ·) cs
    replace hline : ∀ ch ∈ l, isBreak ch = false := by simpa using hline
    have hl : l ≠ [] := by
      rintro rfl
      obtain ⟨d, more, rfl, hd⟩ := hstart
      simp [hd] at hrest
    rw [literalBody_line n rest hline] at hc ⊢
    cases rest with
    | nil =>
      -- the text ends within a line, and a line end was added to it
      rw [List.append_nil] at hc ⊢
      have hfeed : ∀ b ∈ ['\n'], isBreak b ∧ isPrintable b := by simp [isBreak, isPrintable]
      obtain ⟨blank, hlines⟩ := lines_last (t := t) (q := chompingOf l) hl hline hfeed hk hcol
        (by simpa [Write.literalBody, finish_line hline] using hc)
      rw [hlines, chompingOf_line hline]
      simp [Write.literalBody, finish_line hline, Tail.chomp, kept, chompingOf_line hline]
    | cons b rest =>
      obtain ⟨ends, more, rfl, hends, hmore⟩ := exists_run isBreak rest
      have hb : isBreak b := by simpa using hrest
      have hall : ∀ b' ∈ b :: ends, isBreak b' ∧ isPrintable b' :=
        List.forall_mem_cons.2 ⟨⟨hb, hcs b (by simp)⟩,
          fun b' hb' => ⟨hends b' hb', hcs b' (by simp [hb'])⟩⟩
      have hbody : Write.literalBody n false (b :: (ends ++ more))
          = b :: (ends ++ Write.literalBody n true more) := by
        rw [Write.literalBody, if_pos hb, literalBody_breaks n more hends]
      rw [hbody] at hc ⊢
      cases more with
      | nil =>
        -- the text ends in line ends
        have hfinish : finish (l ++ b :: ends) = [] := finish_breaks l fun b' hb' => (hall b' hb').1
        rw [List.append_nil, hfinish] at hc ⊢
        obtain ⟨blank, hlines⟩ := lines_last (t := t) (q := chompingOf (l ++ b :: ends)) hl hline
          hall hk hcol (by simpa [Write.literalBody] using hc)
        rw [hlines]
        cases ends with
        | nil =>
          simp [Write.literalBody, Tail.chomp, kept, chompingOf_break hl hline hb]
        | cons b' ends =>
          have hkeep : chompingOf (l ++ b :: b' :: ends) = .keep :=
            chompingOf_breaks (by simp) (by simp) fun b' hb' => (hall b' hb').1
          simp [Write.literalBody, Tail.chomp, kept, hkeep]
      | cons d more =>
        -- another line with text follows
        have hd : isBreak d = false := by simpa using hmore
        have hfinish : finish (l ++ b :: (ends ++ d :: more)) = finish (d :: more) := by
          rw [← finish_append (l ++ b :: ends), List.append_assoc, List.cons_append]
        have hchomp : chompingOf (l ++ b :: (ends ++ d :: more)) = chompingOf (d :: more) := by
          rw [← chompingOf_append (l ++ b :: ends) hd, List.append_assoc, List.cons_append]
        rw [literalBody_indented n more hd, hfinish] at hc ⊢
        have hstartsLine : StartsLine (Write.literalBody n false (d :: more)
            ++ (finish (d :: more) ++ k.chars)) := by
          have htab := ne_tab_of_isPrintable (hcs d (by simp))
          simp [StartsLine, Write.literalBody, hd, htab]
        obtain ⟨hcolumn, blank, hlines⟩ := lines_next (t := t) (q := chompingOf (d :: more)) hl
          hline hall hstartsLine hcol (by simpa using hc)
        have hnext := ih (d :: more).length (by simp at hlen ⊢; omega) ⟨[b], ends, blank⟩
          (fun x hx => hcs x (by simp at hx ⊢; simp [hx])) ⟨d, more, rfl, hd⟩ hcolumn
          (Cursor.rest_past (by simp [hc])) rfl
        have hkept : kept (l ++ b :: (ends ++ d :: more)) k.ends = kept (d :: more) k.ends := by
          simp only [kept, hchomp]
        rw [hchomp, hkept, hlines, hnext]
        simp [Cursor.past_append, Cursor.past_cons]

/-! ## The header -/

/-- How deep a block says that it is indented, where its first line does not show it. -/
def incrementOf (cs : List Char) : Option Nat :=
  if cs.head?.any (fun c => c = ' ' || isBreak c) then some 2 else none

/-- The header says how the text ends. -/
theorem chomping_eq (cs : List Char) :
    Write.chomping cs = match chompingOf cs with
      | .strip => ['-']
      | .keep => ['+']
      | .clip => [] := by
  unfold Write.chomping chompingOf
  rcases cs.reverse with _ | ⟨b, _ | ⟨d, more⟩⟩
  · rfl
  · cases hb : isBreak b <;> simp [hb]
  · cases hb : isBreak b <;> cases hd : isBreak d <;> simp [hb, hd]

/-- The header is read as what it was chosen for. -/
theorem header?_written (cs more : List Char) :
    header? (Write.indentHint cs ++ Write.chomping cs ++ '\n' :: more)
      = some (⟨chompingOf cs, incrementOf cs⟩,
          (Write.indentHint cs ++ Write.chomping cs).length) := by
  rw [chomping_eq, Write.indentHint, incrementOf]
  split
  · cases chompingOf cs <;> rfl
  · cases chompingOf cs
    · cases more <;> rfl
    · rfl
    · rfl

/-- The text after the header starts on the next line. -/
theorem endLine?_header {header more : List Char} (hheader : ∀ ch ∈ header, isBreak ch = false)
    (hc : c.rest = header ++ '\n' :: more) :
    (c.skipMany header.length).endLine? = some (c.past (header ++ ['\n'])) := by
  have hpast := Cursor.past_eq_skipMany hheader c
  have hrest : (c.past header).rest = '\n' :: more := Cursor.rest_past hc
  rw [← hpast, Cursor.endLine?]
  -- behind the header there is neither a blank nor a comment
  have hblank : (c.past header).skipWhile isBlank = c.past header :=
    Cursor.skipWhile_eq (by simp [hrest, isBlank])
  have hcomment : (c.past header).skipComment = c.past header := by
    simp [Cursor.skipComment, hrest]
  simp only [hblank, hcomment, hrest, startsBreak]
  rw [if_pos (by decide), Cursor.skipBreak_eq_past hrest (by decide) (by decide),
    ← Cursor.past_append]

/-- What stands between the indicator of a block and its lines. -/
def headerText (cs : List Char) : List Char :=
  Write.indentHint cs ++ Write.chomping cs ++ ['\n']

theorem isBreak_header (cs : List Char) :
    ∀ ch ∈ Write.indentHint cs ++ Write.chomping cs, isBreak ch = false := by
  rw [chomping_eq, Write.indentHint]
  split <;> cases chompingOf cs <;> simp [isBreak]

/-- Empty lines lead to the indentation of the line after them. -/
theorem column_past_indented {ends : List Char} (hends : ∀ b ∈ ends, isBreak b)
    (hcol : c.column = 0) (m : Nat) : (c.past (ends ++ spaces m)).column = m := by
  cases ends with
  | nil => exact column_indentation hcol
  | cons b ends => exact Cursor.column_past_breaks hends m

/-- The lines of a block, with the empty ones before the first one with text, at an indentation
that is known. -/
theorem lines_written {ends more : List Char}
    (hcs : ∀ ch ∈ ends ++ more, isPrintable ch) (hends : ∀ b ∈ ends, isBreak b)
    (hmore : ∃ d more', more = d :: more' ∧ isBreak d = false) (hk : k.column < n)
    (hcol : c.column = 0)
    (hc : c.rest = Write.literalBody n true (ends ++ more) ++ (finish (ends ++ more) ++ k.chars)) :
    lines true (chompingOf (ends ++ more)) n { more := ends } (c.past (ends ++ spaces n))
      = some (ends ++ more ++ kept (ends ++ more) k.ends,
          c.past (Write.literalBody n true (ends ++ more)
            ++ (finish (ends ++ more) ++ k.gap))) := by
  obtain ⟨d, more, rfl, hd⟩ := hmore
  -- the line ends at the front are read before the first line
  rw [literalBody_breaks n _ hends, literalBody_indented n more hd, finish_append] at hc ⊢
  have hlines := lines_literalBody { more := ends } (fun x hx => hcs x (List.mem_append_right _ hx))
    ⟨d, more, rfl, hd⟩ hk (column_past_indented hends hcol n)
    (Cursor.rest_past (c := c) (by simpa using hc))
  rw [kept, chompingOf_append ends hd, ← kept, hlines]
  simp [Cursor.past_append]

/-- A block of line ends only. -/
theorem read_ends {cs : List Char} (hcs : ∀ b ∈ cs, isBreak b ∧ isPrintable b) (hne : cs ≠ [])
    (hk : k.column < n) (hcol : c.column = 0) (hc : c.rest = cs ++ k.chars) :
    ∃ widest, emptyLines (some n) c = some (cs ++ k.ends, widest, c.past (cs ++ k.gap)) ∧
      lines true (chompingOf cs) n { more := cs ++ k.ends } (c.past (cs ++ k.gap))
        = some (cs ++ kept cs k.ends, c.past (cs ++ k.gap)) := by
  obtain ⟨widest, hempty⟩ := emptyLines_continuation hk hcs hc hcol
  have hall : ∀ b ∈ cs ++ k.ends, isBreak b := fun b hb => (k.isBreak_append_ends hcs b hb).1
  -- what follows stands less deep than the block, so the block is over
  have hfinal : (c.past (cs ++ k.gap)).column ≠ n := by
    rw [Continuation.gap, ← List.append_assoc, column_past_indented hall hcol]
    omega
  have hkeep : chompingOf cs = .keep := by
    have := chompingOf_breaks (l := []) (by simp) hne fun b hb => (hcs b hb).1
    rwa [List.nil_append] at this
  refine ⟨widest, hempty, ?_⟩
  rw [lines_end (.inr hfinal), kept, hkeep]
  rfl

/-- The empty lines before the first line with text. The header says how deep that is indented,
unless it shows by itself. -/
theorem emptyLines_written {ends more : List Char} {d : Char} {tail : List Char}
    (hends : ∀ b ∈ ends, isBreak b ∧ isPrintable b) (hd : isBreak d = false) (hp : isPrintable d)
    (hcol : c.column = 0)
    (hc : c.rest = ends ++ (spaces n ++ (Write.literalBody n false (d :: more) ++ tail))) :
    (incrementOf (ends ++ d :: more) = some 2 ∧
        ∃ widest, emptyLines (some n) c = some (ends, widest, c.past (ends ++ spaces n)))
      ∨ (incrementOf (ends ++ d :: more) = none ∧
        emptyLines none c = some (ends, n, c.past (ends ++ spaces n))) := by
  have hbody : Write.literalBody n false (d :: more) = d :: Write.literalBody n false more := by
    simp [Write.literalBody, hd]
  have hstarts : StartsLine (Write.literalBody n false (d :: more) ++ tail) := by
    simp [StartsLine, hbody, hd, ne_tab_of_isPrintable hp]
  unfold incrementOf
  split
  · exact .inl ⟨rfl, emptyLines_ends hends hc hcol (.inr rfl) hstarts⟩
  · next hhint =>
    -- without a hint the text starts with neither a line end nor a space
    obtain rfl : ends = [] := by
      cases ends with
      | nil => rfl
      | cons b ends => simp [(hends b List.mem_cons_self).1] at hhint
    have hspace : d ≠ ' ' := by
      rintro rfl
      simp at hhint
    refine .inr ⟨rfl, emptyLines_startsLine hc hcol (.inl ⟨?_, by simp⟩) hstarts⟩
    simpa [hbody] using hspace

/-- A written block is read back, and with it the line ends that follow it if it keeps all. -/
theorem read_written {level : Nat} {cs : List Char} (hcs : ∀ ch ∈ cs, isPrintable ch)
    (hne : cs ≠ []) (hlevel : 0 < level) (hk : k.column < level)
    (hc : c.rest = headerText cs ++ (Write.literalBody (level + 1) true cs
      ++ (finish cs ++ k.chars))) :
    read true level c
      = some (cs ++ kept cs k.ends, c.past (headerText cs ++ (Write.literalBody (level + 1) true cs
          ++ (finish cs ++ k.gap)))) := by
  have hheader := isBreak_header cs
  rw [headerText, List.append_assoc (_ ++ _), List.singleton_append] at hc
  have hstart := endLine?_header hheader hc
  have hread := header?_written cs (Write.literalBody (level + 1) true cs ++ (finish cs ++ k.chars))
  rw [← hc] at hread
  have hrest : (c.past (headerText cs)).rest
      = Write.literalBody (level + 1) true cs ++ (finish cs ++ k.chars) :=
    Cursor.rest_past (by simp [headerText, hc])
  have hcol : (c.past (headerText cs)).column = 0 := column_past_lineEnd (by decide)
  rw [← headerText] at hstart
  simp only [read, hread, hstart, Option.bind_eq_bind, Option.bind_some]
  rw [Cursor.past_append]
  generalize c.past (headerText cs) = start at hrest hcol ⊢
  have hindent : level - 1 + 2 = level + 1 := by omega
  obtain ⟨ends, more, rfl, hends, hmore⟩ := exists_run isBreak cs
  have hall : ∀ b ∈ ends, isBreak b ∧ isPrintable b :=
    fun b hb => ⟨hends b hb, hcs b (List.mem_append_left _ hb)⟩
  -- a text of line ends only is read before any line; any other has a first line
  cases more with
  | nil =>
    rw [List.append_nil] at *
    obtain ⟨b, ends', rfl⟩ := List.exists_cons_of_ne_nil hne
    have hbody : Write.literalBody (level + 1) true (b :: ends') = b :: ends' := by
      simpa [Write.literalBody] using literalBody_breaks (level + 1) [] hends
    have hincrement : incrementOf (b :: ends') = some 2 := by simp [incrementOf, hends b]
    have hfinish : finish (b :: ends') = [] := finish_breaks [] hends
    rw [hbody, hfinish] at hrest ⊢
    obtain ⟨widest, hempty, hlines⟩ := read_ends (n := level + 1) hall hne (by omega) hcol hrest
    simp only [hincrement, hindent, hempty, Option.bind_some]
    exact hlines
  | cons d more =>
    have hd : isBreak d = false := by simpa using hmore
    have hlines := lines_written (k := k) hcs hends ⟨d, more, rfl, hd⟩ (by omega) hcol hrest
    rw [literalBody_breaks _ _ hends, literalBody_indented _ more hd] at hrest
    rcases emptyLines_written hall hd (hcs d (by simp)) hcol (by simpa using hrest) with
      ⟨hincrement, widest, hempty⟩ | ⟨hincrement, hempty⟩
    · simp only [hincrement, hindent, hempty, Option.bind_some]
      exact hlines
    · have hmax : max (level + 1) (max level 1) = level + 1 := by omega
      simp only [hincrement, hempty, Option.bind_some, hmax]
      exact hlines

end Block

end Yaml

end ClientMetrics
