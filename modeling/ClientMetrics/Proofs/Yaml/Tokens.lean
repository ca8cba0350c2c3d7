import ClientMetrics.Proofs.Yaml.Literal
import ClientMetrics.Yaml.Layout

/-!
# Cutting written text into tokens

`Layout.run` alternates between going on to the next token (`advance`) and taking it (`take`).
Outside brackets, both are determined by what stands at the cursor and by how deep that is: this
module says so for everything that a file of settings holds.

`Stands s text column (tokens, level, outer)` is the state between two tokens: the next one is at
the front of `text`, the collections that it is not part of have been ended, and it may be a key.

Key results:
- `run_of_take`: one step of the run.
- `stands_of_lineEnd`, `stands_of_landed`: a line end, or a scalar that took it, leads to the next
  entry.
- `take_singleQuote`, `take_bar`, `take_colon` and the like: what the first character decides.
- `part_eq`: a scalar outside brackets may turn out to be a key.
-/

namespace ClientMetrics

namespace Yaml

namespace Cursor

variable {c : Cursor}

/-- Spaces that are to be skipped are passed, up to the first character that is not. -/
theorem skipWhile_spaces {p : Char → Bool} {m : Nat} {more : List Char} (hp : p ' ' = true)
    (hc : c.rest = spaces m ++ more) (hmore : ∀ ch ∈ more.head?, p ch = false) :
    c.skipWhile p = c.past (spaces m) := by
  have hnone : more.takeWhile p = [] := by
    cases more with
    | nil => rfl
    | cons ch more => simp [hmore ch rfl]
  -- the spaces are skipped, and nothing behind them is
  have htake : (c.rest.takeWhile p).length = m := by
    rw [hc, List.takeWhile_append_of_pos fun ch hch => by rw [eq_of_mem_spaces hch, hp], hnone]
    simp
  rw [skipWhile, htake, past_spaces]

/-- Where no comment starts, none is skipped. -/
theorem skipComment_eq (h : c.rest.head? ≠ some '#') : c.skipComment = c := by
  rw [skipComment, if_neg h]

end Cursor

namespace Layout

variable {s : Layout} {c : Cursor} {k : Continuation}

/-! ## Going on to the next token -/

/-- Neither a blank nor a comment nor a byte order mark. -/
def Marks (cs : List Char) : Prop := ∀ ch ∈ cs.head?, isBlank ch = false ∧ ch ≠ '#' ∧ ch ≠ '\ufeff'

/-- The next part of a document starts with none of these. -/
theorem marks_of_leads {cs : List Char} (h : Leads cs) : Marks cs := by
  intro ch hch
  cases cs with
  | nil => simp at hch
  | cons d cs =>
    obtain rfl : d = ch := by simpa using hch
    exact ⟨isBlank_of_isLead h, ne_of_isLead h (by decide), ne_of_isLead h (by decide)⟩

theorem marks_lineEnd (cs : List Char) : Marks ('\n' :: cs) := by
  intro ch hch
  obtain rfl : '\n' = ch := by simpa using hch
  decide

/-- Spaces are passed, up to the next token or the end of the line. -/
theorem restOfLine_spaces {tabs : Bool} {m : Nat} {more : List Char}
    (hc : c.rest = spaces m ++ more) (hmore : Marks more) :
    restOfLine tabs c = c.past (spaces m) := by
  -- no order mark stands there, nor does a tab or a comment behind the spaces
  have hmark : skipOrderMark c = c := by
    rw [skipOrderMark, if_neg]
    rintro ⟨-, hhead⟩
    cases m with
    | zero => exact (hmore _ (by simpa [hc] using hhead)).2.2 rfl
    | succ m => simp [hc, spaces_succ] at hhead
  have hwhile : c.skipWhile (fun ch => ch = ' ' || (tabs && ch = '\t')) = c.past (spaces m) := by
    refine Cursor.skipWhile_spaces (by simp) hc fun ch hch => ?_
    obtain ⟨hblank, -, -⟩ := hmore ch hch
    simp only [isBlank, Bool.or_eq_false_iff, decide_eq_false_iff_not] at hblank
    simp [hblank.1, hblank.2]
  have hcomment : (c.past (spaces m)).skipComment = c.past (spaces m) := by
    refine Cursor.skipComment_eq fun hhead => ?_
    rw [Cursor.rest_past hc] at hhead
    exact (hmore _ hhead).2.1 rfl
  rw [restOfLine, hmark, hwhile, hcomment]

/-- The next token stands on this line. -/
theorem nextPlace_spaces {flow keyAllowed : Bool} {m : Nat} {more : List Char}
    (hc : c.rest = spaces m ++ more) (hmore : Leads more) :
    nextPlace flow keyAllowed c = (c.past (spaces m), keyAllowed) := by
  have hrest : restOfLine (flow || !keyAllowed) c = _ := restOfLine_spaces hc (marks_of_leads hmore)
  rw [nextPlace.eq_def]
  -- the text that follows does not end the line
  split
  · rw [hrest]
  · next ch rest hch =>
    rw [hrest, Cursor.rest_past hc] at hch
    subst hch
    rw [if_neg (by simp [isBreak_of_isLead hmore]), hrest]

/-- The next token stands on another line, so it may be a key. -/
theorem nextPlace_ends {keyAllowed : Bool} {ends : List Char} {m : Nat} {more : List Char}
    (hends : ∀ b ∈ ends, b = '\n') (hkey : ends = [] → keyAllowed = true)
    (hc : c.rest = ends ++ (spaces m ++ more)) (hmore : Leads more) :
    nextPlace false keyAllowed c = (c.past (ends ++ spaces m), true) := by
  induction ends generalizing c keyAllowed with
  | nil => rw [nextPlace_spaces hc hmore, hkey rfl, List.nil_append]
  | cons b ends ih =>
    obtain ⟨hb, hends'⟩ := List.forall_mem_cons.1 hends
    subst hb
    rw [List.cons_append] at hc
    -- nothing is left on this line, and from the next line on a key is allowed
    have hrest : restOfLine (false || !keyAllowed) c = c :=
      restOfLine_spaces (m := 0) hc (marks_lineEnd _)
    have hallowed : (keyAllowed || !false) = true := by simp
    have hnext : nextPlace false true _ = _ :=
      ih hends' (fun _ => rfl) (Cursor.rest_past_singleton hc)
    rw [nextPlace.eq_def]
    split
    · next hn =>
      rw [hrest, hc] at hn
      simp at hn
    · next ch rest hch =>
      rw [hrest, hc] at hch
      obtain ⟨rfl, -⟩ := List.cons.inj hch
      rw [if_pos (by decide), hallowed, hrest,
        Cursor.skipBreak_eq_past hc (by decide) (by decide), hnext, List.cons_append,
        Cursor.past_cons]
      rfl

/-- Collections that are not deeper are not ended. -/
theorem closeTo_of_le {level current : Nat} (h : current ≤ level) (tokens : List Token)
    (outer : List Nat) : closeTo level tokens current outer = (tokens, current, outer) := by
  cases outer with
  | nil => rfl
  | cons next outer => rw [closeTo, if_neg (by omega)]

/-- A deeper collection is ended, and its end is a token. -/
theorem closeTo_cons {level current : Nat} (h : level < current) (tokens : List Token) (next : Nat)
    (outer : List Nat) :
    closeTo level tokens current (next :: outer)
      = closeTo level (.blockEnd :: tokens) next outer := by
  rw [closeTo, if_pos h]

/-- A state outside brackets in which no key is pending. -/
def plainState (c : Cursor) (p : List Token × Nat × List Nat) (keyAllowed : Bool) : Layout :=
  { cursor := c, tokens := p.1, level := p.2.1, outer := p.2.2, keyAllowed }

/-- What going on to the next token yields outside brackets. -/
theorem advance_eq {c' : Cursor} {keyAllowed : Bool} {key : Option PendingKey}
    (hflow : s.outerKeys = []) (hplace : nextPlace false s.keyAllowed s.cursor = (c', keyAllowed))
    (hkey : refreshKey c' s.key = some key) :
    s.advance = some { s with
      cursor := c'
      keyAllowed
      key
      tokens := (closeTo (c'.column + 1) s.tokens s.level s.outer).1
      level := (closeTo (c'.column + 1) s.tokens s.level s.outer).2.1
      outer := (closeTo (c'.column + 1) s.tokens s.level s.outer).2.2 } := by
  obtain ⟨cursor, tokens, level, outer, key', outerKeys, keyAllowed'⟩ := s
  obtain rfl : outerKeys = [] := hflow
  have hinFlow : inFlow ⟨cursor, tokens, level, outer, key', [], keyAllowed'⟩ = false := rfl
  -- outside of brackets the collections that stand deeper are closed
  simp only [advance, hinFlow, hplace, refreshKeys, hkey, Option.bind_eq_bind, Option.bind_some]
  simp [dedent, inFlow]

/-- The next token is at the front of a text, at a column, and it may be a key. The collections that
it is not part of have been ended. -/
def Stands (s : Layout) (text : List Char) (column : Nat) (p : List Token × Nat × List Nat) :
    Prop :=
  ∃ index line, s.advance = some (plainState ⟨text, index, line, column⟩ p true)
    ∧ text.length ≤ s.cursor.rest.length

/-- A pending key that need not be one is forgotten on a later line. -/
theorem refreshKey_stale {key : Option PendingKey}
    (h : ∀ p ∈ key, p.required = false ∧ p.line < c.line) : refreshKey c key = some none := by
  cases key with
  | none => rfl
  | some p =>
    obtain ⟨hrequired, hline⟩ := h p rfl
    simp [refreshKey, isStale, hline, hrequired]

/-- After a line end the next entry stands at its column. -/
theorem stands_of_lineEnd (hflow : s.outerKeys = [])
    (hkey : ∀ p ∈ s.key, p.required = false ∧ p.line ≤ s.cursor.line)
    (hc : s.cursor.rest = '\n' :: k.chars) :
    Stands s k.text k.column (closeTo (k.column + 1) s.tokens s.level s.outer) := by
  have hends : ∀ b ∈ '\n' :: k.ends, b = '\n' := List.forall_mem_cons.2 ⟨rfl, k.ends_eq⟩
  have hsplit : s.cursor.rest = '\n' :: k.ends ++ (spaces k.column ++ k.text) := by
    rw [hc, Continuation.chars, Continuation.gap]
    simp
  have hplace : nextPlace false s.keyAllowed s.cursor = _ :=
    nextPlace_ends hends (by simp) hsplit k.leads
  rw [List.cons_append, ← Continuation.gap] at hplace
  have hcolumn := k.column_past (c := s.cursor) (b := '\n') (by decide)
  have hrest := k.rest_past hc
  have hstale : refreshKey (s.cursor.past ('\n' :: k.gap)) s.key = _ := refreshKey_stale fun p hp =>
    -- whatever was pending before is on an earlier line now
    ⟨(hkey p hp).1, Nat.lt_of_le_of_lt (hkey p hp).2 (Cursor.line_lt_past (by decide) k.gap)⟩
  have hadvance := advance_eq hflow hplace hstale
  refine ⟨(s.cursor.past ('\n' :: k.gap)).index, (s.cursor.past ('\n' :: k.gap)).line, ?_, ?_⟩
  · rw [hadvance, hcolumn, plainState, ← hcolumn, ← hrest, hflow]
  · simp [hc, Continuation.chars]
    omega

/-- A scalar that took the line end after it left the cursor at the next entry. -/
theorem stands_of_landed (hflow : s.outerKeys = []) (hallowed : s.keyAllowed = true)
    (hkey : ∀ p ∈ s.key, p.required = false ∧ p.line < s.cursor.line)
    (hrest : s.cursor.rest = k.text) (hcolumn : s.cursor.column = k.column) :
    Stands s k.text k.column (closeTo (k.column + 1) s.tokens s.level s.outer) := by
  have hplace : nextPlace false s.keyAllowed s.cursor = _ := nextPlace_spaces (m := 0) hrest k.leads
  have hadvance := advance_eq hflow hplace (refreshKey_stale hkey)
  refine ⟨s.cursor.index, s.cursor.line, ?_, Nat.le_of_eq (by rw [hrest])⟩
  rw [hadvance, spaces_zero, Cursor.past_nil, plainState, ← hcolumn, ← hrest, hallowed, hflow]

/-- On the same line, the next token stands where the cursor is or after a space. -/
theorem advance_spaces {m : Nat} {text : List Char} (hflow : s.outerKeys = [])
    (hkey : refreshKey (s.cursor.past (spaces m)) s.key = some s.key)
    (hc : s.cursor.rest = spaces m ++ text) (htext : Leads text)
    (hlevel : s.level ≤ s.cursor.column + 1) :
    s.advance = some { s with cursor := s.cursor.past (spaces m) } := by
  have hplace : nextPlace false s.keyAllowed s.cursor = _ := nextPlace_spaces hc htext
  have hcolumn := column_past_spaces s.cursor m
  rw [advance_eq hflow hplace hkey, closeTo_of_le (by omega)]

/-! ## Taking it -/

/-- One token after the other. -/
theorem run_of_take {next after : Layout} (hadvance : s.advance = some next)
    (htake : next.take = some after)
    (hlength : after.cursor.rest.length < s.cursor.rest.length) : s.run = after.run := by
  -- at the end of a text there is nothing to take
  have hne : next.cursor.rest ≠ [] := by
    intro h
    simp [take, h] at htake
  rw [run]
  split
  · next hn => simp [hadvance] at hn
  · next next' hnext =>
    obtain rfl : next' = next := by simpa [hadvance, eq_comm] using hnext
    rw [if_neg hne]
    split
    · next hn => simp [htake] at hn
    · next after' hafter =>
      obtain rfl : after' = after := by simpa [htake, eq_comm] using hafter
      rw [if_pos hlength]

/-- At the end of the document the collections that are left are ended. -/
theorem run_of_end {next : Layout} (hadvance : s.advance = some next)
    (hend : next.cursor.rest = []) : s.run = next.finish := by
  rw [run]
  split
  · next hn => simp [hadvance] at hn
  · next next' hnext =>
    obtain rfl : next' = next := by simpa [hadvance, eq_comm] using hnext
    rw [if_pos hend]

/-! ### What the first character decides -/

variable {rest : List Char}

/-- A single quote starts a scalar that ends with another one. -/
theorem take_singleQuote (hc : s.cursor.rest = '\'' :: rest) : s.take = s.part (quoted false) := by
  simp [take, hc, Cursor.atMarker]

theorem take_doubleQuote (hc : s.cursor.rest = '"' :: rest) : s.take = s.part (quoted true) := by
  simp [take, hc, Cursor.atMarker]

/-- A bar starts a literal block, outside brackets. -/
theorem take_bar (hflow : s.outerKeys = []) (hc : s.cursor.rest = '|' :: rest) :
    s.take = block true s := by
  simp [take, hc, Cursor.atMarker, inFlow, hflow]

/-- A question mark before a blank is the sign of a key. -/
theorem take_question (hflow : s.outerKeys = []) (hc : s.cursor.rest = '?' :: rest)
    (hrest : startsBlank rest) : s.take = s.indicator .blockMappingStart .key true := by
  simp [take, hc, Cursor.atMarker, inFlow, hflow, hrest]

/-- A hyphen before a blank is the sign of an item. -/
theorem take_hyphen (hc : s.cursor.rest = '-' :: rest) (hrest : startsBlank rest) :
    s.take = s.indicator .blockSequenceStart .blockEntry true := by
  have hmarker : s.cursor.atMarker = false := by
    unfold Cursor.atMarker
    split
    · next more heq =>
      -- a hyphen before a blank is none of three
      obtain rfl : rest = '-' :: '-' :: more := (List.cons.inj (hc.symm.trans heq)).2
      simp [startsBlank, isBlank, isBreak] at hrest
    · next more heq => exact absurd (hc.symm.trans heq) (by simp)
    · simp
  simp [take, hc, hmarker, hrest]

/-- A colon before a blank separates a key from its value. -/
theorem take_colon (hc : s.cursor.rest = ':' :: rest) (hrest : startsBlank rest) :
    s.take = s.colon := by
  simp [take, hc, Cursor.atMarker, hrest]

/-- Where no other rule applies, a plain scalar starts. -/
theorem take_eq_part {ch : Char} (hc : s.cursor.rest = ch :: rest)
    (hne : ∀ d, (",[]\x7b\x7d#&*!|>'\"%@`".toList).contains d → ch ≠ d)
    (hmarker : s.cursor.atMarker = false) (hhyphen : ¬(ch = '-' ∧ startsBlank rest = true))
    (hquestion : ¬(ch = '?' ∧ (s.inFlow = true ∨ startsBlank rest = true)))
    (hcolon : ¬(ch = ':' ∧ (s.inFlow = true ∨ startsBlank rest = true)))
    (hstarts : Plain.starts s.inFlow (ch :: rest)) :
    s.take = s.part (plain s.inFlow s.level) := by
  unfold take
  -- branch by branch: none of the characters that stand for something is the first one
  split
  · next hn => simp [hn] at hc
  · next ch' rest' hch =>
    obtain ⟨rfl, rfl⟩ := List.cons.inj (hc.symm.trans hch)
    rw [if_neg (fun h => hne '%' (by decide) h.2), if_neg (by simp [hmarker]),
      if_neg (hne '[' (by decide)), if_neg (hne '\x7b' (by decide)), if_neg (hne ']' (by decide)),
      if_neg (hne '\x7d' (by decide)), if_neg (hne ',' (by decide)), if_neg hhyphen,
      if_neg hquestion, if_neg hcolon, if_neg (hne '*' (by decide)), if_neg (hne '&' (by decide)),
      if_neg (hne '!' (by decide)), if_neg (fun h => hne '|' (by decide) h.1),
      if_neg (fun h => hne '>' (by decide) h.1), if_neg (hne '\'' (by decide)),
      if_neg (hne '"' (by decide)), if_pos hstarts]

/-! ### Keys that are pending -/

/-- The key that is pending after a scalar that starts at the cursor. -/
def savedKey (s : Layout) : Option PendingKey :=
  if s.keyAllowed then
    some {
      required := !s.inFlow && s.level = s.cursor.column + 1
      place := s.tokens.length
      index := s.cursor.index
      line := s.cursor.line
      column := s.cursor.column }
  else none

/-- Where no key was pending, the next token may be one if a key is allowed. -/
theorem saveKey_eq (hkey : s.key = none) : s.saveKey = some { s with key := s.savedKey } := by
  rw [saveKey, savedKey, dropKey]
  split
  · simp [hkey, inFlow]
  · rw [← hkey]

/-- A scalar is taken with the cursor after it, and may turn out to be a key. -/
theorem part_eq {read : Cursor → Option (Token × Cursor × Bool)} {t : Token} {c' : Cursor}
    {keyAllowed : Bool} (hkey : s.key = none) (hread : read s.cursor = some (t, c', keyAllowed)) :
    s.part read = some { s with
      tokens := t :: s.tokens, cursor := c', keyAllowed, key := s.savedKey } := by
  simp [part, saveKey_eq hkey, hread, push]

end Layout

end Yaml

end ClientMetrics
