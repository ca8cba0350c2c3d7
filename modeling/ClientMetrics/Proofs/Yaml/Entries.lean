import ClientMetrics.Proofs.Yaml.Scalars

/-!
# Taking the entries of a mapping and the items of a sequence

An entry is a key, a colon and a value, and starts at the column of its mapping; an item is a hyphen
and a value. The first part of a collection starts it, and whatever follows the last one ends it.
Parts at one column follow each other, and a section is an entry whose value is the collection below
it.

Key results:
- `Layout.run_key`, `Layout.run_longKey`: both ways to write a key.
- `scans_entry`, `scans_item`, `scans_section`: the tokens of an entry, an item and a section.
- `Scans.append`: parts that follow each other.
- `tokens?_written`: the tokens of a whole document.
-/

namespace ClientMetrics

namespace Yaml

variable {cs : List Char} {n : Nat}

/-! ## The characters of a scalar -/

/-- Between single quotes stand the characters of the text, and otherwise only spaces and quotes. -/
theorem mem_singleBody {afterBreak : Bool} {ch : Char}
    (h : ch ∈ Write.singleBody n afterBreak cs) : ch = ' ' ∨ ch = '\'' ∨ ch ∈ cs := by
  induction cs generalizing afterBreak with
  | nil =>
    -- a break stays, and anything else may be indented before it, or be a quote and doubled
    rw [Write.singleBody] at h
    split at h
    · exact .inl (eq_of_mem_spaces h)
    · simp at h
  | cons c cs ih =>
    rw [Write.singleBody] at h
    split at h
    · rcases List.mem_cons.1 h with rfl | h
      · exact .inr (.inr List.mem_cons_self)
      · exact (ih h).imp_right (.imp_right (List.mem_cons_of_mem _))
    · rcases List.mem_append.1 h with h | h
      · rcases List.mem_append.1 h with h | h
        · split at h
          · exact .inl (eq_of_mem_spaces h)
          · simp at h
        · split at h
          · exact .inr (.inl (by simpa using h))
          · exact .inr (.inr (by simp_all))
      · exact (ih h).imp_right (.imp_right (List.mem_cons_of_mem _))

/-- In a literal block stand the characters of the text, and otherwise only spaces. -/
theorem mem_literalBody {afterBreak : Bool} {ch : Char}
    (h : ch ∈ Write.literalBody n afterBreak cs) : ch = ' ' ∨ ch ∈ cs := by
  induction cs generalizing afterBreak with
  | nil => simp [Write.literalBody] at h
  | cons c cs ih =>
    -- a break stays, and anything else may be indented before it
    rw [Write.literalBody] at h
    split at h
    · rcases List.mem_cons.1 h with rfl | h
      · exact .inr List.mem_cons_self
      · exact (ih h).imp_right (List.mem_cons_of_mem _)
    · rcases List.mem_append.1 h with h | h
      · split at h
        · exact .inl (eq_of_mem_spaces h)
        · simp at h
      · rcases List.mem_cons.1 h with rfl | h
        · exact .inr List.mem_cons_self
        · exact (ih h).imp_right (List.mem_cons_of_mem _)

/-- What is written between quotes can be shown, if the text can. -/
theorem Quotes.isPrintable_write {q : Quotes} (hcs : q.Shows cs) :
    ∀ ch ∈ q.write n cs, isPrintable ch := by
  have hmark := isPrintable_of_isLead q.isLead_mark
  intro ch hch
  simp only [write, List.mem_append, List.mem_cons, List.not_mem_nil, or_false] at hch
  -- the quotes themselves, and what stands between them
  rcases hch with (rfl | hch) | rfl
  · exact hmark
  · cases q with
    | single =>
      rcases mem_singleBody hch with rfl | rfl | hch
      · decide
      · decide
      · exact hcs.printable ch hch
    | double =>
      obtain ⟨d, -, hch⟩ := List.mem_flatMap.1 hch
      exact (Quoted.shown_doubleChar d ch hch).1
  · exact hmark

/-- Whatever a text holds, what is written for it can be shown. -/
theorem isPrintable_scalar (n : Nat) (cs : List Char) :
    ∀ ch ∈ Write.scalar n cs, isPrintable ch := by
  intro ch hch
  rcases styleOf_cases cs with ⟨h, hcs⟩ | ⟨h, hcs⟩ | h | ⟨h, -, hcs⟩
  · simp only [Write.scalar, h] at hch
    exact (hcs.shown ch hch).1
  · rw [Quotes.scalar_eq_write (q := .single) h] at hch
    exact Quotes.isPrintable_write (q := .single) hcs ch hch
  · rw [Quotes.scalar_eq_write (q := .double) h] at hch
    exact Quotes.isPrintable_write (q := .double) trivial ch hch
  · simp only [Write.scalar, h] at hch
    -- the header of a block has digits and signs only
    have hheader : ∀ ch ∈ '|' :: Write.indentHint cs ++ Write.chomping cs ++ ['\n'],
        isPrintable ch := by
      rw [Block.chomping_eq, Write.indentHint]
      split <;> cases Block.chompingOf cs <;> simp [isPrintable]
    rw [List.append_cons] at hch
    rcases List.mem_append.1 hch with hch | hch
    · exact hheader ch hch
    · rcases mem_literalBody hch with rfl | hch
      · decide
      · exact hcs ch hch

/-- A text has no more characters than bytes. -/
theorem length_le_byteCount (cs : List Char) : cs.length ≤ Text.byteCount cs := by
  induction cs with
  | nil => exact Nat.le_refl _
  | cons c cs ih =>
    have := c.utf8Size_pos
    rw [Text.byteCount, List.length_cons]
    omega

/-- On one line, single quotes make a text twice as long at most. -/
theorem length_singleBody (hcs : ∀ ch ∈ cs, isBreak ch = false) :
    (Write.singleBody n false cs).length ≤ 2 * cs.length := by
  induction cs with
  | nil => exact Nat.le_refl _
  | cons c cs ih =>
    obtain ⟨hc, hcs⟩ := List.forall_mem_cons.1 hcs
    have := ih hcs
    rw [Quoted.singleBody_char n cs hc, List.length_append, List.length_cons]
    split <;> simp only [List.length_cons, List.length_nil] <;> omega

/-- An escape is not much longer than what it stands for. -/
theorem length_doubleChar (ch : Char) : (Write.doubleChar ch).length ≤ 7 * ch.utf8Size := by
  have hpos := ch.utf8Size_pos
  unfold Write.doubleChar
  split
  · simp only [List.length_cons, List.length_nil]
    omega
  unfold Write.escape
  split
  · simp only [List.length_cons, List.length_nil]
    omega
  · simp only
    split
    · simp only [List.length_cons, Quoted.length_upperDigits]
      omega
    split
    · simp only [List.length_cons, Quoted.length_upperDigits]
      omega
    · -- an escape of eight digits stands for a character of four bytes
      next hlarge =>
      have hsize : ch.utf8Size = 4 := by
        have hval : ¬ch.val ≤ 0xffff := fun hle => hlarge (UInt32.le_iff_toNat_le.1 hle)
        have h₁ : ¬ch.val ≤ 0x7f := fun hle => hval (UInt32.le_trans hle (by decide))
        have h₂ : ¬ch.val ≤ 0x7ff := fun hle => hval (UInt32.le_trans hle (by decide))
        exact (if_neg h₁).trans ((if_neg h₂).trans (if_neg hval))
      simp only [List.length_cons, Quoted.length_upperDigits, hsize]
      omega

/-- Between double quotes no character needs more than seven for each of its bytes. -/
theorem length_doubleBody (cs : List Char) :
    (cs.flatMap Write.doubleChar).length ≤ 7 * Text.byteCount cs := by
  induction cs with
  | nil => exact Nat.le_refl _
  | cons c cs ih =>
    have := length_doubleChar c
    rw [List.flatMap_cons, List.length_append, Text.byteCount]
    omega

theorem isPrintable_spaces (n : Nat) : ∀ ch ∈ spaces n, isPrintable ch := by
  intro ch hch
  rw [eq_of_mem_spaces hch]
  decide

/-- The line end that is added to a text can be shown. -/
theorem isPrintable_finish (cs : List Char) : ∀ ch ∈ Block.finish cs, isPrintable ch := by
  unfold Block.finish
  split <;> simp [isPrintable]

/-- A text on one line stays on one line between quotes, and does not become much longer. -/
theorem Quotes.write_line (q : Quotes) (hcs : ∀ ch ∈ cs, isBreak ch = false) :
    (∀ ch ∈ q.write n cs, isBreak ch = false)
      ∧ (q.write n cs).length ≤ 7 * Text.byteCount cs + 2 := by
  have hmark := isBreak_of_isLead q.isLead_mark
  refine ⟨fun ch hch => ?_, ?_⟩
  · simp only [write, List.mem_append, List.mem_cons, List.not_mem_nil, or_false] at hch
    rcases hch with (rfl | hch) | rfl
    · exact hmark
    · cases q with
      | single =>
        rcases mem_singleBody hch with rfl | rfl | hch
        · decide
        · decide
        · exact hcs ch hch
      | double =>
        obtain ⟨d, -, hch⟩ := List.mem_flatMap.1 hch
        exact (Quoted.shown_doubleChar d ch hch).2
    · exact hmark
  · -- an escape takes at most seven characters for each byte of what it stands for
    have hbody : (q.body n cs).length ≤ 7 * Text.byteCount cs := by
      cases q with
      | single =>
        have hsingle := length_singleBody (n := n) hcs
        have hlength := length_le_byteCount cs
        simp only [body]
        omega
      | double => exact length_doubleBody cs
    simp only [write, List.length_append, List.length_cons, List.length_nil]
    omega

/-- A text on one line is not indented anywhere. -/
theorem Quotes.write_eq_of_line (q : Quotes) (hcs : ∀ ch ∈ cs, isBreak ch = false) (n m : Nat) :
    q.write n cs = q.write m cs := by
  -- without breaks there is nothing to indent
  have hbody : Write.singleBody n false cs = Write.singleBody m false cs := by
    induction cs with
    | nil => rfl
    | cons c cs ih =>
      obtain ⟨hc, hcs⟩ := List.forall_mem_cons.1 hcs
      rw [Quoted.singleBody_char n cs hc, Quoted.singleBody_char m cs hc, ih hcs]
  cases q with
  | single => simp [write, body, hbody]
  | double => rfl

/-- A key that can stand on one line does so, and it is not too long to be recognised. -/
theorem simpleKey_written (n : Nat) (h : Write.isSimpleKey cs) :
    (∀ ch ∈ Write.scalar n cs, isBreak ch = false) ∧ (Write.scalar n cs).length ≤ 1024 := by
  simp only [Write.isSimpleKey, Bool.and_eq_true, Bool.not_eq_true', decide_eq_true_eq] at h
  obtain ⟨hany, hcount⟩ := h
  have hbreak : ∀ ch ∈ cs, isBreak ch = false := by simpa using hany
  have hquoted : ∀ q : Quotes, (∀ ch ∈ q.write n cs, isBreak ch = false)
      ∧ (q.write n cs).length ≤ 1024 := by
    intro q
    obtain ⟨hline, hlength⟩ := q.write_line hbreak
    exact ⟨hline, by omega⟩
  -- a text without breaks is no literal block
  rcases styleOf_cases cs with ⟨h, -⟩ | ⟨h, -⟩ | h | ⟨h, hfold, -⟩
  · have hlength := length_le_byteCount cs
    simp only [Write.scalar, h]
    exact ⟨hbreak, by omega⟩
  · rw [Quotes.scalar_eq_write (q := .single) h]
    exact hquoted .single
  · rw [Quotes.scalar_eq_write (q := .double) h]
    exact hquoted .double
  · exact absurd (hbreak '\n' hfold) (by decide)

/-! ## Keys -/

namespace Layout

variable {s : Layout} {k : Continuation} {text more : List Char} {tokens : List Token} {level : Nat}
  {outer : List Nat}

/-- The tokens and the surrounding levels once a collection has been started at a column, which an
earlier part of it may have done. -/
def opened (start : Token) (column : Nat) (tokens : List Token) (level : Nat) (outer : List Nat) :
    List Token × List Nat :=
  if level ≤ column then (start :: tokens, level :: outer) else (tokens, outer)

/-- A collection that has been started goes on. -/
theorem opened_of_lt {start : Token} {column : Nat} (h : column < level) :
    opened start column tokens level outer = (tokens, outer) := if_neg (by omega)

/-- A token goes before the latest one. -/
theorem insert_cons {t : Token} (u : Token) (h : s.tokens = t :: tokens) :
    s.insert tokens.length u = { s with tokens := t :: u :: tokens } := by
  have hlater : (t :: tokens).length - tokens.length = 1 := by simp
  simp only [insert, h, hlater]
  rfl

/-- A token goes before the latest two. -/
theorem insert_cons_cons {t t' : Token} (u : Token) (h : s.tokens = t :: t' :: tokens) :
    s.insert tokens.length u = { s with tokens := t :: t' :: u :: tokens } := by
  have hlater : (t :: t' :: tokens).length - tokens.length = 2 := by
    simp only [List.length_cons]
    omega
  simp only [insert, h, hlater]
  rfl

/-- The colon after a key puts the tokens that announce the key before it. -/
theorem colon_key {p : PendingKey} {t : Token} (hflow : s.outerKeys = []) (hkey : s.key = some p)
    (htokens : s.tokens = t :: tokens) (hplace : p.place = tokens.length)
    (hlevel : s.level ≤ p.column + 1) :
    s.colon = some { s with
      tokens := .value :: t :: .key :: (opened .blockMappingStart p.column tokens s.level s.outer).1
      level := p.column + 1
      outer := (opened .blockMappingStart p.column tokens s.level s.outer).2
      cursor := s.cursor.skipMany 1
      keyAllowed := false
      key := none } := by
  simp only [colon, hkey, hplace, insert_cons .key htokens]
  by_cases hopen : s.level ≤ p.column
  · -- the first key of a mapping, which starts before it
    rw [indent, if_pos (by simp [inFlow, hflow, hopen]), insert_cons_cons .blockMappingStart rfl]
    simp [mark, push, opened, hopen]
  · have hclosed : s.level = p.column + 1 := by omega
    rw [indent, if_neg (by simp [hopen]), opened_of_lt (by omega)]
    simp [mark, push, hclosed]

/-- What stands here is taken, and the run goes on after it. -/
theorem Stands.run_take {p : List Token × Nat × List Nat} {after : Nat → Nat → Layout}
    (h : Stands s text n p)
    (htake : ∀ index line,
      (plainState ⟨text, index, line, n⟩ p true).take = some (after index line))
    (hlength : ∀ index line, (after index line).cursor.rest.length < text.length) :
    ∃ index line, s.run = (after index line).run := by
  obtain ⟨index, line, hadvance, htext⟩ := h
  exact ⟨index, line, run_of_take hadvance (htake index line)
    (Nat.lt_of_lt_of_le (hlength index line) htext)⟩

/-- The colon after a key that is on this line and not too far back. -/
theorem run_colon {p : PendingKey} {t : Token} (hc : s.cursor.rest = ':' :: more)
    (hmore : startsBlank more) (hflow : s.outerKeys = []) (hkey : s.key = some p)
    (htokens : s.tokens = t :: tokens) (hplace : p.place = tokens.length)
    (hline : p.line = s.cursor.line) (hindex : s.cursor.index ≤ p.index + 1024)
    (hcolumn : p.column ≤ s.cursor.column) (hlevel : s.level ≤ p.column + 1) :
    ∃ s' : Layout, s.run = s'.run ∧ AfterMark s' more
      (.value :: t :: .key :: (opened .blockMappingStart p.column tokens s.level s.outer).1)
      (p.column + 1)
      (opened .blockMappingStart p.column tokens s.level s.outer).2 := by
  -- the key stands on this line and is not too long, so it is still pending
  have hfresh : refreshKey s.cursor s.key = some s.key := by
    simp [hkey, refreshKey, isStale, hline]
    omega
  have hadvance : s.advance = some s :=
    advance_spaces (m := 0) hflow hfresh hc (show isLead ':' = true by decide) (by omega)
  have htake := (take_colon hc hmore).trans (colon_key hflow hkey htokens hplace hlevel)
  have hrest : (s.cursor.skipMany 1).rest = more := by simp [Cursor.skipMany, hc]
  refine ⟨_, run_of_take hadvance htake ?_, hrest, rfl, rfl, rfl, hflow, rfl, ?_⟩
  · simp [hrest, hc]
  · exact Nat.succ_le_succ hcolumn

/-- A key that can stand on one line, and the colon after it. -/
theorem run_key (hsimple : Write.isSimpleKey cs)
    (h : Stands s (Write.scalar (n + 2) cs ++ ':' :: more) n (tokens, level, outer))
    (hlevel : level ≤ n + 1) (hmore : startsBlank more) :
    ∃ s' : Layout, s.run = s'.run ∧ AfterMark s' more
      (.value :: .scalar (.ofList cs) (styleOf cs) :: .key ::
        (opened .blockMappingStart n tokens level outer).1)
      (n + 1) (opened .blockMappingStart n tokens level outer).2 := by
  obtain ⟨hbreak, hlength⟩ := simpleKey_written (n + 2) hsimple
  obtain ⟨d, written, hd, -⟩ := exists_lead_scalar (n + 2) cs
  obtain ⟨index, line, hrun⟩ := h.run_take
    (fun index line => take_key hsimple (Nat.succ_pos _) rfl rfl hlevel rfl hmore)
    fun index line => by
      have hrest : ((⟨Write.scalar (n + 2) cs ++ ':' :: more, index, line, n⟩ : Cursor).past
          (Write.scalar (n + 2) cs)).rest = ':' :: more := Cursor.rest_past rfl
      rw [afterScalar, plainState, hrest, hd]
      simp only [List.length_append, List.length_cons]
      omega
  -- a simple key has no breaks, so the colon stands on its line
  have hcursor := Cursor.past_eq_skipMany hbreak
    ⟨Write.scalar (n + 2) cs ++ ':' :: more, index, line, n⟩
  obtain ⟨s', hrun', hmark⟩ := run_colon (s := (plainState ⟨Write.scalar (n + 2) cs ++ ':' :: more,
      index, line, n⟩ (tokens, level, outer) true).afterScalar cs (styleOf cs)
      (Write.scalar (n + 2) cs) false)
    (Cursor.rest_past rfl) hmore rfl rfl rfl rfl
    (by simp [afterScalar, plainState, hcursor, Cursor.skipMany])
    (by simpa [afterScalar, plainState, hcursor, Cursor.skipMany] using hlength)
    (by simp [afterScalar, plainState, hcursor, Cursor.skipMany]) hlevel
  exact ⟨s', hrun.trans hrun', hmark⟩

/-- A collection starts here, unless an earlier part of it has started it. -/
theorem indent_opened (start : Token) {column : Nat} (hflow : s.outerKeys = [])
    (hlevel : s.level ≤ column + 1) :
    s.indent column s.tokens.length start = { s with
      tokens := (opened start column s.tokens s.level s.outer).1
      level := column + 1
      outer := (opened start column s.tokens s.level s.outer).2 } := by
  by_cases hopen : s.level ≤ column
  · simp [indent, inFlow, hflow, insert, opened, hopen]
  · have hclosed : column + 1 = s.level := by omega
    rw [indent, if_neg (by simp [hopen]), opened_of_lt (by omega), hclosed]

/-- The mark before a part of a collection starts the collection, if nothing has done so. -/
theorem indicator_eq {start mark : Token} {c : Cursor} (hlevel : level ≤ c.column + 1) :
    (plainState c (tokens, level, outer) true).indicator start mark true
      = some (plainState (c.skipMany 1) (mark :: (opened start c.column tokens level outer).1,
          c.column + 1, (opened start c.column tokens level outer).2) true) := by
  have hindent := indent_opened (s := plainState c (tokens, level, outer) true) start rfl hlevel
  simp only [plainState] at hindent ⊢
  rw [indicator, if_neg (by simp), hindent]
  rfl

/-- The colon before the value of a key that has a question mark. -/
theorem colon_value {c : Cursor} :
    (plainState c (tokens, c.column + 1, outer) true).colon
      = some (plainState (c.skipMany 1) (.value :: tokens, c.column + 1, outer) true) := by
  have hindent := indent_opened (s := plainState c (tokens, c.column + 1, outer) true)
    .blockMappingStart rfl (Nat.le_refl _)
  simp only [plainState, opened_of_lt (Nat.lt_succ_self _)] at hindent
  simp only [colon, plainState, hindent]
  rfl

/-- A mark before a part of a collection, such as the question mark before a key. -/
theorem run_indicator {ch : Char} {start mark : Token}
    (htake : ∀ c : Cursor, c.rest = ch :: more → (plainState c (tokens, level, outer) true).take
      = (plainState c (tokens, level, outer) true).indicator start mark true)
    (h : Stands s (ch :: more) n (tokens, level, outer)) (hlevel : level ≤ n + 1) :
    ∃ s' : Layout, s.run = s'.run ∧ AfterMark s' more
      (mark :: (opened start n tokens level outer).1) (n + 1)
      (opened start n tokens level outer).2 := by
  obtain ⟨index, line, hrun⟩ := h.run_take
    (fun index line => (htake _ rfl).trans (indicator_eq hlevel))
    fun index line => by simp [plainState, Cursor.skipMany]
  exact ⟨_, hrun, by simp [plainState, Cursor.skipMany], rfl, rfl, rfl, rfl, rfl, Nat.le_refl _⟩

/-- The question mark before a key. -/
theorem run_question (h : Stands s ('?' :: more) n (tokens, level, outer)) (hlevel : level ≤ n + 1)
    (hmore : startsBlank more) :
    ∃ s' : Layout, s.run = s'.run ∧ AfterMark s' more
      (.key :: (opened .blockMappingStart n tokens level outer).1) (n + 1)
      (opened .blockMappingStart n tokens level outer).2 :=
  run_indicator (fun _ hc => take_question rfl hc hmore) h hlevel

/-- The hyphen before an item. -/
theorem run_hyphen (h : Stands s ('-' :: more) n (tokens, level, outer)) (hlevel : level ≤ n + 1)
    (hmore : startsBlank more) :
    ∃ s' : Layout, s.run = s'.run ∧ AfterMark s' more
      (.blockEntry :: (opened .blockSequenceStart n tokens level outer).1) (n + 1)
      (opened .blockSequenceStart n tokens level outer).2 :=
  run_indicator (fun _ hc => take_hyphen hc hmore) h hlevel

/-- The colon before a value that stands on a line of its own. -/
theorem run_value (h : Stands s (':' :: more) n (tokens, n + 1, outer)) (hmore : startsBlank more) :
    ∃ s' : Layout, s.run = s'.run ∧ AfterMark s' more (.value :: tokens) (n + 1) outer := by
  obtain ⟨index, line, hrun⟩ := h.run_take
    (fun index line => (take_colon rfl hmore).trans colon_value)
    fun index line => by simp [plainState, Cursor.skipMany]
  exact ⟨_, hrun, by simp [plainState, Cursor.skipMany], rfl, rfl, rfl, rfl, rfl, Nat.le_refl _⟩

/-- A key that needs lines of its own, and the colon after it. -/
theorem run_longKey
    (h : Stands s ('?' :: ' ' :: (Write.scalar (n + 2) cs ++ (Block.finish (Write.scalar (n + 2) cs)
      ++ (spaces n ++ ':' :: more)))) n (tokens, level, outer))
    (hlevel : level ≤ n + 1) (hmore : startsBlank more) :
    ∃ s' : Layout, s.run = s'.run ∧ AfterMark s' more
      (.value :: .scalar (.ofList cs) (styleOf cs) :: .key ::
        (opened .blockMappingStart n tokens level outer).1)
      (n + 1) (opened .blockMappingStart n tokens level outer).2 := by
  obtain ⟨s₁, hrun₁, hkey⟩ := run_question h hlevel rfl
  -- the key ends its line, and the colon stands below the question mark
  let k : Continuation :=
    { column := n, text := ':' :: more, leads := show isLead ':' = true by decide }
  obtain ⟨s₂, hrun₂, hstands⟩ := AfterMark.run_text (k := k) (Nat.succ_pos n)
    (Nat.lt_succ_self n) hkey
  have habsorbed : absorbed cs k.ends = [] := by simp [absorbed, Block.kept, k]
  rw [closeTo_of_le (Nat.le_refl _), habsorbed, List.append_nil] at hstands
  obtain ⟨s₃, hrun₃, hmark⟩ := run_value hstands hmore
  exact ⟨s₃, hrun₁.trans (hrun₂.trans hrun₃), hmark⟩

end Layout

/-! ## Values -/

open Layout

/-- How a written value is cut into tokens, of which a last one may take the line ends that
follow. -/
structure ReadsAs (level : Nat) (written : List Char) (tokens : List Char → List Token) : Prop where
  shown : ∀ ch ∈ written, isPrintable ch
  run : ∀ (s : Layout) (k : Continuation) before outer, k.column < level →
    AfterMark s (' ' :: (written ++ (Block.finish written ++ k.chars))) before level outer →
    GoesOn s k ((tokens k.ends).reverse ++ before) level outer

/-- A text is cut into one token, whatever its style is. -/
theorem readsAs_text (n : Nat) (cs : List Char) : ReadsAs (n + 1) (Write.scalar (n + 2) cs)
    fun ends => [.scalar (.ofList (cs ++ absorbed cs ends)) (styleOf cs)] :=
  ⟨isPrintable_scalar _ cs, fun _ _ _ _ hk h => h.run_text (Nat.succ_pos n) hk⟩

theorem readsAs_word (level : Nat) (h : IsPlain cs) :
    ReadsAs level cs fun _ => [.scalar (.ofList cs) .plain] := by
  refine ⟨fun ch hch => (h.shown ch hch).1, fun s k before outer hk hmark => ?_⟩
  rw [Block.finish_line fun ch hch => (h.shown ch hch).2] at hmark
  exact hmark.run_plain h hk

/-- A text between quotes. -/
theorem readsAs_quoted {q : Quotes} (level : Nat) (hcs : q.Shows cs)
    (hline : ∀ ch ∈ cs, isBreak ch = false) :
    ReadsAs level (q.write (level + 1) cs) fun _ => [.scalar (.ofList cs) q.style] := by
  refine ⟨Quotes.isPrintable_write hcs, fun s k before outer hk hmark => ?_⟩
  rw [Block.finish_line (q.write_line hline).1] at hmark
  exact hmark.run_quoted hcs

/-! ## Entries -/

/-- How the written parts of a collection at a column are cut into tokens. The first part starts the
collection. -/
def Scans (start : Token) (n : Nat) (written : List Char) (tokens : List Char → List Token) :
    Prop :=
  ∃ d body, written = spaces n ++ d :: body ∧ isLead d ∧ (∀ ch ∈ d :: body, isPrintable ch) ∧
    ∀ (s : Layout) (k : Continuation) before level outer, k.column ≤ n → level ≤ n + 1 →
      Stands s (d :: body ++ k.chars) n (before, level, outer) →
      GoesOn s k ((tokens k.ends).reverse ++ (opened start n before level outer).1) (n + 1)
        (opened start n before level outer).2

/-- Parts of a collection at one column follow each other. -/
theorem Scans.append {start : Token} {first second : List Char} {f g : List Char → List Token}
    (hf : Scans start n first f) (hg : Scans start n second g) :
    Scans start n (first ++ second) fun ends => f [] ++ g ends := by
  obtain ⟨d, body, rfl, hd, hbody, hrun⟩ := hf
  obtain ⟨d', body', rfl, hd', hbody', hrun'⟩ := hg
  refine ⟨d, body ++ (spaces n ++ d' :: body'), by simp, hd, ?_, ?_⟩
  · rw [← List.cons_append]
    simp only [List.forall_mem_append]
    exact ⟨hbody, isPrintable_spaces n, hbody'⟩
  · intro s k before level outer hk hlevel h
    -- the second part is what follows the first one
    let next : Continuation := { column := n, text := d' :: body' ++ k.chars, leads := hd' }
    have htext : d :: (body ++ (spaces n ++ d' :: body')) ++ k.chars = d :: body ++ next.chars := by
      simp [Continuation.chars, Continuation.gap, next]
    rw [htext] at h
    obtain ⟨s₁, hrun₁, hstands⟩ := hrun s next before level outer (Nat.le_refl _) hlevel h
    rw [closeTo_of_le (Nat.le_refl _)] at hstands
    obtain ⟨s₂, hrun₂, hstands'⟩ := hrun' s₁ k _ _ _ hk (Nat.le_refl _) hstands
    rw [opened_of_lt (Nat.lt_succ_self n)] at hstands'
    exact ⟨s₂, hrun₁.trans hrun₂, by simpa using hstands'⟩

/-- A line is ended unless it ends by itself. -/
theorem endLine_eq (cs : List Char) : Write.endLine cs = cs ++ Block.finish cs := by
  unfold Write.endLine Block.finish
  split
  · rw [List.append_nil]
  · rfl

/-- A line ends as the value on it does. -/
theorem finish_mark (p cs : List Char) {d : Char} (hd : isBreak d = false) :
    Block.finish (p ++ d :: cs) = Block.finish cs := by
  cases cs with
  | nil =>
    rw [Block.finish_append, Block.finish_line (by simpa using hd)]
    rfl
  | cons d' cs =>
    rw [List.append_cons, Block.finish_append]

/-- A key and its value. -/
theorem scans_entry {value : List Char} {f : List Char → List Token} (cs : List Char)
    (hvalue : ReadsAs (n + 1) value f) : Scans .blockMappingStart n (Write.entry n cs value)
      fun ends => .key :: .scalar (.ofList cs) (styleOf cs) :: .value :: f ends := by
  have hspace : ∀ p, Block.finish (p ++ ':' :: ' ' :: value) = Block.finish value := by
    intro p
    rw [List.append_cons, finish_mark _ _ (by decide)]
  have hshown : ∀ ch ∈ ':' :: ' ' :: (value ++ Block.finish value), isPrintable ch := by
    simp only [List.forall_mem_cons, List.forall_mem_append]
    exact ⟨by decide, by decide, hvalue.shown, isPrintable_finish value⟩
  have hscalar := isPrintable_scalar (n + 2) cs
  unfold Write.entry
  split
  · -- the colon stands on the line of the key
    next hsimple =>
    obtain ⟨d, written, hd, hlead⟩ := exists_lead_scalar (n + 2) cs
    refine ⟨d, written ++ ':' :: ' ' :: (value ++ Block.finish value), ?_, hlead, ?_, ?_⟩
    · rw [endLine_eq, hspace, hd]
      simp
    · rw [← List.cons_append, ← hd]
      exact List.forall_mem_append.2 ⟨hscalar, hshown⟩
    · intro s k before level outer hk hlevel h
      rw [← List.cons_append, ← hd] at h
      obtain ⟨s₁, hrun₁, hmark⟩ := run_key hsimple (by simpa using h) hlevel rfl
      obtain ⟨s₂, hrun₂, hstands⟩ := hvalue.run s₁ k _ _ (Nat.lt_succ_of_le hk) hmark
      exact ⟨s₂, hrun₁.trans hrun₂, by simpa using hstands⟩
  · -- the key has a question mark, and the colon a line of its own
    refine ⟨'?', ' ' :: (Write.scalar (n + 2) cs ++ (Block.finish (Write.scalar (n + 2) cs)
      ++ (spaces n ++ ':' :: ' ' :: (value ++ Block.finish value)))), ?_, by decide, ?_, ?_⟩
    · rw [endLine_eq, endLine_eq, hspace, List.append_cons _ '?', finish_mark _ _ (by decide)]
      simp
    · simp only [List.forall_mem_cons, List.forall_mem_append] at hshown ⊢
      exact ⟨by decide, by decide, hscalar, isPrintable_finish _, isPrintable_spaces n, hshown⟩
    · intro s k before level outer hk hlevel h
      obtain ⟨s₁, hrun₁, hmark⟩ := run_longKey (by simpa using h) hlevel rfl
      obtain ⟨s₂, hrun₂, hstands⟩ := hvalue.run s₁ k _ _ (Nat.lt_succ_of_le hk) hmark
      exact ⟨s₂, hrun₁.trans hrun₂, by simpa using hstands⟩

/-- An item of a sequence: a hyphen and a value. -/
theorem scans_item {value : List Char} {f : List Char → List Token}
    (hvalue : ReadsAs (n + 1) value f) :
    Scans .blockSequenceStart n (spaces n ++ '-' :: ' ' :: (value ++ Block.finish value))
      fun ends => .blockEntry :: f ends := by
  refine ⟨'-', ' ' :: (value ++ Block.finish value), rfl, by decide, ?_, ?_⟩
  · simp only [List.forall_mem_cons, List.forall_mem_append]
    exact ⟨by decide, by decide, hvalue.shown, isPrintable_finish value⟩
  · intro s k before level outer hk hlevel h
    obtain ⟨s₁, hrun₁, hmark⟩ := run_hyphen (by simpa using h) hlevel rfl
    obtain ⟨s₂, hrun₂, hstands⟩ := hvalue.run s₁ k _ _ (Nat.lt_succ_of_le hk) hmark
    exact ⟨s₂, hrun₁.trans hrun₂, by simpa using hstands⟩

/-- A section: the collection below its name. -/
theorem scans_section {start : Token} {inner : List Char} {f : List Char → List Token}
    (hsimple : Write.isSimpleKey cs) (hinner : Scans start (n + 2) inner f) :
    Scans .blockMappingStart n (spaces n ++ Write.scalar (n + 2) cs ++ [':', '\n'] ++ inner)
      fun ends => .key :: .scalar (.ofList cs) (styleOf cs) :: .value :: start ::
        f ends ++ [.blockEnd] := by
  obtain ⟨d', body', rfl, hd', hbody', hrun'⟩ := hinner
  obtain ⟨d, written, hd, hlead⟩ := exists_lead_scalar (n + 2) cs
  refine ⟨d, written ++ ':' :: '\n' :: (spaces (n + 2) ++ d' :: body'), by simp [hd], hlead, ?_, ?_⟩
  · have hname := isPrintable_scalar (n + 2) cs
    rw [hd] at hname
    rw [← List.cons_append]
    exact List.forall_mem_append.2 ⟨hname, List.forall_mem_cons.2 ⟨by decide,
      List.forall_mem_cons.2 ⟨by decide, List.forall_mem_append.2 ⟨isPrintable_spaces _, hbody'⟩⟩⟩⟩
  · intro s k before level outer hk hlevel h
    rw [← List.cons_append, ← hd] at h
    obtain ⟨s₁, hrun₁, hmark⟩ := run_key hsimple (by simpa using h) hlevel rfl
    let below : Continuation := { column := n + 2, text := d' :: body' ++ k.chars, leads := hd' }
    have hstands := stands_of_lineEnd (k := below) hmark.flow (by simp [hmark.key])
      (by rw [hmark.rest]; simp [Continuation.chars, Continuation.gap, below])
    rw [hmark.tokens_eq, hmark.level_eq, hmark.outer_eq,
      closeTo_of_le (by simp only [below]; omega)] at hstands
    obtain ⟨s₂, hrun₂, hstands'⟩ := hrun' s₁ k _ _ _ (by omega) (by omega) hstands
    -- what follows the section ends the collection below its name
    rw [opened, if_pos (by omega), closeTo_cons (by omega)] at hstands'
    exact ⟨s₂, hrun₁.trans hrun₂, by simpa using hstands'⟩

/-! ## The whole document -/

/-- The tokens of a document that holds one mapping, and line ends at its end. -/
theorem tokens?_written {text ends : List Char} {f : List Char → List Token}
    (h : Scans .blockMappingStart 0 text f) (hends : ∀ b ∈ ends, b = '\n') :
    tokens? (.ofList (text ++ ends)) = some (.blockMappingStart :: f ends ++ [.blockEnd]) := by
  obtain ⟨d, body, rfl, hd, hbody, hrun⟩ := h
  let k : Continuation := { ends, ends_eq := hends }
  have hchars : k.chars = ends := by simp [Continuation.chars, Continuation.gap, k]
  have hmark : d ≠ '\ufeff' := ne_of_isLead hd (by decide)
  have hallowed : (d :: body ++ ends).all isAllowed := by
    refine List.all_eq_true.2 (List.forall_mem_append.2
      ⟨fun ch hch => isAllowed_of_isPrintable (hbody ch hch), fun ch hch => ?_⟩)
    rw [hends ch hch]
    decide
  let first : Continuation := { text := d :: body ++ k.chars, leads := hd }
  -- at the start the first entry stands in the first column, and nothing is open
  have hstart := stands_of_landed (k := first) (s := { cursor := { rest := first.text } }) rfl rfl
    (by simp) rfl rfl
  obtain ⟨s', hrun', index, line, hadvance, -⟩ :=
    hrun _ k [] 0 [] (Nat.le_refl _) (Nat.zero_le _) hstart
  rw [closeTo_of_le (Nat.le_refl _)] at hadvance
  have hlayout : Layout.run { cursor := { rest := first.text } }
      = some (.blockMappingStart :: f ends ++ [.blockEnd]) := by
    rw [hrun', run_of_end hadvance rfl]
    simp [finish, boundary, dedent, plainState, inFlow, opened, closeTo, dropKey, k]
  simp only [tokens?, String.toList_ofList, spaces_zero, List.nil_append]
  split
  · next rest heq =>
    obtain ⟨rfl, -⟩ := List.cons.inj heq
    exact absurd rfl hmark
  · rw [if_pos hallowed, ← hlayout]
    simp only [first, hchars]

end Yaml

end ClientMetrics
