import ClientMetrics.Proofs.Yaml.Literal
import ClientMetrics.Proofs.Yaml.Tokens

/-!
# Taking written scalars

A text is written in one of four styles, each of which is only chosen for texts that it can show.
Where such a scalar stands after a space, the run takes it as one token and goes on to whatever
follows its line; a short one on a single line is taken up to the colon after it.

Key results:
- `styleOf_cases`: what the style of a text says about it.
- `Layout.take_key`: a simple key, up to the colon.
- `Layout.AfterMark.run_text`: a text after a space. It is read back as itself, together with the
  line ends that follow it where it is a literal block that keeps them (`absorbed`).
- `Layout.AfterMark.run_plain`: a plain word after a space.
-/

namespace ClientMetrics

namespace Yaml

variable {cs tail : List Char}

/-! ## Styles -/

/-- A text that may be written without quotes, if it does not stand for something else then. -/
structure IsPlain (cs : List Char) : Prop where
  ne_nil : cs ≠ []
  shown : ∀ ch ∈ cs, isPrintable ch ∧ isBreak ch = false
  marker : Style.startsLikeMarker cs = false
  firstMark : Style.hasFirstMark cs = false
  innerMark : Style.hasInnerMark true cs = false
  first : cs.head? ≠ some ' '
  last : cs.getLast? ≠ some ' '

theorem isPrintable_of_needsEscapes (h : Style.needsEscapes cs = false) :
    ∀ ch ∈ cs, isPrintable ch := by
  simp only [Style.needsEscapes, Bool.or_eq_false_iff, Bool.not_eq_false'] at h
  exact List.all_eq_true.1 h.1

/-- The check for the plain style says all that is needed of a plain text, except that there is
one. -/
theorem IsPlain.of_allowsPlain (hne : cs ≠ []) (h : Style.allowsPlain cs) : IsPlain cs := by
  simp only [Style.allowsPlain, Bool.and_eq_true, Bool.not_eq_true', decide_eq_true_eq] at h
  obtain ⟨⟨⟨⟨⟨⟨hmarker, hfirstMark⟩, hinnerMark⟩, hbreak⟩, hfirst⟩, hlast⟩, hescapes⟩ := h
  have hbreak' : ∀ ch ∈ cs, isBreak ch = false := by simpa using hbreak
  exact ⟨hne, fun ch hch => ⟨isPrintable_of_needsEscapes hescapes ch hch, hbreak' ch hch⟩, hmarker,
    hfirstMark, hinnerMark, hfirst, hlast⟩

/-- A text of one line that single quotes may hold can be shown between them. -/
theorem isSingle_of_allowsSingle (hfold : '\n' ∉ cs) (h : Style.allowsSingle cs) :
    Quoted.IsSingle cs := by
  simp only [Style.allowsSingle, Bool.and_eq_true, Bool.not_eq_true'] at h
  -- the check rules out spaces on both sides of a break, of which `hescapes` has the one before it
  have hescapes := h.2
  simp only [Style.needsEscapes, Bool.or_eq_false_iff] at hescapes
  exact ⟨isPrintable_of_needsEscapes h.2, fun ch hch heq => hfold (heq ▸ hch), h.1, hescapes.2⟩

/-- A style is chosen for texts that it can show. -/
theorem styleOf_cases (cs : List Char) :
    (styleOf cs = .plain ∧ IsPlain cs) ∨ (styleOf cs = .singleQuoted ∧ Quoted.IsSingle cs)
      ∨ styleOf cs = .doubleQuoted
      ∨ (styleOf cs = .literal ∧ '\n' ∈ cs ∧ ∀ ch ∈ cs, isPrintable ch) := by
  unfold styleOf
  -- texts with a line feed are shown as blocks if they can be
  split
  · next hfold =>
    split
    · next h =>
      simp only [Style.allowsLiteral, Bool.and_eq_true, Bool.not_eq_true'] at h
      exact .inr (.inr (.inr ⟨rfl, by simpa using hfold, isPrintable_of_needsEscapes h.2⟩))
    · exact .inr (.inr (.inl rfl))
  · next hfold =>
    split
    · next h =>
      simp only [Bool.and_eq_true, Bool.not_eq_true'] at h
      refine .inl ⟨rfl, .of_allowsPlain ?_ h.2⟩
      rintro rfl
      simp [Scalar.needsQuotes] at h
    · split
      · next h => exact .inr (.inl ⟨rfl, isSingle_of_allowsSingle (by simpa using hfold) h⟩)
      · exact .inr (.inr (.inl rfl))

/-- The style of single quotes is only chosen for a text that they can show. -/
theorem single_of_styleOf (h : styleOf cs = .singleQuoted) : Quoted.IsSingle cs := by
  rcases styleOf_cases cs with ⟨h', -⟩ | ⟨-, hcs⟩ | h' | ⟨h', -⟩
  · simp [h] at h'
  · exact hcs
  · simp [h] at h'
  · simp [h] at h'

/-- The literal style is only chosen for a text of printable characters, which has a break. -/
theorem literal_of_styleOf (h : styleOf cs = .literal) : cs ≠ [] ∧ ∀ ch ∈ cs, isPrintable ch := by
  rcases styleOf_cases cs with ⟨h', -⟩ | ⟨h', -⟩ | h' | ⟨-, hfold, hcs⟩
  · simp [h] at h'
  · simp [h] at h'
  · simp [h] at h'
  · exact ⟨List.ne_nil_of_mem hfold, hcs⟩

/-- The two kinds of quotes. -/
inductive Quotes where
  | single
  | double
  deriving DecidableEq, Repr

namespace Quotes

/-- The quote before and after the text. -/
def mark : Quotes → Char
  | single => '\''
  | double => '"'

/-- The style of a scalar between such quotes. -/
def style : Quotes → ScalarStyle
  | single => .singleQuoted
  | double => .doubleQuoted

/-- A text as it stands between quotes. -/
def body (n : Nat) (cs : List Char) : Quotes → List Char
  | single => Write.singleBody n false cs
  | double => cs.flatMap Write.doubleChar

/-- A text with its quotes. -/
def write (n : Nat) (cs : List Char) (q : Quotes) : List Char := q.mark :: q.body n cs ++ [q.mark]

/-- A text that can stand between quotes. Double quotes hold any text. -/
def Shows (cs : List Char) : Quotes → Prop
  | single => Quoted.IsSingle cs
  | double => True

/-- A quote may start the next part of a document. -/
theorem isLead_mark (q : Quotes) : isLead q.mark := by
  cases q <;> decide

/-- A text whose style has quotes can stand between these. -/
theorem shows_of_styleOf {q : Quotes} (h : styleOf cs = q.style) : q.Shows cs := by
  cases q with
  | single => exact single_of_styleOf h
  | double => trivial

/-- A text whose style has quotes is written between these. -/
theorem scalar_eq_write {q : Quotes} (h : styleOf cs = q.style) (n : Nat) :
    Write.scalar n cs = q.write n cs := by
  cases q <;> simp [Write.scalar, h, style, write, mark, body]

end Quotes

/-- What a text reads besides itself, of the line ends that follow it: a literal block may keep
them. -/
def absorbed (cs ends : List Char) : List Char :=
  if styleOf cs = .literal then Block.kept cs ends else []

/-- A scalar ends its line only if it is a literal block whose text does. -/
theorem finish_scalar (n : Nat) (cs : List Char) :
    Block.finish (Write.scalar n cs)
      = if styleOf cs = .literal then Block.finish cs else ['\n'] := by
  have hquote : ∀ p q, isBreak q = false → Block.finish (p ++ [q]) = ['\n'] := by
    intro p q hq
    rw [Block.finish_append, Block.finish_line (by simpa using hq)]
  unfold Write.scalar
  -- only the literal style writes no mark or character of the text's own at the end of its line
  rcases styleOf_cases cs with ⟨h, hcs⟩ | ⟨h, -⟩ | h | ⟨h, hfold, -⟩ <;> simp only [h]
  · exact Block.finish_line fun ch hch => (hcs.shown ch hch).2
  · exact hquote _ _ (by decide)
  · exact hquote _ _ (by decide)
  · rw [if_pos trivial, List.append_cons]
    exact Block.finish_literalBody _ n true (List.ne_nil_of_mem hfold)

namespace IsPlain

variable {ch d : Char} {more : List Char}

/-- A plain text starts with none of the characters that stand for something. -/
theorem head_ne (h : IsPlain (ch :: more))
    (hd : (",[]\x7b\x7d#&*!|>'\"%@`".toList).contains d) : ch ≠ d := by
  rintro rfl
  have hmark := h.firstMark
  rw [Style.hasFirstMark, hd] at hmark
  simp at hmark

/-- Nor with one that would stand for something before a blank. -/
theorem startsBlank_of_indicator (h : IsPlain (ch :: more)) (tail : List Char)
    (hch : ch = '?' ∨ ch = ':' ∨ ch = '-') : startsBlank (more ++ tail) = false := by
  have hmark := h.firstMark
  simp only [Style.hasFirstMark, Bool.or_eq_false_iff, Bool.and_eq_false_iff,
    decide_eq_false_iff_not] at hmark
  -- each of the three marks is one of those that no blank may follow
  have hblank : startsBlank more = false := by
    refine hmark.2.resolve_left fun hne => ?_
    rcases hch with hch | hch | hch
    · exact hne.1.1 hch
    · exact hne.1.2 hch
    · exact hne.2 hch
  cases more with
  | nil => simp [startsBlank] at hblank
  | cons d more => exact hblank

/-- The next part of a document may start with a plain text. -/
theorem leads (h : IsPlain cs) (tail : List Char) : Leads (cs ++ tail) := by
  obtain ⟨ch, more, rfl⟩ := List.exists_cons_of_ne_nil h.ne_nil
  obtain ⟨hprintable, hbreak⟩ := h.shown ch List.mem_cons_self
  have hspace : ch ≠ ' ' := by simpa using h.first
  have hhash : ch ≠ '#' := h.head_ne (by decide)
  simp [Leads, isLead, hprintable, hbreak, hspace, hhash]

/-- A text that is followed by another character does not get its first three from there. -/
theorem exists_three {x : Char} {rest : List Char} (hd : d ≠ x)
    (h : cs ++ d :: tail = x :: x :: x :: rest) : ∃ more, cs = x :: x :: x :: more := by
  -- the first three characters are all of the text unless it is shorter, and then `d` is among them
  rcases cs with _ | ⟨a, _ | ⟨b, _ | ⟨e, more⟩⟩⟩
  · simp [hd] at h
  · simp [hd] at h
  · simp [hd] at h
  · obtain ⟨rfl, rfl, rfl, -⟩ : a = x ∧ b = x ∧ e = x ∧ _ := by simpa using h
    exact ⟨more, rfl⟩

/-- No marker of a document starts like a plain text. -/
theorem atMarker {c : Cursor} (h : IsPlain cs) (hc : c.rest = cs ++ d :: tail)
    (hd : d = ':' ∨ d = '\n') : c.atMarker = false := by
  have hmarker := h.marker
  have hne : d ≠ '-' ∧ d ≠ '.' := by rcases hd with rfl | rfl <;> decide
  unfold Cursor.atMarker
  -- neither three hyphens nor three dots
  split
  · next rest heq =>
    obtain ⟨more, rfl⟩ := exists_three hne.1 (hc.symm.trans heq)
    simp [Style.startsLikeMarker] at hmarker
  · next rest heq =>
    obtain ⟨more, rfl⟩ := exists_three hne.2 (hc.symm.trans heq)
    simp [Style.startsLikeMarker] at hmarker
  · simp

/-- A plain text does not start with a mark of punctuation. -/
theorem isIndicator_head (h : IsPlain (ch :: more)) : Plain.isIndicator ch = false := by
  simp only [Plain.isIndicator, Plain.isFlowIndicator, Bool.or_eq_false_iff,
    decide_eq_false_iff_not]
  repeat' constructor
  all_goals exact h.head_ne (by decide)

/-- A plain scalar may start with a plain text. -/
theorem starts (h : IsPlain cs) (tail : List Char) : Plain.starts false (cs ++ tail) = true := by
  obtain ⟨ch, more, rfl⟩ := List.exists_cons_of_ne_nil h.ne_nil
  have hlead := h.leads tail
  rw [List.cons_append] at hlead ⊢
  have hne := h.head_ne (d := ch)
  unfold Plain.starts
  -- the three characters that may only start a plain scalar where no blank follows, and all others
  split
  · next heq => simp at heq
  · next rest heq =>
    obtain ⟨rfl, rfl⟩ := List.cons.inj heq
    have hblank := h.startsBlank_of_indicator tail (.inr (.inr rfl))
    cases hmore : more ++ tail with
    | nil => simp
    | cons d rest =>
      rw [hmore, startsBlank, Bool.or_eq_false_iff] at hblank
      simp [hblank.1]
  · next rest heq =>
    obtain ⟨rfl, rfl⟩ := List.cons.inj heq
    simp [h.startsBlank_of_indicator tail (.inl rfl)]
  · next rest heq =>
    obtain ⟨rfl, rfl⟩ := List.cons.inj heq
    simp [h.startsBlank_of_indicator tail (.inr (.inl rfl))]
  · next c rest _ _ _ heq =>
    obtain ⟨rfl, rfl⟩ := List.cons.inj heq
    simp [isBlank_of_isLead hlead, isBreak_of_isLead hlead, h.isIndicator_head]

end IsPlain

/-- The next part of a document may start with a scalar. -/
theorem exists_lead_scalar (n : Nat) (cs : List Char) :
    ∃ d more, Write.scalar n cs = d :: more ∧ isLead d := by
  unfold Write.scalar
  rcases styleOf_cases cs with ⟨h, hcs⟩ | ⟨h, -⟩ | h | ⟨h, -⟩ <;> simp only [h]
  · obtain ⟨d, more, rfl⟩ := List.exists_cons_of_ne_nil hcs.ne_nil
    exact ⟨d, more, rfl, hcs.leads []⟩
  · exact ⟨'\'', _, rfl, by decide⟩
  · exact ⟨'"', _, rfl, by decide⟩
  · exact ⟨'|', _, rfl, by decide⟩

/-- Nothing is passed over before a scalar: it starts the next part of the document itself. -/
theorem leads_scalar (n : Nat) (cs tail : List Char) : Leads (Write.scalar n cs ++ tail) := by
  obtain ⟨d, more, hd, hlead⟩ := exists_lead_scalar n cs
  rw [hd]
  exact hlead

namespace Layout

variable {s : Layout} {c : Cursor} {k : Continuation} {n level : Nat} {more : List Char}

/-! ## Taking a scalar -/

/-- After a scalar, which may be a key. -/
def afterScalar (s : Layout) (cs : List Char) (style : ScalarStyle) (written : List Char)
    (keyAllowed : Bool) : Layout :=
  { s with
    tokens := .scalar (.ofList cs) style :: s.tokens
    cursor := s.cursor.past written
    keyAllowed
    key := s.savedKey }

/-- A plain text is taken as a plain scalar, up to the colon or the line end after it. -/
theorem take_plain {d : Char} {written : List Char} {broken : Bool} (hcs : IsPlain cs)
    (hflow : s.outerKeys = []) (hkey : s.key = none) (hc : s.cursor.rest = cs ++ d :: tail)
    (hd : d = ':' ∨ d = '\n') (hlevel : s.level ≤ s.cursor.column + 1)
    (hread : Plain.read false s.level (s.cursor.past cs)
      = some ([], (s.cursor.past cs).past written, broken)) :
    s.take = some (s.afterScalar cs .plain (cs ++ written) broken) := by
  have hmarker := hcs.atMarker hc hd
  have hstarts := hcs.starts (d :: tail)
  have hinFlow : s.inFlow = false := by simp [inFlow, hflow]
  have hplain : plain false s.level s.cursor
      = some (.scalar (.ofList cs) .plain, s.cursor.past (cs ++ written), broken) := by
    rw [plain, Plain.read_append hcs.innerMark hcs.shown hcs.last hlevel hc, hread,
      Cursor.past_append]
    simp
  have hpart := part_eq hkey hplain
  obtain ⟨ch, more, rfl⟩ := List.exists_cons_of_ne_nil hcs.ne_nil
  have hindicator := hcs.startsBlank_of_indicator (d :: tail)
  -- the other branches for these characters are ruled out: no blank follows, and it is block
  -- context
  have hhyphen : ¬(ch = '-' ∧ startsBlank (more ++ d :: tail) = true) := by
    rintro ⟨hch, hblank⟩
    simp [hindicator (.inr (.inr hch))] at hblank
  have hquestion : ¬(ch = '?' ∧ (s.inFlow = true ∨ startsBlank (more ++ d :: tail) = true)) := by
    rintro ⟨hch, hblank⟩
    simp [hinFlow, hindicator (.inl hch)] at hblank
  have hcolon : ¬(ch = ':' ∧ (s.inFlow = true ∨ startsBlank (more ++ d :: tail) = true)) := by
    rintro ⟨hch, hblank⟩
    simp [hinFlow, hindicator (.inr (.inl hch))] at hblank
  rw [List.cons_append] at hc hstarts
  have htake := take_eq_part hc (fun d hd => hcs.head_ne hd) hmarker hhyphen hquestion hcolon
    (by rw [hinFlow]; exact hstarts)
  rw [htake, hinFlow, hpart]
  rfl

/-- A text between quotes is taken up to its closing quote. -/
theorem take_quoted {q : Quotes} (hcs : q.Shows cs) (hn : 0 < n) (hkey : s.key = none)
    (hc : s.cursor.rest = q.write n cs ++ tail) (htail : tail.head? ≠ some '\'') :
    s.take = some (s.afterScalar cs q.style (q.write n cs) false) := by
  have hcolumn : 0 < (s.cursor.past [q.mark]).column := by
    rw [← Cursor.skip_eq_past (isBreak_of_isLead q.isLead_mark)]
    exact Nat.succ_pos _
  have hskip := Cursor.skip_eq_past (c := s.cursor) (isBreak_of_isLead q.isLead_mark)
  simp only [Quotes.write, List.cons_append, List.append_assoc] at hc ⊢
  -- both kinds are read up to the closing quote, each by its own reader
  cases q with
  | single =>
    have hread := Quoted.read_singleBody hn hcs htail hcolumn (Cursor.rest_past_singleton hc)
    have hquoted : quoted false s.cursor = some (.scalar (.ofList cs) .singleQuoted,
        s.cursor.past ('\'' :: (Write.singleBody n false cs ++ ['\''])), false) := by
      rw [quoted, hskip, hread]
      rfl
    rw [take_singleQuote hc, part_eq hkey hquoted]
    rfl
  | double =>
    have hread := Quoted.read_doubleBody hcolumn (Cursor.rest_past_singleton hc)
    have hquoted : quoted true s.cursor = some (.scalar (.ofList cs) .doubleQuoted,
        s.cursor.past ('"' :: (cs.flatMap Write.doubleChar ++ ['"'])), false) := by
      rw [quoted, hskip, hread]
      rfl
    rw [take_doubleQuote hc, part_eq hkey hquoted]
    rfl

/-- A key that can stand on one line is taken up to the colon. -/
theorem take_key (hsimple : Write.isSimpleKey cs) (hn : 0 < n) (hflow : s.outerKeys = [])
    (hkey : s.key = none) (hlevel : s.level ≤ s.cursor.column + 1)
    (hc : s.cursor.rest = Write.scalar n cs ++ ':' :: tail) (htail : startsBlank tail) :
    s.take = some (s.afterScalar cs (styleOf cs) (Write.scalar n cs) false) := by
  have hquote : (':' :: tail).head? ≠ some '\'' := by simp
  -- the fourth style spans lines, which a simple key does not
  rcases styleOf_cases cs with ⟨hstyle, hcs⟩ | ⟨hstyle, -⟩ | hstyle | ⟨hstyle, hfold, -⟩
  · have hwritten : Write.scalar n cs = cs := by rw [Write.scalar, hstyle]
    rw [hwritten] at hc ⊢
    have hread : Plain.read false s.level (s.cursor.past cs)
        = some ([], (s.cursor.past cs).past [], false) :=
      Plain.read_colon (Cursor.rest_past hc) htail
    have htake := take_plain hcs hflow hkey hc (.inl rfl) hlevel hread
    rw [htake, hstyle, List.append_nil]
  · rw [Quotes.scalar_eq_write (q := .single) hstyle] at hc ⊢
    rw [hstyle]
    exact take_quoted (Quotes.shows_of_styleOf hstyle) hn hkey hc hquote
  · rw [Quotes.scalar_eq_write (q := .double) hstyle] at hc ⊢
    rw [hstyle]
    exact take_quoted trivial hn hkey hc hquote
  · simp only [Write.isSimpleKey, Bool.and_eq_true, Bool.not_eq_true', List.any_eq_false] at hsimple
    exact absurd (show isBreak '\n' = true by decide) (hsimple.1 '\n' hfold)

/-! ## Values on the line of their key -/

/-- The text goes on behind a mark of punctuation, and no key is pending. -/
structure AfterMark (s : Layout) (text : List Char) (tokens : List Token) (level : Nat)
    (outer : List Nat) : Prop where
  rest : s.cursor.rest = text
  tokens_eq : s.tokens = tokens
  level_eq : s.level = level
  outer_eq : s.outer = outer
  flow : s.outerKeys = []
  key : s.key = none
  deep : level ≤ s.cursor.column

variable {text : List Char} {tokens : List Token} {outer : List Nat}

/-- A space leads to the value. -/
theorem AfterMark.advance (h : AfterMark s (' ' :: text) tokens level outer) (htext : Leads text) :
    s.advance = some { s with cursor := s.cursor.past [' '] } := by
  -- no key is pending, so none can get lost
  have hkey : refreshKey (s.cursor.past (spaces 1)) s.key = some s.key := by
    rw [h.key]
    rfl
  have hlevel : s.level ≤ s.cursor.column + 1 := by
    have := h.deep
    rw [h.level_eq]
    omega
  exact advance_spaces h.flow hkey (h.rest.trans rfl) htext hlevel

/-- What starts deeper than the surroundings need not be a key. -/
theorem savedKey_of_deep (h : s.level ≤ s.cursor.column) :
    ∀ p ∈ s.savedKey, p.required = false ∧ p.line = s.cursor.line := by
  intro p hp
  have hne : s.level ≠ s.cursor.column + 1 := by omega
  unfold savedKey at hp
  split at hp
  · obtain rfl := Option.some.inj hp
    simp [hne]
  · simp at hp

/-- Behind the space the same tokens stand, and the cursor is one column further. -/
theorem AfterMark.space (h : AfterMark s (' ' :: text) tokens level outer) :
    AfterMark { s with cursor := s.cursor.past [' '] } text tokens level outer := by
  refine ⟨Cursor.rest_past_singleton h.rest, h.tokens_eq, h.level_eq, h.outer_eq, h.flow, h.key, ?_⟩
  rw [← Cursor.skip_eq_past (by decide)]
  exact Nat.le_succ_of_le h.deep

/-- What stands after the space is taken, and the run goes on after that. -/
theorem AfterMark.run_take {written : List Char} {after : Layout → Layout}
    (h : AfterMark s (' ' :: (written ++ more)) tokens level outer)
    (hleads : Leads (written ++ more))
    (hcursor : ∀ next, (after next).cursor = next.cursor.past written)
    (htake : ∀ next, AfterMark next (written ++ more) tokens level outer →
      next.take = some (after next)) :
    ∃ next : Layout, s.run = (after next).run ∧
      AfterMark next (written ++ more) tokens level outer := by
  have hnext := h.space
  refine ⟨_, run_of_take (h.advance hleads) (htake _ hnext) ?_, hnext⟩
  -- the run comes nearer to the end of the text by the space and by what is written
  rw [hcursor, Cursor.rest_past hnext.rest, h.rest]
  simp only [List.length_cons, List.length_append]
  omega

/-- The run goes on with the next line. -/
def GoesOn (s : Layout) (k : Continuation) (tokens : List Token) (level : Nat)
    (outer : List Nat) : Prop :=
  ∃ s' : Layout, s.run = s'.run ∧
    Stands s' k.text k.column (closeTo (k.column + 1) tokens level outer)

/-- A plain word after a space. -/
theorem AfterMark.run_plain (hcs : IsPlain cs) (hk : k.column < level)
    (h : AfterMark s (' ' :: (cs ++ '\n' :: k.chars)) tokens level outer) :
    GoesOn s k (.scalar (.ofList cs) .plain :: tokens) level outer := by
  have hsplit : cs ++ '\n' :: k.chars = (cs ++ '\n' :: k.gap) ++ k.text := by
    simp [Continuation.chars]
  have hleads : Leads (cs ++ '\n' :: k.chars) := hcs.leads _
  rw [hsplit] at h hleads
  obtain ⟨next, hrun, hnext⟩ := h.run_take hleads (fun _ => rfl) fun next hnext => by
    have hlevel : next.level ≤ next.cursor.column + 1 := by
      have := hnext.deep
      rw [hnext.level_eq]
      omega
    have hc := hnext.rest.trans hsplit.symm
    exact take_plain hcs hnext.flow hnext.key hc (.inr rfl) hlevel
      (Plain.read_continuation k (hnext.level_eq ▸ hk) (Cursor.rest_past hc))
  -- a plain scalar reads on over the gap to the next line, so that its line ends before `k.text`
  have hpast := Cursor.past_append next.cursor cs ('\n' :: k.gap)
  have hkey : ∀ p ∈ next.savedKey, p.required = false ∧
      p.line < (next.cursor.past (cs ++ '\n' :: k.gap)).line := by
    intro p hp
    obtain ⟨hrequired, hline⟩ := savedKey_of_deep (hnext.level_eq ▸ hnext.deep) p hp
    rw [hpast]
    exact ⟨hrequired, hline ▸ Nat.lt_of_le_of_lt (Cursor.line_le_past _ _)
      (Cursor.line_lt_past (by decide) _)⟩
  have hcolumn : (next.cursor.past (cs ++ '\n' :: k.gap)).column = k.column := by
    rw [hpast]
    exact k.column_past (by decide)
  have hstands := stands_of_landed
    (s := next.afterScalar cs .plain (cs ++ '\n' :: k.gap) true) hnext.flow rfl hkey
    (Cursor.rest_past hnext.rest) hcolumn
  exact ⟨_, hrun, by
    simpa [afterScalar, hnext.tokens_eq, hnext.level_eq, hnext.outer_eq] using hstands⟩

/-- A text between quotes after a space. -/
theorem AfterMark.run_quoted {q : Quotes} (hcs : q.Shows cs)
    (h : AfterMark s (' ' :: (q.write (level + 1) cs ++ '\n' :: k.chars)) tokens level outer) :
    GoesOn s k (.scalar (.ofList cs) q.style :: tokens) level outer := by
  obtain ⟨next, hrun, hnext⟩ := h.run_take q.isLead_mark (fun _ => rfl) fun next hnext =>
    take_quoted hcs (Nat.succ_pos level) hnext.key hnext.rest (by simp)
  -- the quotes may have been a key, which was not required
  have hkey : ∀ p ∈ next.savedKey, p.required = false ∧
      p.line ≤ (next.cursor.past (q.write (level + 1) cs)).line := by
    intro p hp
    obtain ⟨hrequired, hline⟩ := savedKey_of_deep (hnext.level_eq ▸ hnext.deep) p hp
    exact ⟨hrequired, hline ▸ Cursor.line_le_past _ _⟩
  have hstands := stands_of_lineEnd
    (s := next.afterScalar cs q.style (q.write (level + 1) cs) false) hnext.flow hkey
    (Cursor.rest_past hnext.rest)
  exact ⟨_, hrun, by
    simpa [afterScalar, hnext.tokens_eq, hnext.level_eq, hnext.outer_eq] using hstands⟩

/-- After a block scalar, which is no key. -/
def afterBlock (s : Layout) (text written : List Char) : Layout :=
  { s with
    tokens := .scalar (.ofList text) .literal :: s.tokens
    cursor := s.cursor.past written
    keyAllowed := true }

/-- A literal block is taken with the line ends that it keeps, up to the next line. -/
theorem take_literal (hstyle : styleOf cs = .literal) (hlevel : 0 < level) (hk : k.column < level)
    (h : AfterMark s (Write.scalar (level + 1) cs ++ (Block.finish cs ++ k.chars)) tokens level
      outer) :
    s.take = some (s.afterBlock (cs ++ Block.kept cs k.ends)
      (Write.scalar (level + 1) cs ++ (Block.finish cs ++ k.gap))) := by
  have hcs := literal_of_styleOf hstyle
  have hwritten : Write.scalar (level + 1) cs
      = '|' :: (Block.headerText cs ++ Write.literalBody (level + 1) true cs) := by
    simp [Write.scalar, hstyle, Block.headerText]
  have hrest := h.rest
  rw [hwritten, List.cons_append, List.append_assoc] at hrest ⊢
  have hread := Block.read_written hcs.2 hcs.1 hlevel hk (Cursor.rest_past_singleton hrest)
  -- no key is pending, so the bar of a block does not end one
  have hdrop : s.dropKey = some s := by
    have hkey := h.key
    obtain ⟨cursor, tokens, level, outer, key, outerKeys, keyAllowed⟩ := s
    obtain rfl : key = none := hkey
    rfl
  rw [take_bar h.flow hrest, block, hdrop, Option.bind_eq_bind, Option.bind_some, h.level_eq,
    Cursor.skip_eq_past (show isBreak '|' = false by decide), hread]
  simp [push, afterBlock, Cursor.past_cons]

/-- A literal block after a space. It takes what its header keeps of the line ends that follow. -/
theorem AfterMark.run_literal (hstyle : styleOf cs = .literal) (hlevel : 0 < level)
    (hk : k.column < level)
    (h : AfterMark s (' ' :: (Write.scalar (level + 1) cs ++ (Block.finish cs ++ k.chars))) tokens
      level outer) :
    GoesOn s k (.scalar (.ofList (cs ++ Block.kept cs k.ends)) .literal :: tokens) level outer := by
  have hleads := leads_scalar (level + 1) cs (Block.finish cs ++ k.chars)
  have hfinish : Block.finish (Write.scalar (level + 1) cs) = Block.finish cs := by
    rw [finish_scalar, if_pos hstyle]
  have hsplit : Write.scalar (level + 1) cs ++ (Block.finish cs ++ k.chars)
      = Write.scalar (level + 1) cs ++ (Block.finish cs ++ k.gap) ++ k.text := by
    simp [Continuation.chars]
  rw [hsplit] at h hleads
  obtain ⟨next, hrun, hnext⟩ := h.run_take hleads (fun _ => rfl) fun next hnext =>
    take_literal hstyle hlevel hk (hsplit ▸ hnext)
  -- whatever ends the block is a line end, and the gap leads on to the column of the next text
  have hcolumn : (next.cursor.past (Write.scalar (level + 1) cs
      ++ (Block.finish cs ++ k.gap))).column = k.column := by
    obtain ⟨p, b, hp, hb⟩ := Block.exists_lineEnd (Write.scalar (level + 1) cs)
    rw [hfinish] at hp
    rw [← List.append_assoc, hp, List.append_assoc, Cursor.past_append]
    exact k.column_past hb
  have hstands := stands_of_landed (s := next.afterBlock (cs ++ Block.kept cs k.ends)
    (Write.scalar (level + 1) cs ++ (Block.finish cs ++ k.gap))) hnext.flow rfl
    (by simp [afterBlock, hnext.key]) (Cursor.rest_past hnext.rest) hcolumn
  exact ⟨_, hrun, by
    simpa [afterBlock, hnext.tokens_eq, hnext.level_eq, hnext.outer_eq] using hstands⟩

/-- Every text after a space is read back, and the run goes on with the next line. -/
theorem AfterMark.run_text (hlevel : 0 < level) (hk : k.column < level)
    (h : AfterMark s (' ' :: (Write.scalar (level + 1) cs
      ++ (Block.finish (Write.scalar (level + 1) cs) ++ k.chars))) tokens level outer) :
    GoesOn s k (.scalar (.ofList (cs ++ absorbed cs k.ends)) (styleOf cs) :: tokens) level
      outer := by
  rw [finish_scalar] at h
  -- each style reads its own text, and only a literal block goes on with the line ends behind it
  rcases styleOf_cases cs with ⟨hstyle, hcs⟩ | ⟨hstyle, -⟩ | hstyle | ⟨hstyle, -⟩
  · rw [Write.scalar] at h
    simp only [absorbed, hstyle] at h ⊢
    simpa using AfterMark.run_plain hcs hk (by simpa using h)
  · rw [Quotes.scalar_eq_write (q := .single) hstyle] at h
    simp only [absorbed, hstyle] at h ⊢
    have hquoted := AfterMark.run_quoted (Quotes.shows_of_styleOf hstyle) (by simpa using h)
    simpa [Quotes.style] using hquoted
  · rw [Quotes.scalar_eq_write (q := .double) hstyle] at h
    simp only [absorbed, hstyle] at h ⊢
    simpa [Quotes.style] using AfterMark.run_quoted (q := .double) trivial (by simpa using h)
  · simp only [absorbed, hstyle, if_true] at h ⊢
    exact AfterMark.run_literal hstyle hlevel hk h

end Layout

end Yaml

end ClientMetrics
