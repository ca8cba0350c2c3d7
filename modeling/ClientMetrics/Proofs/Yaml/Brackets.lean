import ClientMetrics.Proofs.Yaml.Entries
import Mathlib.Data.List.Basic

/-!
# Taking what stands within brackets

Within brackets columns do not matter: a value is taken as far as it reaches, and the run goes on at
whatever closes it. A collection in brackets is such a value itself, so brackets may be nested to
any depth. What stands before an open bracket may still turn out to be a key once the bracket is
closed, and is remembered until then; nothing that is remembered has to be one.

Key results:
- `Layout.Inside`: the state of a run with some brackets open.
- `Layout.take_inline`: a scalar on one line.
- `inner_inline`, `inner_pair`, `inner_brackets`: the values and entries within brackets.
- `readsAs_brackets`: a collection in brackets after a key.
-/

namespace ClientMetrics

namespace Yaml

variable {cs tail : List Char} {tokens before : List Token} {level depth m : Nat}
  {outer : List Nat}

/-- What ends a scalar within brackets. -/
inductive Closes : List Char → Prop where
  | comma (more : List Char) : Closes (',' :: more)
  | square (more : List Char) : Closes (']' :: more)
  | curly (more : List Char) : Closes ('\x7d' :: more)
  | colon (more : List Char) : Closes (':' :: ' ' :: more)

/-- The two kinds of brackets. -/
inductive Brackets where
  | square
  | curly
  deriving DecidableEq, Repr

namespace Brackets

def first : Brackets → Char
  | square => '['
  | curly => '\x7b'

def last : Brackets → Char
  | square => ']'
  | curly => '\x7d'

def start : Brackets → Token
  | square => .flowSequenceStart
  | curly => .flowMappingStart

def stop : Brackets → Token
  | square => .flowSequenceEnd
  | curly => .flowMappingEnd

/-- The next part of a document may start with a bracket. -/
theorem isLead_first (b : Brackets) : isLead b.first := by
  cases b <;> decide

/-- A closing bracket may stand where a part is over. -/
theorem isLead_last (b : Brackets) : isLead b.last := by
  cases b <;> decide

/-- A closing bracket ends whatever stands before it. -/
theorem closes_last (b : Brackets) (more : List Char) : Closes (b.last :: more) := by
  cases b with
  | square => exact .square more
  | curly => exact .curly more

end Brackets

/-! ## Words -/

/-- A character of a word. -/
def isWordPart (c : Char) : Bool := isWordChar c || c = '.'

/-- A word starts with a letter or a digit, so it needs no quotes anywhere. -/
def IsWord (cs : List Char) : Prop :=
  cs.head?.any Char.isAlphanum ∧ cs.all isWordPart

instance (cs : List Char) : Decidable (IsWord cs) := inferInstanceAs (Decidable (_ ∧ _))

/-- Every character of a word is a part of one. -/
theorem IsWord.parts (h : IsWord cs) : ∀ c ∈ cs, isWordPart c := List.all_eq_true.1 h.2

/-- A character of a word is none of those that mean something. -/
theorem ne_of_isWordPart {c d : Char} (h : isWordPart c) (hd : isWordPart d = false) : c ≠ d := by
  rintro rfl
  simp [h] at hd

/-- A word stands on one line. -/
theorem isBreak_of_isWordPart {c : Char} (h : isWordPart c) : isBreak c = false := by
  have hne := fun d hd => ne_of_isWordPart (d := d) h hd
  simp [isBreak, hne '\n' (by decide), hne '\r' (by decide), hne '\u0085' (by decide),
    hne '\u2028' (by decide), hne '\u2029' (by decide)]

/-- The letters and digits by their numbers. -/
theorem isAlphanum_cases {c : Char} (h : c.isAlphanum) :
    (48 ≤ c.toNat ∧ c.toNat ≤ 57) ∨ (65 ≤ c.toNat ∧ c.toNat ≤ 90)
      ∨ (97 ≤ c.toNat ∧ c.toNat ≤ 122) := by
  have hrange : (decide (65 ≤ c.toNat ∧ c.toNat ≤ 90)
      || (decide (97 ≤ c.toNat) && decide (c.toNat ≤ 122))
      || (decide (48 ≤ c.toNat) && decide (c.toNat ≤ 57))) = true := h
  simp only [Bool.or_eq_true, Bool.and_eq_true, decide_eq_true_eq] at hrange
  omega

/-- A word can be shown. -/
theorem isPrintable_of_isWordPart {c : Char} (h : isWordPart c) : isPrintable c := by
  simp only [isWordPart, isWordChar, Bool.or_eq_true, decide_eq_true_eq] at h
  -- a letter or a digit, or one of the three marks that a word may contain
  obtain ((h | rfl) | rfl) | rfl := h
  · have hrange := isAlphanum_cases h
    simp only [isPrintable, Bool.or_eq_true, Bool.and_eq_true, decide_eq_true_eq]
    omega
  · decide
  · decide
  · decide

/-- Letters and digits make a word. -/
theorem IsWord.of_isAlphanum (hne : cs ≠ []) (h : ∀ c ∈ cs, c.isAlphanum) : IsWord cs := by
  obtain ⟨c, more, rfl⟩ := List.exists_cons_of_ne_nil hne
  refine ⟨by simpa using h c List.mem_cons_self, List.all_eq_true.2 fun d hd => ?_⟩
  simp [isWordPart, isWordChar, h d hd]

/-- No word holds a mark that would end it. -/
theorem hasInnerMark_of_isWordPart {afterBlank : Bool} (h : ∀ ch ∈ cs, isWordPart ch) :
    Style.hasInnerMark afterBlank cs = false := by
  induction cs generalizing afterBlank with
  | nil => rfl
  | cons ch cs ih =>
    obtain ⟨hch, hcs⟩ := List.forall_mem_cons.1 h
    have hcolon : ch ≠ ':' := ne_of_isWordPart hch (by decide)
    have hhash : ch ≠ '#' := ne_of_isWordPart hch (by decide)
    simp [Style.hasInnerMark, hcolon, hhash, ih hcs]

/-- A word starts with none of the characters that stand for something. -/
theorem IsWord.head_ne {ch d : Char} {more : List Char} (h : IsWord (ch :: more))
    (hd : d.isAlphanum = false) : ch ≠ d := by
  rintro rfl
  have hfirst : ch.isAlphanum := h.1
  simp [hd] at hfirst

/-- A word may be written without quotes outside brackets as well. -/
theorem IsWord.isPlain (h : IsWord cs) : IsPlain cs := by
  have hparts := h.parts
  cases cs with
  | nil => simp [IsWord] at h
  | cons ch more =>
    -- the first character is a letter or a digit, so it is none of the marks
    have hne := fun d hd => h.head_ne (d := d) hd
    refine ⟨List.cons_ne_nil _ _, fun d hd => ⟨isPrintable_of_isWordPart (hparts d hd),
      isBreak_of_isWordPart (hparts d hd)⟩, ?_, ?_, hasInnerMark_of_isWordPart hparts, ?_, ?_⟩
    · unfold Style.startsLikeMarker
      split
      · next heq => exact absurd (List.cons.inj heq).1 (hne '-' (by decide))
      · next heq => exact absurd (List.cons.inj heq).1 (hne '.' (by decide))
      · rfl
    · -- none of the characters that stand for something is a letter or a digit
      have hmarks : (",[]\x7b\x7d#&*!|>'\"%@`".toList).contains ch = false := by
        rw [Bool.eq_false_iff]
        intro hmem
        have hall : (",[]\x7b\x7d#&*!|>'\"%@`".toList).all (!·.isAlphanum) = true := by decide
        have hch := List.all_eq_true.1 hall ch (List.contains_iff_mem.1 hmem)
        exact hne ch (by simpa using hch) rfl
      rw [Style.hasFirstMark, hmarks]
      simp [hne '?' (by decide), hne ':' (by decide), hne '-' (by decide)]
    · simpa using hne ' ' (by decide)
    · intro hlast
      have hpart := hparts ' ' (List.mem_of_getLast? hlast)
      exact absurd hpart (by decide)

namespace Plain

variable {c : Cursor}

/-- A character of a word belongs to the scalar, within brackets too. -/
theorem read_wordPart {ch : Char} {more : List Char} (hc : c.rest = ch :: more)
    (hch : isWordPart ch) :
    read true level c = (read true level c.skip).map fun (text, final) => (ch :: text, final) := by
  have hne := fun d hd => ne_of_isWordPart (d := d) hch hd
  have hblank : isBlank ch = false := by simp [isBlank, hne ' ' (by decide), hne '\t' (by decide)]
  have hbreak := isBreak_of_isWordPart hch
  have hcolon := hne ':' (by decide)
  -- of all that could end a scalar in brackets, or make it unclear, nothing is part of a word
  have hunclear : isUnclear true (ch :: more) = false := by
    unfold isUnclear
    split
    · next heq => exact absurd (List.cons.inj heq).1 hcolon
    · rfl
  have hstops : stops true (ch :: more) = false := by
    unfold stops
    split
    · next heq => simp at heq
    · next heq => exact absurd (List.cons.inj heq).1 hcolon
    · next ch' rest _ heq =>
      obtain ⟨rfl, rfl⟩ := List.cons.inj heq
      simp [isFlowIndicator, hne ',' (by decide), hne '[' (by decide), hne ']' (by decide),
        hne '\x7b' (by decide), hne '\x7d' (by decide)]
  rw [read.eq_def]
  split
  · next hn => simp [hn] at hc
  · next ch' more' hch' =>
    obtain ⟨rfl, rfl⟩ := List.cons.inj (hch'.symm.trans hc)
    rw [dif_neg (by simp [hblank, hbreak]), hch', if_neg (by simp [hunclear]),
      if_neg (by simp [hstops])]
    cases read true level c.skip <;> rfl

/-- A scalar ends where the punctuation goes on. -/
theorem read_closes (hc : c.rest = tail) (htail : Closes tail) :
    read true level c = some ([], c, false) := by
  rw [read.eq_def]
  split
  · rfl
  · next ch more hch =>
    rw [← hc, hch] at htail
    cases htail <;> simp [hch, isBlank, isBreak, isUnclear, stops, isFlowIndicator, startsBlank]

/-- A word is read up to the punctuation after it. -/
theorem read_word (hcs : ∀ ch ∈ cs, isWordPart ch) (htail : Closes tail)
    (hc : c.rest = cs ++ tail) : read true level c = some (cs, c.past cs, false) := by
  induction cs generalizing c with
  | nil => exact read_closes hc htail
  | cons ch cs ih =>
    obtain ⟨hch, hcs⟩ := List.forall_mem_cons.1 hcs
    rw [read_wordPart hc hch, Cursor.skip_eq_past (isBreak_of_isWordPart hch),
      ih hcs (Cursor.rest_past_singleton hc)]
    rfl

end Plain

/-! ## Scalars on one line -/

/-- A scalar on one line: a word, or a text between quotes. -/
inductive InlineScalar where
  | word (text : String) (isWord : IsWord text.toList)
  | quoted (quotes : Quotes) (text : String) (shows : quotes.Shows text.toList)
    (line : text.toList.any isBreak = false)

namespace InlineScalar

def text : InlineScalar → String
  | word text _ => text
  | quoted _ text _ _ => text

def style : InlineScalar → ScalarStyle
  | word .. => .plain
  | quoted q .. => q.style

def written : InlineScalar → List Char
  | word text _ => text.toList
  | quoted q text _ _ => q.write 1 text.toList

/-- The token of a scalar. -/
def token (i : InlineScalar) : Token := .scalar i.text i.style

/-- Everything that is written for a scalar on one line can be shown there. -/
theorem shown (i : InlineScalar) : ∀ ch ∈ i.written, isPrintable ch ∧ isBreak ch = false := by
  intro ch hch
  cases i with
  | word text h =>
    exact ⟨isPrintable_of_isWordPart (h.parts ch hch), isBreak_of_isWordPart (h.parts ch hch)⟩
  | quoted q text hshows hany =>
    have hline : ∀ ch ∈ text.toList, isBreak ch = false := by simpa using hany
    exact ⟨Quotes.isPrintable_write hshows ch hch, (q.write_line hline).1 ch hch⟩

/-- A scalar on one line starts with something that is no blank and no comment. -/
theorem exists_lead (i : InlineScalar) : ∃ d more, i.written = d :: more ∧ isLead d := by
  cases i with
  | word text h =>
    obtain ⟨d, more, hd⟩ := List.exists_cons_of_ne_nil h.isPlain.ne_nil
    have hlead := h.isPlain.leads []
    rw [hd] at hlead
    exact ⟨d, more, hd, hlead⟩
  | quoted q text _ _ => exact ⟨q.mark, _, rfl, q.isLead_mark⟩

/-- A scalar on one line after a key or a hyphen. -/
theorem readsAs (i : InlineScalar) (level : Nat) :
    ReadsAs level i.written fun _ => [i.token] := by
  -- a word is plain, and a quoted text has no breaks, so its indentation does not matter
  cases i with
  | word text h =>
    have hread := readsAs_word level h.isPlain
    rw [String.ofList_toList] at hread
    exact hread
  | quoted q text hshows hany =>
    have hline : ∀ ch ∈ text.toList, isBreak ch = false := by simpa using hany
    have hread := readsAs_quoted level hshows hline
    rw [q.write_eq_of_line hline (level + 1) 1, String.ofList_toList] at hread
    exact hread

end InlineScalar

namespace Layout

variable {s : Layout} {c : Cursor} {b : Brackets} {text : List Char}

/-! ## States with brackets open -/

/-- What is pending here need not be a key, and stands on this line or before it. -/
def IsOptional (c : Cursor) (key : Option PendingKey) : Prop :=
  ∀ p ∈ key, p.required = false ∧ p.line ≤ c.line

/-- On a later line it is still optional. -/
theorem IsOptional.mono {c' : Cursor} {key : Option PendingKey} (h : IsOptional c key)
    (hline : c.line ≤ c'.line) : IsOptional c' key :=
  fun p hp => ⟨(h p hp).1, Nat.le_trans (h p hp).2 hline⟩

/-- What is optional is kept or forgotten, and never missed. -/
theorem IsOptional.refresh {key : Option PendingKey} (h : IsOptional c key) :
    ∃ key', refreshKey c key = some key' ∧ IsOptional c key' := by
  cases key with
  | none => exact ⟨none, rfl, h⟩
  | some p =>
    have hrequired := (h p rfl).1
    by_cases hstale : isStale c p = true
    · exact ⟨none, by simp [refreshKey, hstale, hrequired], by simp [IsOptional]⟩
    · exact ⟨some p, by simp [refreshKey, hstale], h⟩

/-- So it is with everything that is remembered before the open brackets. -/
theorem IsOptional.mapM_refresh {keys : List (Option PendingKey)}
    (h : ∀ key ∈ keys, IsOptional c key) :
    ∃ keys', keys.mapM (refreshKey c) = some keys' ∧ keys'.length = keys.length ∧
      ∀ key ∈ keys', IsOptional c key := by
  induction keys with
  | nil => exact ⟨[], rfl, rfl, by simp⟩
  | cons key keys ih =>
    obtain ⟨hkey, hkeys⟩ := List.forall_mem_cons.1 h
    -- the keys of the outer brackets are refreshed one by one, from the inside
    obtain ⟨key', hrefresh, hkey'⟩ := hkey.refresh
    obtain ⟨keys', hmapM, hlength, hkeys'⟩ := ih hkeys
    refine ⟨key' :: keys', ?_, by simp [hlength], List.forall_mem_cons.2 ⟨hkey', hkeys'⟩⟩
    simp [List.mapM_cons, hrefresh, hmapM]

/-- What starts within brackets, or deeper than the surroundings, need not be a key. -/
theorem isOptional_savedKey (h : s.inFlow = true ∨ s.level ≤ s.cursor.column) :
    IsOptional s.cursor s.savedKey := by
  rcases h with h | h
  · unfold savedKey
    split <;> simp [IsOptional, h]
  · exact fun p hp => ⟨(savedKey_of_deep h p hp).1, Nat.le_of_eq (savedKey_of_deep h p hp).2⟩

/-- The text goes on inside some open brackets. Nothing that is pending has to be a key. -/
structure Inside (s : Layout) (depth : Nat) (text : List Char) (tokens : List Token) (level : Nat)
    (outer : List Nat) : Prop where
  rest : s.cursor.rest = text
  tokens_eq : s.tokens = tokens
  level_eq : s.level = level
  outer_eq : s.outer = outer
  depth_eq : s.outerKeys.length = depth
  outerKeys : ∀ key ∈ s.outerKeys, IsOptional s.cursor key
  key : IsOptional s.cursor s.key

namespace Inside

/-- A bracket is open. -/
theorem outerKeys_ne (h : Inside s (depth + 1) text tokens level outer) : s.outerKeys ≠ [] :=
  List.ne_nil_of_length_eq_add_one h.depth_eq

/-- The rules for brackets apply. -/
theorem inFlow (h : Inside s (depth + 1) text tokens level outer) : s.inFlow = true := by
  simp [Layout.inFlow, h.outerKeys_ne]

/-- What is pending may be dropped. -/
theorem dropKey (h : Inside s depth text tokens level outer) :
    s.dropKey = some { s with key := none } := by
  rw [Layout.dropKey, if_neg]
  cases hkey : s.key with
  | none => simp
  | some p => simp [(h.key p hkey).1]

/-- Within brackets the next token stands after some spaces, and collections by indentation are not
ended. -/
theorem advance (h : Inside s (depth + 1) (spaces m ++ text) tokens level outer)
    (htext : Leads text) :
    ∃ next, s.advance = some next ∧ Inside next (depth + 1) text tokens level outer ∧
      next.cursor = s.cursor.past (spaces m) ∧ next.keyAllowed = s.keyAllowed ∧
      refreshKey next.cursor s.key = some next.key := by
  -- the spaces lead to the text, and no key is lost on the way
  have hplace : nextPlace s.inFlow s.keyAllowed s.cursor = _ := nextPlace_spaces h.rest htext
  have hline := Cursor.line_le_past s.cursor (spaces m)
  obtain ⟨key, hkey, hoptional⟩ := (h.key.mono hline).refresh
  obtain ⟨keys, hkeys, hlength, hoptionals⟩ :=
    IsOptional.mapM_refresh fun key hkey => (h.outerKeys key hkey).mono hline
  refine ⟨{ s with cursor := s.cursor.past (spaces m), key, outerKeys := keys }, ?_,
    ⟨Cursor.rest_past h.rest, h.tokens_eq, h.level_eq, h.outer_eq, hlength.trans h.depth_eq,
      hoptionals, hoptional⟩, rfl, rfl, hkey⟩
  -- within brackets no indentation is closed
  have hflow : keys ≠ [] :=
    List.ne_nil_of_length_eq_add_one (hlength.trans h.depth_eq)
  simp only [Layout.advance, hplace, refreshKeys, hkey, hkeys, Option.bind_eq_bind,
    Option.bind_some]
  simp [dedent, Layout.inFlow, hflow]

/-- If no key is pending before the spaces, none is after them. -/
theorem advance_of_key_eq_none (h : Inside s (depth + 1) (spaces m ++ text) tokens level outer)
    (htext : Leads text) (hkey : s.key = none) :
    ∃ next, s.advance = some next ∧ Inside next (depth + 1) text tokens level outer ∧
      next.keyAllowed = s.keyAllowed ∧ next.key = none := by
  obtain ⟨next, hadvance, hnext, -, hallowed, hrefresh⟩ := h.advance htext
  rw [hkey] at hrefresh
  exact ⟨next, hadvance, hnext, hallowed, (Option.some.inj hrefresh).symm⟩

/-- A mark of one character that leaves the brackets as they are. -/
theorem run_mark {ch : Char} (h : Inside s (depth + 1) (ch :: text) tokens level outer)
    (hch : isLead ch) (t : Token) (keyAllowed : Bool) (marked : List Token)
    (htake : ∀ next, Inside next (depth + 1) (ch :: text) tokens level outer →
      refreshKey next.cursor s.key = some next.key → next.cursor = s.cursor →
      next.take = some { next.mark t 1 keyAllowed with tokens := marked, key := none }) :
    ∃ s' : Layout, s.run = s'.run ∧ Inside s' (depth + 1) text marked level outer ∧
      s'.key = none ∧ s'.keyAllowed = keyAllowed := by
  obtain ⟨next, hadvance, hnext, hcursor, -, hkey⟩ := h.advance (m := 0) hch
  rw [spaces_zero, Cursor.past_nil] at hcursor
  -- a mark is one character, and no key is pending behind it
  have hrest : (next.cursor.skipMany 1).rest = text := by simp [Cursor.skipMany, hnext.rest]
  refine ⟨_, run_of_take hadvance (htake next hnext hkey hcursor) ?_, ⟨hrest, rfl, hnext.level_eq,
    hnext.outer_eq, hnext.depth_eq, hnext.outerKeys, by simp [IsOptional]⟩, rfl, rfl⟩
  simp [mark, hrest, h.rest]

/-- A comma separates two parts, after which a key may start. -/
theorem run_comma (h : Inside s (depth + 1) (',' :: text) tokens level outer) :
    ∃ s' : Layout, s.run = s'.run ∧ Inside s' (depth + 1) text (.flowEntry :: tokens) level outer ∧
      s'.key = none ∧ s'.keyAllowed = true := by
  refine h.run_mark (by decide) .flowEntry true (.flowEntry :: tokens) fun next hnext _ _ => ?_
  simp [take, hnext.rest, Cursor.atMarker, hnext.dropKey, mark, push, hnext.tokens_eq]

/-- The colon after a key that is still remembered. The token that announces the key is put before
it. -/
theorem run_colon {p : PendingKey} {t : Token}
    (h : Inside s (depth + 1) (':' :: text) (t :: tokens) level outer) (hkey : s.key = some p)
    (hplace : p.place = tokens.length) (hfresh : isStale s.cursor p = false) :
    ∃ s' : Layout, s.run = s'.run ∧
      Inside s' (depth + 1) text (.value :: t :: .key :: tokens) level outer ∧ s'.key = none := by
  obtain ⟨s', hrun, hinside, hnone, -⟩ := h.run_mark (by decide) .value false
    (.value :: t :: .key :: tokens) fun next hnext hrefresh hcursor => by
      rw [hkey, refreshKey, hcursor, hfresh] at hrefresh
      -- the key that stands before the colon is still pending
      have hpending : next.key = some p := (Option.some.inj hrefresh).symm
      have hcolon : next.take = next.colon := by
        simp [take, hnext.rest, Cursor.atMarker, hnext.inFlow]
      simp only [hcolon, colon, hpending, hplace, insert_cons .key hnext.tokens_eq]
      simp [indent, Layout.inFlow, hnext.outerKeys_ne, mark, push]
  exact ⟨s', hrun, hinside, hnone⟩

/-- An opening bracket. -/
theorem take_open (h : Inside s depth (b.first :: text) tokens level outer) (hkey : s.key = none)
    (hdeep : s.inFlow = true ∨ s.level ≤ s.cursor.column) :
    ∃ after, s.take = some after ∧ Inside after (depth + 1) text (b.start :: tokens) level outer ∧
      after.key = none ∧ after.keyAllowed = true := by
  have htake : s.take = s.openFlow b.start := by
    cases b <;> simp [take, h.rest, Brackets.first, Brackets.start, Cursor.atMarker]
  -- the key that is pending outside is kept until the brackets are closed
  have hopen : s.openFlow b.start = some { s.mark b.start 1 true with
      key := none, outerKeys := s.savedKey :: s.outerKeys } := by
    simp [openFlow, saveKey_eq hkey, mark, push]
  refine ⟨_, htake.trans hopen, ⟨?_, ?_, h.level_eq, h.outer_eq, ?_, ?_, ?_⟩, rfl, rfl⟩
  · simp [mark, Cursor.skipMany, h.rest]
  · simp [mark, push, h.tokens_eq]
  · simp [h.depth_eq]
  · exact List.forall_mem_cons.2 ⟨isOptional_savedKey hdeep, h.outerKeys⟩
  · simp [mark, push, IsOptional]

/-- A closing bracket. What was pending before the opening one is pending again. -/
theorem run_close (h : Inside s (depth + 1) (b.last :: text) tokens level outer) :
    ∃ s' : Layout, s.run = s'.run ∧ Inside s' depth text (b.stop :: tokens) level outer := by
  obtain ⟨next, hadvance, hnext, -, -, -⟩ := h.advance (m := 0) b.isLead_last
  obtain ⟨key, keys, hkeys⟩ := List.exists_cons_of_length_eq_add_one hnext.depth_eq
  have htake : next.take = next.closeFlow b.stop := by
    cases b <;> simp [take, hnext.rest, Brackets.last, Brackets.stop, Cursor.atMarker]
  have hclose : next.closeFlow b.stop
      = some { next.mark b.stop 1 false with key, outerKeys := keys } := by
    simp [closeFlow, hnext.dropKey, hkeys, mark, push]
  have hrest : (next.cursor.skipMany 1).rest = text := by simp [Cursor.skipMany, hnext.rest]
  have hlength := hnext.depth_eq
  have houter := hnext.outerKeys
  -- the key that was pending outside is pending again
  rw [hkeys] at hlength houter
  refine ⟨_, run_of_take hadvance (htake.trans hclose) ?_, ⟨hrest, ?_, hnext.level_eq,
    hnext.outer_eq, Nat.succ.inj hlength, (List.forall_mem_cons.1 houter).2,
    (List.forall_mem_cons.1 houter).1⟩⟩
  · simp [mark, hrest, h.rest]
  · simp [mark, push, hnext.tokens_eq]

end Inside

/-! ## Scalars within brackets -/

/-- A scalar on one line is taken up to what closes it. -/
theorem take_inline (i : InlineScalar) (hflow : s.inFlow = true) (hkey : s.key = none)
    (htail : Closes tail) (hc : s.cursor.rest = i.written ++ tail) :
    s.take = some (s.afterScalar i.text.toList i.style i.written false) := by
  cases i with
  | quoted q text hshows hline =>
    refine take_quoted hshows Nat.one_pos hkey hc ?_
    cases htail <;> simp
  | word text h =>
    simp only [InlineScalar.written, InlineScalar.text, InlineScalar.style] at hc ⊢
    have hpart : s.part (plain s.inFlow s.level)
        = some (s.afterScalar text.toList .plain text.toList false) := by
      refine part_eq hkey ?_
      rw [plain, hflow, Plain.read_word h.parts htail hc]
      rfl
    rw [← hpart]
    cases hword : text.toList with
    | nil => exact absurd hword h.isPlain.ne_nil
    | cons ch more =>
      rw [hword] at hc h
      have hplain := h.isPlain
      -- the word starts with a letter or a digit, to which no other rule applies
      have hne := fun d hd => h.head_ne (d := d) hd
      have hmarker : s.cursor.atMarker = false := by
        unfold Cursor.atMarker
        split
        · next heq => exact absurd (List.cons.inj (hc.symm.trans heq)).1 (hne '-' (by decide))
        · next heq => exact absurd (List.cons.inj (hc.symm.trans heq)).1 (hne '.' (by decide))
        · simp
      refine take_eq_part hc (fun d hd => hplain.head_ne hd) hmarker (by simp [hne '-' (by decide)])
        (by simp [hne '?' (by decide)]) (by simp [hne ':' (by decide)]) ?_
      have hlead := hplain.leads tail
      unfold Plain.starts
      split
      · next heq => simp at heq
      · next heq => exact absurd (List.cons.inj heq).1 (hne '-' (by decide))
      · next heq => exact absurd (List.cons.inj heq).1 (hne '?' (by decide))
      · next heq => exact absurd (List.cons.inj heq).1 (hne ':' (by decide))
      · next heq =>
        obtain ⟨rfl, -⟩ := List.cons.inj heq
        simp [isBlank_of_isLead hlead, isBreak_of_isLead hlead, hplain.isIndicator_head]

namespace Inside

/-- A scalar within brackets. It may be a key if one is allowed where it stands. -/
theorem run_inline (i : InlineScalar)
    (h : Inside s (depth + 1) (spaces m ++ (i.written ++ tail)) before level outer)
    (hkey : s.key = none) (htail : Closes tail) :
    ∃ s' : Layout, s.run = s'.run ∧ Inside s' (depth + 1) tail (i.token :: before) level outer ∧
      (s.keyAllowed = true → ∃ p, s'.key = some p ∧ p.place = before.length ∧
        p.line = s'.cursor.line ∧ s'.cursor.index = p.index + i.written.length) := by
  obtain ⟨d, more, hd, hlead⟩ := i.exists_lead
  obtain ⟨next, hadvance, hnext, hallowed, hnone⟩ :=
    h.advance_of_key_eq_none (show Leads (i.written ++ tail) by rw [hd]; exact hlead) hkey
  have htake := take_inline i hnext.inFlow hnone htail hnext.rest
  have hpast := Cursor.past_eq_skipMany (fun ch hch => (i.shown ch hch).2) next.cursor
  -- a scalar on one line leaves the line as it is
  have hline : next.cursor.line = (next.cursor.past i.written).line := by
    simp [hpast, Cursor.skipMany]
  have hrest := Cursor.rest_past hnext.rest
  refine ⟨_, run_of_take hadvance htake ?_, ⟨hrest, ?_, hnext.level_eq, hnext.outer_eq,
    hnext.depth_eq, fun key hkey => ?_, ?_⟩, fun hkeyAllowed => ?_⟩
  · rw [afterScalar, hrest, h.rest, hd]
    simp only [List.length_append, List.length_cons]
    omega
  · simp [afterScalar, hnext.tokens_eq, InlineScalar.token, String.ofList_toList]
  · exact (hnext.outerKeys key hkey).mono (Nat.le_of_eq hline)
  · exact (isOptional_savedKey (.inl hnext.inFlow)).mono (Nat.le_of_eq hline)
  · -- where a key may stand, the scalar may be one
    rw [← hallowed] at hkeyAllowed
    refine ⟨_, by rw [afterScalar, savedKey, if_pos hkeyAllowed], ?_, hline, ?_⟩
    · simp [hnext.tokens_eq]
    · simp [afterScalar, hpast, Cursor.skipMany]

end Inside

end Layout

/-! ## Values and entries -/

open Layout

/-- How a value within brackets is cut into tokens, or an entry, which may only stand where a key
may. -/
structure Inner (isEntry : Bool) (written : List Char) (tokens : List Token) : Prop where
  shown : ∀ ch ∈ written, isPrintable ch ∧ isBreak ch = false
  lead : ∃ d more, written = d :: more ∧ isLead d
  run : ∀ (s : Layout) (m depth level : Nat) (tail : List Char) before outer, Closes tail →
    (isEntry = true → s.keyAllowed = true) → s.key = none →
    Inside s (depth + 1) (spaces m ++ (written ++ tail)) before level outer →
    ∃ s' : Layout, s.run = s'.run ∧
      Inside s' (depth + 1) tail (tokens.reverse ++ before) level outer

/-- A value may stand where an entry may. -/
theorem Inner.entry {written : List Char} (h : Inner false written tokens) :
    Inner true written tokens :=
  ⟨h.shown, h.lead, fun s m depth level tail before outer htail _ =>
    h.run s m depth level tail before outer htail (by simp)⟩

/-- A scalar is a value. -/
theorem inner_inline (i : InlineScalar) : Inner false i.written [i.token] := by
  refine ⟨i.shown, i.exists_lead, fun s m depth level tail before outer htail _ hkey h => ?_⟩
  obtain ⟨s', hrun, hinside, -⟩ := h.run_inline i hkey htail
  exact ⟨s', hrun, hinside⟩

/-- An entry: a key that is not too long, a colon and a value. -/
theorem inner_pair {i : InlineScalar} {written : List Char} (hi : i.written.length ≤ 1024)
    (h : Inner false written tokens) :
    Inner true (i.written ++ ':' :: ' ' :: written) (.key :: i.token :: .value :: tokens) := by
  obtain ⟨d, more, hd, hlead⟩ := i.exists_lead
  refine ⟨?_, ⟨d, _, by rw [hd, List.cons_append], hlead⟩,
    fun s m depth level tail before outer htail hallowed hkey hinside => ?_⟩
  · simp only [List.forall_mem_append, List.forall_mem_cons]
    exact ⟨i.shown, by decide, by decide, h.shown⟩
  · rw [List.append_assoc, List.cons_append, List.cons_append] at hinside
    obtain ⟨s₁, hrun₁, h₁, hpending⟩ := hinside.run_inline i hkey (.colon _)
    obtain ⟨p, hp, hplace, hline, hindex⟩ := hpending (hallowed rfl)
    -- the key is short enough that the colon still belongs to it
    have hfresh : isStale s₁.cursor p = false := by
      simp [isStale, hline, hindex]
      omega
    obtain ⟨s₂, hrun₂, h₂, hnone⟩ := h₁.run_colon hp hplace hfresh
    obtain ⟨s₃, hrun₃, h₃⟩ := h.run s₂ 1 depth level tail _ outer htail (by simp) hnone h₂
    exact ⟨s₃, hrun₁.trans (hrun₂.trans hrun₃), by simpa using h₃⟩

/-! ## Collections in brackets -/

namespace Brackets

/-- Written parts in brackets, with commas between them. -/
def write (b : Brackets) (parts : List (List Char)) : List Char :=
  b.first :: List.intercalate [',', ' '] parts ++ [b.last]

/-- The tokens of parts in brackets. -/
def cut (b : Brackets) (parts : List (List Token)) : List Token :=
  b.start :: List.intercalate [.flowEntry] parts ++ [b.stop]

end Brackets

variable {α : Type} {parts : List α} {write : α → List Char} {cut : α → List Token} {b : Brackets}

/-- Parts with commas between them are taken one after the other, up to what closes them. -/
theorem Layout.Inside.run_parts {s : Layout} {first : α} {more : List α}
    (hparts : ∀ part ∈ first :: more, Inner true (write part) (cut part))
    (h : Inside s (depth + 1) (spaces m ++ (List.intercalate [',', ' '] ((first :: more).map write)
      ++ tail)) before level outer)
    (hkey : s.key = none) (hallowed : s.keyAllowed = true) (htail : Closes tail) :
    ∃ s' : Layout, s.run = s'.run ∧ Inside s' (depth + 1) tail
      ((List.intercalate [.flowEntry] ((first :: more).map cut)).reverse ++ before) level
      outer := by
  induction more generalizing first s m before with
  | nil =>
    have hfirst := hparts first List.mem_cons_self
    rw [List.map_singleton, List.intercalate_singleton] at h ⊢
    exact hfirst.run s m depth level tail before outer htail (fun _ => hallowed) hkey h
  | cons next more ih =>
    obtain ⟨hfirst, hmore⟩ := List.forall_mem_cons.1 hparts
    simp only [List.map_cons, List.intercalate_cons_cons, List.append_assoc, List.cons_append,
      List.nil_append] at h ih ⊢
    obtain ⟨s₁, hrun₁, h₁⟩ := hfirst.run s m depth level _ before outer (.comma _)
      (fun _ => hallowed) hkey h
    obtain ⟨s₂, hrun₂, h₂, hkey₂, hallowed₂⟩ := h₁.run_comma
    -- after the comma a space leads to the next part
    obtain ⟨s₃, hrun₃, h₃⟩ := ih (m := 1) hmore h₂ hkey₂ hallowed₂
    exact ⟨s₃, hrun₁.trans (hrun₂.trans hrun₃), by simpa using h₃⟩

/-- Parts in brackets stand on one line. -/
theorem shown_brackets (hparts : ∀ part ∈ parts, Inner true (write part) (cut part)) :
    ∀ ch ∈ b.write (parts.map write), isPrintable ch ∧ isBreak ch = false := by
  -- between two parts there are a comma and a space
  have hbetween : ∀ ch ∈ List.intercalate [',', ' '] (parts.map write),
      isPrintable ch ∧ isBreak ch = false := by
    induction parts with
    | nil => simp
    | cons first more ih =>
      obtain ⟨hfirst, hmore⟩ := List.forall_mem_cons.1 hparts
      cases more with
      | nil => simpa using hfirst.shown
      | cons next more =>
        rw [List.map_cons, List.map_cons, List.intercalate_cons_cons, ← List.map_cons]
        simp only [List.forall_mem_append, List.forall_mem_cons]
        exact ⟨⟨hfirst.shown, by decide, by decide, by simp⟩, ih hmore⟩
  have hfirst := b.isLead_first
  have hlast := b.isLead_last
  simp only [Brackets.write, List.forall_mem_append, List.forall_mem_cons]
  exact ⟨⟨⟨isPrintable_of_isLead hfirst, isBreak_of_isLead hfirst⟩, hbetween⟩,
    ⟨isPrintable_of_isLead hlast, isBreak_of_isLead hlast⟩, by simp⟩

/-- From the opening bracket on, the parts are taken and the bracket is closed. -/
theorem take_brackets {s : Layout} (hparts : ∀ part ∈ parts, Inner true (write part) (cut part))
    (h : Inside s depth (b.write (parts.map write) ++ tail) before level outer)
    (hkey : s.key = none) (hdeep : s.inFlow = true ∨ s.level ≤ s.cursor.column) :
    ∃ after, s.take = some after ∧ after.cursor.rest.length < s.cursor.rest.length ∧
      ∃ s' : Layout, after.run = s'.run ∧
        Inside s' depth tail ((b.cut (parts.map cut)).reverse ++ before) level outer := by
  have htext : b.write (parts.map write) ++ tail
      = b.first :: (List.intercalate [',', ' '] (parts.map write) ++ b.last :: tail) := by
    simp [Brackets.write]
  rw [htext] at h
  obtain ⟨after, htake, hafter, hnone, hallowed⟩ := h.take_open hkey hdeep
  refine ⟨after, htake, by simp [hafter.rest, h.rest], ?_⟩
  -- the brackets are closed at once, or the parts come first
  cases parts with
  | nil =>
    obtain ⟨s', hrun, hinside⟩ := Inside.run_close (by simpa using hafter)
    exact ⟨s', hrun, by simpa [Brackets.cut] using hinside⟩
  | cons first more =>
    obtain ⟨s₁, hrun₁, h₁⟩ :=
      Inside.run_parts (m := 0) hparts hafter hnone hallowed (b.closes_last tail)
    obtain ⟨s₂, hrun₂, h₂⟩ := h₁.run_close
    exact ⟨s₂, hrun₁.trans hrun₂, by simpa [Brackets.cut] using h₂⟩

/-- A collection in brackets is a value within brackets. -/
theorem inner_brackets (hparts : ∀ part ∈ parts, Inner true (write part) (cut part)) :
    Inner false (b.write (parts.map write)) (b.cut (parts.map cut)) := by
  refine ⟨shown_brackets hparts, ⟨b.first, _, rfl, b.isLead_first⟩,
    fun s m depth level tail before outer _ _ hkey h => ?_⟩
  obtain ⟨next, hadvance, hnext, -, hnone⟩ := h.advance_of_key_eq_none b.isLead_first hkey
  obtain ⟨after, htake, hlength, s', hrun, hinside⟩ :=
    take_brackets hparts hnext hnone (.inl hnext.inFlow)
  refine ⟨s', (run_of_take hadvance htake ?_).trans hrun, hinside⟩
  rw [hnext.rest] at hlength
  rw [h.rest, List.length_append]
  omega

/-- A collection in brackets after a key or a hyphen. -/
theorem readsAs_brackets (level : Nat)
    (hparts : ∀ part ∈ parts, Inner true (write part) (cut part)) :
    ReadsAs level (b.write (parts.map write)) fun _ => b.cut (parts.map cut) := by
  have hshown := shown_brackets (b := b) hparts
  refine ⟨fun ch hch => (hshown ch hch).1, fun s k before outer hk h => ?_⟩
  rw [Block.finish_line fun ch hch => (hshown ch hch).2] at h
  have hspace := h.space
  have hadvance := h.advance b.isLead_first
  have hrest := h.rest
  generalize ({ s with cursor := s.cursor.past [' '] } : Layout) = next at hspace hadvance
  -- before the bracket no other one is open, and after it the line ends
  have hinside : Inside next 0 (b.write (parts.map write) ++ '\n' :: k.chars) before level outer :=
    ⟨hspace.rest, hspace.tokens_eq, hspace.level_eq, hspace.outer_eq, by simp [hspace.flow],
      by simp [hspace.flow], by simp [IsOptional, hspace.key]⟩
  obtain ⟨after, htake, hlength, s', hrun, h'⟩ :=
    take_brackets hparts hinside hspace.key (.inr (hspace.level_eq ▸ hspace.deep))
  have hstands := stands_of_lineEnd (k := k) (List.eq_nil_of_length_eq_zero h'.depth_eq) h'.key
    h'.rest
  rw [h'.tokens_eq, h'.level_eq, h'.outer_eq] at hstands
  refine ⟨s', (run_of_take hadvance htake ?_).trans hrun, hstands⟩
  rw [hspace.rest] at hlength
  rw [hrest, List.length_cons]
  exact Nat.lt_succ_of_lt hlength

end Yaml

end ClientMetrics
