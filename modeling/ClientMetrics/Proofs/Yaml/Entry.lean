import ClientMetrics.Proofs.Yaml.Fields

/-!
# Entries with what they stand for

A written entry of a mapping is kept together with the key and the value that it stands for, and
with the proof that it does. So entries can be put in any order, below each other and next to
entries of which nothing is known but their name, and a text is what it looks like: a document of
entries is the mapping of their keys and values, and has the fields of their names.

The same is done for values, which may be of any kind that a file is likely to hold: texts, words,
scalars between quotes, collections in brackets that are nested as deep as one likes, and sequences
below their key.

Key results:
- `Flow.ofInline`, `Flow.ofSequence`, `Flow.ofMapping`: values that may stand within brackets.
- `Entry.ofText`, `Entry.ofWord`, `Entry.ofEntries`: the entries that are written for settings.
- `Entry.ofValue`, `Entry.ofItems`: entries with a value of any kind.
- `Entry.read?_entries`: a document of entries in any order.
- `Entry.fields?_entries`: the fields of a mapping of entries.
- `field_filter`: only the entries of its name matter to a field.
-/

namespace ClientMetrics

namespace Yaml

/-! ## Values -/

/-- A value on one line that may stand within brackets, with the node that it stands for. -/
structure Flow where
  written : List Char
  tokens : List Token
  node : Node
  inner : Inner false written tokens
  reads : ∀ level, ReadsAs level written fun _ => tokens
  yields : Yields tokens node

/-- An entry within brackets. Its key is short enough to be recognised as one. -/
structure FlowEntry where
  key : InlineScalar
  short : key.written.length ≤ 1024
  value : Flow

namespace FlowEntry

/-- The key, a colon and a space, and the value. -/
def written (e : FlowEntry) : List Char := e.key.written ++ ':' :: ' ' :: e.value.written

/-- The tokens of the key and of the value, each with its mark. -/
def tokens (e : FlowEntry) : List Token := .key :: e.key.token :: .value :: e.value.tokens

/-- The key and the value of an entry. -/
def node (e : FlowEntry) : Node × Node := (.scalar {} e.key.text e.key.style, e.value.node)

end FlowEntry

namespace Flow

/-- A word, or a text between quotes. -/
def ofInline (i : InlineScalar) : Flow where
  written := i.written
  tokens := [i.token]
  node := .scalar {} i.text i.style
  inner := inner_inline i
  reads := i.readsAs
  yields := yields_scalar i.text i.style

/-- A sequence in brackets. -/
def ofSequence (items : List Flow) : Flow where
  written := Brackets.square.write (items.map written)
  tokens := Brackets.square.cut (items.map tokens)
  node := .sequence {} (items.map node)
  inner := inner_brackets fun f _ => f.inner.entry
  reads level := readsAs_brackets level fun f _ => f.inner.entry
  yields := yields_square fun f _ => f.yields

/-- A mapping in brackets. -/
def ofMapping (entries : List FlowEntry) : Flow where
  written := Brackets.curly.write (entries.map FlowEntry.written)
  tokens := Brackets.curly.cut (entries.map FlowEntry.tokens)
  node := .mapping {} (entries.map FlowEntry.node)
  inner := inner_brackets fun e _ => inner_pair e.short e.value.inner
  reads level := readsAs_brackets level fun e _ => inner_pair e.short e.value.inner
  yields := yields_curly fun e _ => e.value.yields.fills_entry e.key.text e.key.style

end Flow

/-- A written value at a level, with the node that it stands for. That may depend on the line ends
that follow. -/
structure Value (level : Nat) where
  written : List Char
  node : List Char → Node
  means : Means level written node

namespace Value

/-- A text in its own style. -/
def ofText (n : Nat) (text : String) : Value (n + 1) where
  written := Write.scalar (n + 2) text.toList
  node := textNode text
  means := means_text n text

/-- A number or a word. -/
def ofWord (level : Nat) {word : String} (h : IsPlain word.toList) : Value level where
  written := word.toList
  node _ := wordNode word
  means := means_word level h

/-- A scalar between quotes, or a collection in brackets. -/
def ofFlow (level : Nat) (f : Flow) : Value level where
  written := f.written
  node _ := f.node
  means := ⟨fun _ => f.tokens, f.reads level, fun _ => f.yields⟩

end Value

/-! ## Entries -/

/-- A written entry of a mapping at a column, whose key is a text. Its value may depend on the line
ends that follow. -/
structure Entry (n : Nat) where
  name : String
  key : Node
  value : List Char → Node
  written : List Char
  named : key.text? = some name
  holds : Holds n written fun ends => [(key, value ends)]

namespace Entry

variable {n : Nat} {root : Node}

/-- An entry whose value is a text. -/
def ofText (n : Nat) (name text : String) : Entry n where
  name
  key := keyNode name
  value := textNode text
  written := Write.textEntry n name text
  named := rfl
  holds := holds_text n name text

/-- An entry whose value is a number or a word. -/
def ofWord (n : Nat) (name : String) {word : String} (h : IsPlain word.toList) : Entry n where
  name
  key := keyNode name
  value _ := wordNode word
  written := Write.wordEntry n name word
  named := rfl
  holds := holds_word n name h

/-- An entry whose value is a mapping of entries, which stand below it. -/
def ofEntries (name : String) (hplain : styleOf name.toList = .plain)
    (hsimple : Write.isSimpleKey name.toList) (entries : List (Entry (n + 2))) : Entry n where
  name
  key := keyNode name
  value ends := .mapping {} (beforeEnds (fun e ends => (e.key, e.value ends)) entries ends)
  written := Write.sectionEntry n name (entries.map written)
  named := rfl
  holds := by
    by_cases hne : entries = []
    · subst hne
      exact holds_emptySection n name
    · have hentries := holds_flatten (fun e : Entry (n + 2) => e.holds) hne
      exact holds_section name hplain hsimple (by simpa using hne) hentries

/-- An entry with a value of any kind. -/
def ofValue (name : String) (v : Value (n + 1)) : Entry n where
  name
  key := keyNode name
  value := v.node
  written := Write.entry n name.toList v.written
  named := rfl
  holds := v.means.holds name

/-- An entry whose value is a sequence of values, each with a hyphen on a line below it. -/
def ofItems (name : String) (hsimple : Write.isSimpleKey name.toList)
    (items : List (Value (n + 3))) (hne : items ≠ []) : Entry n where
  name
  key := keyNode name
  value ends := .sequence {} (beforeEnds Value.node items ends)
  written := spaces n ++ Write.scalar (n + 2) name.toList ++ [':', '\n']
    ++ (items.map fun v => itemText (n + 2) v.written).flatten
  named := rfl
  holds := by
    have hitems := holds_flatten (fun v : Value (n + 3) => v.means.holdsItem) hne
    exact hitems.below Adds.sequence name hsimple

@[simp] theorem written_ofText (name text : String) :
    (ofText n name text).written = Write.textEntry n name text := rfl

@[simp] theorem written_ofWord (name : String) {word : String} (h : IsPlain word.toList) :
    (ofWord n name h).written = Write.wordEntry n name word := rfl

@[simp] theorem written_ofEntries (name : String) (hplain : styleOf name.toList = .plain)
    (hsimple : Write.isSimpleKey name.toList) (entries : List (Entry (n + 2))) :
    (ofEntries name hplain hsimple entries).written
      = Write.sectionEntry n name (entries.map written) := rfl

example : (ofValue "a" (.ofFlow 1 (.ofSequence [.ofInline (.word "b" (by decide)),
    .ofMapping [⟨.quoted .double "c" trivial (by decide), by decide, .ofSequence []⟩]])) :
    Entry 0).written = "a: [b, \x7b\"c\": []\x7d]\n".toList := by
  decide

example : (ofItems "a" (by decide) [.ofText 2 "b", .ofFlow 3 (.ofSequence [])] (by decide) :
    Entry 0).written = "a:\n  - b\n  - []\n".toList := by
  decide

/-- The key and the value of an entry, with no line ends after it. -/
def node (e : Entry n) : Node × Node := (e.key, e.value [])

/-- The field that an entry is. -/
def field (e : Entry n) : String × Node := (e.name, e.value [])

/-- Where no line ends follow, it is the mapping of its entries as they are alone. -/
theorem value_ofEntries (name : String) (hplain : styleOf name.toList = .plain)
    (hsimple : Write.isSimpleKey name.toList) (entries : List (Entry (n + 2))) :
    (ofEntries name hplain hsimple entries).value [] = .mapping {} (entries.map node) :=
  congrArg _ (beforeEnds_nil _ entries)

/-- A document of entries is the mapping of their keys and values. -/
theorem read?_entries {entries : List (Entry 0)} (hne : entries ≠ []) :
    Node.read? (.ofList (entries.map written).flatten)
      = some (.mapping {} (entries.map node)) := by
  have hentries := holds_flatten (fun e : Entry 0 => e.holds) hne
  have hread := read?_written hentries (List.forall_mem_nil (· = '\n'))
  rw [List.append_nil, beforeEnds_nil] at hread
  exact hread

/-- The key of an entry is no alias. -/
theorem resolve?_key (e : Entry n) : root.resolve? e.key = some e.key := by
  have hnamed := e.named
  -- of the four kinds only a scalar is a text, and only an alias would be looked up
  cases hkey : e.key with
  | scalar p text style => rfl
  | aliasOf id => simp [hkey, Node.text?] at hnamed
  | sequence p items => simp [hkey, Node.text?] at hnamed
  | mapping p entries => simp [hkey, Node.text?] at hnamed

/-- The fields of a mapping of entries are their names and values. -/
theorem fields?_entries (p : Properties) (entries : List (Entry n)) :
    (Node.mapping p (entries.map node)).fields? root = some (entries.map field) := by
  simp only [Node.fields?, Node.entries?, Option.bind_eq_bind, Option.bind_some]
  -- each entry adds one field, since its key is a text
  induction entries with
  | nil => rfl
  | cons e entries ih =>
    simp only [List.map_cons, List.mapM_cons, node, resolve?_key, Option.bind_eq_bind,
      Option.bind_some, e.named] at ih ⊢
    rw [ih]
    rfl

/-- The texts of a mapping of texts. -/
theorem texts?_ofText (p : Properties) (texts : List (String × String)) :
    (Node.mapping p ((texts.map fun t => ofText n t.1 t.2).map node)).texts? root = some texts := by
  rw [Node.texts?, fields?_entries, Option.bind_eq_bind, Option.bind_some]
  -- each value is a text of its own
  induction texts with
  | nil => rfl
  | cons t texts ih =>
    have htext : Node.text? (textNode t.2 []) = some t.2 := text?_textNode t.2
    have hresolve : root.resolve? (textNode t.2 []) = some (textNode t.2 []) := rfl
    simp only [List.map_cons, List.mapM_cons, field, ofText, hresolve, htext, Option.bind_eq_bind,
      Option.bind_some] at ih ⊢
    rw [ih]
    rfl

/-- The fields of a name are the entries of that name. -/
theorem filter_field (name : String) (entries : List (Entry n)) :
    (entries.map field).filter (·.1 = name) = (entries.filter (·.name = name)).map field :=
  List.filter_map

end Entry

variable {α : Type} {root : Node} {fields : List (String × Node)} {name : String}

/-- Only the entries of its name matter to a field. -/
theorem field_filter (default : α) (read : Node → Option α) :
    field root (fields.filter (·.1 = name)) name default read
      = field root fields name default read := by
  rw [field, field, List.filter_filter]
  simp only [Bool.and_self]

/-- A field that does not occur has its default. -/
theorem field_nil (default : α) (read : Node → Option α) :
    field root [] name default read = some default := rfl

/-- A field that is on its own. -/
theorem field_singleton {n : Node} {default a : α} {read : Node → Option α}
    (hresolve : root.resolve? n = some n) (hread : read n = some a) :
    field root [(name, n)] name default read = some a :=
  field_of_filter (by simp) hresolve hread

end Yaml

end ClientMetrics
