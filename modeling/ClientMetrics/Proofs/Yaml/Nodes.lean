import ClientMetrics.Proofs.Yaml.Brackets
import ClientMetrics.Yaml.Document

/-!
# Putting written entries together

The tokens of a value put one node in the place where one comes next, and those of a part of a
collection add that part to the collection on top of the stack; everything else stays as it is. So a
text of entries stands for the list of their keys and values, a text of items for their nodes, and a
whole document for the mapping of its entries.

Key results:
- `Yields`, `Adds`, `Fills`: what tokens do to the stack, wherever they stand.
- `yields_square`, `yields_curly`: collections in brackets.
- `Means`, `Holds`, `HoldsItems`: what a written value stands for, and which entries or items a
  written text holds.
- `HoldsParts.append`, `holds_flatten`: texts that follow each other.
- `holds_text`, `holds_word`, `holds_section`: the entries of a file of settings.
- `read?_written`: the node of a whole document.
-/

namespace ClientMetrics

namespace Yaml

/-! ## What tokens do to the stack -/

/-- Tokens that are a node, wherever one comes next. -/
def Yields (tokens : List Token) (node : Node) : Prop :=
  ∀ (s : Assembly) top stack, s.stack = top :: stack → top.properties? = some {} →
    tokens.foldlM Assembly.accept s = some { s with stack := top.add node :: stack }

/-- Tokens that are parts of a collection, whose parts so far are kept latest first. -/
def Adds {α : Type} (collection : List α → Unfinished) (tokens : List Token) (parts : List α) :
    Prop :=
  ∀ (s : Assembly) before stack, s.stack = collection before :: stack →
    tokens.foldlM Assembly.accept s
      = some { s with stack := collection (parts.reverse ++ before) :: stack }

/-- A mapping by indentation between two entries. -/
def mappingSoFar (entries : List (Node × Node)) : Unfinished := .blockMapping {} entries .next

/-- A sequence by indentation between two items. -/
def sequenceSoFar (items : List Node) : Unfinished := .blockSequence {} items none

/-- A scalar is a node without more ado. -/
theorem yields_scalar (text : String) (style : ScalarStyle) :
    Yields [.scalar text style] (.scalar {} text style) := by
  intro s top stack hs hproperties
  simp [Assembly.accept, hs, hproperties, place, Assembly.scalarProperties]

/-- Parts that are added one after the other are added in their order. -/
theorem Adds.append {α : Type} {collection : List α → Unfinished} {first second : List Token}
    {parts more : List α} (h : Adds collection first parts) (h' : Adds collection second more) :
    Adds collection (first ++ second) (parts ++ more) := by
  intro s before stack hs
  rw [List.foldlM_append, h s before stack hs, Option.bind_eq_bind, Option.bind_some,
    h' _ _ stack rfl]
  simp

/-- A collection by indentation, if its tokens open it without parts and close it with those that
were added. -/
theorem Adds.yields {α : Type} {start : Token} {collection : List α → Unfinished}
    {node : List α → Node}
    (hopen : ∀ (s : Assembly) top stack, s.stack = top :: stack → top.properties? = some {} →
      s.accept start = some { s with stack := collection [] :: s.stack })
    (hclose : ∀ (s : Assembly) before stack, s.stack = collection before :: stack →
      s.accept .blockEnd = some { s with stack := place (node before.reverse) stack })
    {tokens : List Token} {parts : List α} (h : Adds collection tokens parts) :
    Yields (start :: tokens ++ [.blockEnd]) (node parts) := by
  intro s top stack hs hproperties
  -- between its start and its end only the parts of the collection are on top
  have hinner := h { s with stack := collection [] :: s.stack } _ _ rfl
  rw [List.cons_append, List.foldlM_cons, hopen s top stack hs hproperties, Option.bind_eq_bind,
    Option.bind_some, List.foldlM_append, hinner, Option.bind_eq_bind, Option.bind_some,
    List.foldlM_cons, hclose _ _ s.stack rfl, hs]
  simp [place]

/-- A mapping below its key, or wherever else a node comes next. -/
theorem Adds.mapping {tokens : List Token} {fields : List (Node × Node)}
    (h : Adds mappingSoFar tokens fields) :
    Yields (.blockMappingStart :: tokens ++ [.blockEnd]) (.mapping {} fields) := by
  refine h.yields (fun s top stack hs hproperties => ?_) fun s before stack hs => ?_
  · simp [Assembly.accept, hs, hproperties, mappingSoFar]
  · simp [Assembly.accept, hs, mappingSoFar, Unfinished.properties?, EntryStage.properties?,
      punctuate, Unfinished.node, EntryStage.close]

/-- A sequence by indentation. -/
theorem Adds.sequence {tokens : List Token} {items : List Node}
    (h : Adds sequenceSoFar tokens items) :
    Yields (.blockSequenceStart :: tokens ++ [.blockEnd]) (.sequence {} items) := by
  refine h.yields (fun s top stack hs hproperties => ?_) fun s before stack hs => ?_
  · simp [Assembly.accept, hs, hproperties, sequenceSoFar]
  · simp [Assembly.accept, hs, sequenceSoFar, Unfinished.properties?, punctuate, Unfinished.node,
      Unfinished.closeItem]

/-- A key and its value. -/
theorem Yields.entry {tokens : List Token} {value : Node} (h : Yields tokens value) (text : String)
    (style : ScalarStyle) :
    Adds mappingSoFar (.key :: .scalar text style :: .value :: tokens)
      [(.scalar {} text style, value)] := by
  intro s before stack hs
  -- after the key and the colon, the place of the value is what is on top
  have hkey : [Token.key, .scalar text style, .value].foldlM Assembly.accept s
      = some { s with
          stack := .blockMapping {} before (.value (.scalar {} text style) {}) :: stack } := by
    simp [Assembly.accept, hs, mappingSoFar, Unfinished.properties?, EntryStage.properties?,
      punctuate, EntryStage.punctuate, EntryStage.close, place, Unfinished.add,
      Assembly.scalarProperties]
  have hsplit : Token.key :: .scalar text style :: .value :: tokens
      = [.key, .scalar text style, .value] ++ tokens := rfl
  rw [hsplit, List.foldlM_append, hkey, Option.bind_eq_bind, Option.bind_some, h _ _ _ rfl rfl]
  rfl

/-- A hyphen and an item. -/
theorem Yields.item {tokens : List Token} {node : Node} (h : Yields tokens node) :
    Adds sequenceSoFar (.blockEntry :: tokens) [node] := by
  intro s before stack hs
  have hhyphen : s.accept .blockEntry
      = some { s with stack := .blockSequence {} before (some {}) :: stack } := by
    simp [Assembly.accept, hs, sequenceSoFar, Unfinished.properties?, punctuate,
      Unfinished.closeItem]
  rw [List.foldlM_cons, hhyphen, Option.bind_eq_bind, Option.bind_some, h _ _ _ rfl rfl]
  rfl

/-! ### Within brackets -/

/-- Tokens that are one part within brackets, after which a comma comes. -/
def Fills {α : Type} (collection : List α → FlowStage → Unfinished) (tokens : List Token)
    (part : α) : Prop :=
  ∀ (s : Assembly) before stack, s.stack = collection before (.item {}) :: stack →
    tokens.foldlM Assembly.accept s
      = some { s with stack := collection (part :: before) .comma :: stack }

/-- A value fills the place of an item. -/
theorem Yields.fills {tokens : List Token} {node : Node} (h : Yields tokens node) :
    Fills (.flowSequence {}) tokens node := by
  intro s before stack hs
  rw [h s _ stack hs rfl]
  rfl

/-- A key and its value fill the place of an entry. -/
theorem Yields.fills_entry {tokens : List Token} {value : Node} (h : Yields tokens value)
    (text : String) (style : ScalarStyle) :
    Fills (.flowMapping {}) (.key :: .scalar text style :: .value :: tokens)
      (.scalar {} text style, value) := by
  intro s before stack hs
  -- the entry has its key, and the tokens of the value are still to come
  have hkey : [Token.key, .scalar text style, .value].foldlM Assembly.accept s
      = some { s with stack :=
          .flowMapping {} before (.entry (.value (.scalar {} text style) {})) :: stack } := by
    simp [Assembly.accept, hs, Unfinished.properties?, EntryStage.properties?, punctuate,
      punctuateEntry, EntryStage.punctuate, place, Unfinished.add, Assembly.scalarProperties]
  have hsplit : Token.key :: .scalar text style :: .value :: tokens
      = [.key, .scalar text style, .value] ++ tokens := rfl
  rw [hsplit, List.foldlM_append, hkey, Option.bind_eq_bind, Option.bind_some, h _ _ _ rfl rfl]
  rfl

/-- Parts with commas between them, if a comma makes room for the next one. -/
theorem fills_between {α β : Type} {collection : List α → FlowStage → Unfinished}
    (hcomma : ∀ (s : Assembly) before stack, s.stack = collection before .comma :: stack →
      s.accept .flowEntry = some { s with stack := collection before (.item {}) :: stack })
    {cut : β → List Token} {part : β → α} {first : β} {more : List β}
    (h : ∀ x ∈ first :: more, Fills collection (cut x) (part x)) (s : Assembly) {before : List α}
    {stack : List Unfinished} (hs : s.stack = collection before (.item {}) :: stack) :
    (List.intercalate [.flowEntry] ((first :: more).map cut)).foldlM Assembly.accept s
      = some { s with
          stack := collection (((first :: more).map part).reverse ++ before) .comma :: stack } := by
  induction more generalizing first s before with
  | nil =>
    rw [List.map_singleton, List.intercalate_singleton,
      h first List.mem_cons_self s before stack hs]
    rfl
  | cons next more ih =>
    obtain ⟨hfirst, hmore⟩ := List.forall_mem_cons.1 h
    have hrest (s : Assembly) (before : List α)
        (hs : s.stack = collection before (.item {}) :: stack) := ih hmore s hs
    -- the first part, the comma, which makes room, and then the others
    rw [List.map_cons, List.map_cons, List.intercalate_cons_cons, ← List.map_cons,
      List.append_assoc, List.foldlM_append, hfirst s before stack hs, Option.bind_eq_bind,
      Option.bind_some, List.singleton_append, List.foldlM_cons, hcomma _ _ stack rfl,
      Option.bind_eq_bind, Option.bind_some, hrest _ _ rfl]
    simp

/-- A collection in brackets, if its punctuation opens it, makes room for parts and closes it. -/
theorem yields_brackets {α β : Type} {b : Brackets} (collection : List α → FlowStage → Unfinished)
    {node : List α → Node}
    (hopen : ∀ (s : Assembly) top stack, s.stack = top :: stack → top.properties? = some {} →
      s.accept b.start = some { s with stack := collection [] (.item {}) :: s.stack })
    (hcomma : ∀ (s : Assembly) before stack, s.stack = collection before .comma :: stack →
      s.accept .flowEntry = some { s with stack := collection before (.item {}) :: stack })
    (hclose : ∀ (s : Assembly) before stage stack, stage = .item {} ∨ stage = .comma →
      s.stack = collection before stage :: stack →
      s.accept b.stop = some { s with stack := place (node before.reverse) stack })
    {cut : β → List Token} {part : β → α} {parts : List β}
    (h : ∀ x ∈ parts, Fills collection (cut x) (part x)) :
    Yields (b.cut (parts.map cut)) (node (parts.map part)) := by
  intro s top stack hs hproperties
  rw [Brackets.cut, List.cons_append, List.foldlM_cons, hopen s top stack hs hproperties,
    Option.bind_eq_bind, Option.bind_some, List.foldlM_append]
  -- the closing bracket comes right after the opening one, or after a part
  cases parts with
  | nil =>
    rw [List.map_nil, List.intercalate_nil, List.foldlM_nil, Option.pure_def, Option.bind_eq_bind,
      Option.bind_some, List.foldlM_cons, hclose _ [] (.item {}) s.stack (.inl rfl) rfl, hs]
    rfl
  | cons first more =>
    rw [fills_between hcomma h _ rfl, Option.bind_eq_bind, Option.bind_some, List.foldlM_cons,
      hclose _ _ .comma s.stack (.inr rfl) rfl, hs]
    simp [place]

/-- A sequence in brackets. -/
theorem yields_square {β : Type} {cut : β → List Token} {node : β → Node} {parts : List β}
    (h : ∀ x ∈ parts, Yields (cut x) (node x)) :
    Yields (Brackets.square.cut (parts.map cut)) (.sequence {} (parts.map node)) := by
  -- how the brackets are opened, what a comma does in them, and how they are closed
  refine yields_brackets (.flowSequence {}) ?_ ?_ ?_ fun x hx => (h x hx).fills
  · intro s top stack hs hproperties
    simp [Brackets.start, Assembly.accept, hs, hproperties]
  · intro s before stack hs
    simp [Assembly.accept, hs, Unfinished.properties?, punctuate, punctuateItem, endItem]
  · rintro s before stage stack (rfl | rfl) hs <;>
      simp [Brackets.stop, Assembly.accept, hs, Unfinished.properties?, punctuate, punctuateItem,
        endItem]

/-- A mapping in brackets. -/
theorem yields_curly {β : Type} {cut : β → List Token} {field : β → Node × Node} {parts : List β}
    (h : ∀ x ∈ parts, Fills (.flowMapping {}) (cut x) (field x)) :
    Yields (Brackets.curly.cut (parts.map cut)) (.mapping {} (parts.map field)) := by
  -- how the brackets are opened, what a comma does in them, and how they are closed
  refine yields_brackets (.flowMapping {}) ?_ ?_ ?_ h
  · intro s top stack hs hproperties
    simp [Brackets.start, Assembly.accept, hs, hproperties]
  · intro s before stack hs
    simp [Assembly.accept, hs, Unfinished.properties?, punctuate, punctuateEntry, endEntry]
  · rintro s before stage stack (rfl | rfl) hs <;>
      simp [Brackets.stop, Assembly.accept, hs, Unfinished.properties?, punctuate, punctuateEntry,
        endEntry]

/-! ## Values and entries -/

/-- A written value that stands for a node, which may depend on the line ends that follow. -/
def Means (level : Nat) (written : List Char) (node : List Char → Node) : Prop :=
  ∃ tokens, ReadsAs level written tokens ∧ ∀ ends, Yields (tokens ends) (node ends)

/-- A written text that holds some parts of a collection at a column, of which the last may depend
on the line ends that follow. -/
def HoldsParts {α : Type} (start : Token) (collection : List α → Unfinished) (n : Nat)
    (written : List Char) (parts : List Char → List α) : Prop :=
  ∃ tokens, Scans start n written tokens ∧ ∀ ends, Adds collection (tokens ends) (parts ends)

/-- A written text that holds some entries of a mapping. -/
abbrev Holds (n : Nat) (written : List Char) (fields : List Char → List (Node × Node)) : Prop :=
  HoldsParts .blockMappingStart mappingSoFar n written fields

/-- A written text that holds some items of a sequence. -/
abbrev HoldsItems (n : Nat) (written : List Char) (items : List Char → List Node) : Prop :=
  HoldsParts .blockSequenceStart sequenceSoFar n written items

variable {n : Nat}

/-- A text that is a key. -/
def keyNode (key : String) : Node := .scalar {} key (styleOf key.toList)

/-- A text that is a value. -/
def textNode (text : String) (ends : List Char) : Node :=
  .scalar {} (.ofList (text.toList ++ absorbed text.toList ends)) (styleOf text.toList)

/-- A plain word that is a value. -/
def wordNode (word : String) : Node := .scalar {} word .plain

theorem means_text (n : Nat) (text : String) :
    Means (n + 1) (Write.scalar (n + 2) text.toList) (textNode text) :=
  ⟨_, readsAs_text n text.toList, fun _ => yields_scalar _ _⟩

theorem means_word (level : Nat) {word : String} (h : IsPlain word.toList) :
    Means level word.toList fun _ => wordNode word := by
  refine ⟨_, readsAs_word level h, fun _ => ?_⟩
  rw [String.ofList_toList]
  exact yields_scalar _ _

/-- Braces with nothing in them mean the mapping without entries. -/
theorem means_braces (level : Nat) : Means level ['\x7b', '\x7d'] fun _ => .mapping {} [] := by
  have hreads : ReadsAs level (Brackets.curly.write (([] : List Unit).map fun _ => []))
      fun _ => Brackets.curly.cut (([] : List Unit).map fun _ => []) :=
    readsAs_brackets level (by simp)
  have hyields : Yields (Brackets.curly.cut (([] : List Unit).map fun _ => []))
      (.mapping {} (([] : List Unit).map fun _ => (.empty {}, .empty {}))) :=
    yields_curly (by simp)
  exact ⟨_, hreads, fun _ => hyields⟩

/-- A key before a written value is one entry. -/
theorem Means.holds {value : List Char} {node : List Char → Node} (h : Means (n + 1) value node)
    (key : String) :
    Holds n (Write.entry n key.toList value) fun ends => [(keyNode key, node ends)] := by
  obtain ⟨tokens, hreads, hyields⟩ := h
  refine ⟨_, scans_entry key.toList hreads, fun ends => ?_⟩
  rw [String.ofList_toList]
  exact (hyields ends).entry key _

/-- A hyphen before a written value. -/
def itemText (n : Nat) (value : List Char) : List Char :=
  spaces n ++ '-' :: ' ' :: (value ++ Block.finish value)

/-- A hyphen before a written value is one item. -/
theorem Means.holdsItem {value : List Char} {node : List Char → Node}
    (h : Means (n + 1) value node) : HoldsItems n (itemText n value) fun ends => [node ends] := by
  obtain ⟨tokens, hreads, hyields⟩ := h
  exact ⟨_, scans_item hreads, fun ends => (hyields ends).item⟩

/-- A text below a key is one entry. -/
theorem holds_text (n : Nat) (key text : String) :
    Holds n (Write.textEntry n key text) fun ends => [(keyNode key, textNode text ends)] :=
  (means_text n text).holds key

theorem holds_word (n : Nat) (key : String) {word : String} (h : IsPlain word.toList) :
    Holds n (Write.wordEntry n key word) fun _ => [(keyNode key, wordNode word)] :=
  (means_word (n + 1) h).holds key

/-- Texts that follow each other hold the parts of both. -/
theorem HoldsParts.append {α : Type} {start : Token} {collection : List α → Unfinished}
    {first second : List Char} {parts more : List Char → List α}
    (h : HoldsParts start collection n first parts)
    (h' : HoldsParts start collection n second more) :
    HoldsParts start collection n (first ++ second) fun ends => parts [] ++ more ends := by
  obtain ⟨tokens, hscans, hadds⟩ := h
  obtain ⟨tokens', hscans', hadds'⟩ := h'
  exact ⟨_, hscans.append hscans', fun ends => (hadds []).append (hadds' ends)⟩

/-- A section without entries. -/
theorem holds_emptySection (n : Nat) (name : String) :
    Holds n (Write.sectionEntry n name []) fun _ => [(keyNode name, .mapping {} [])] :=
  (means_braces (n + 1)).holds name

/-- A collection below its key. -/
theorem HoldsParts.below {α : Type} {start : Token} {collection : List α → Unfinished}
    {written : List Char} {parts : List Char → List α} {node : List α → Node}
    (hyields : ∀ {tokens parts}, Adds collection tokens parts →
      Yields (start :: tokens ++ [.blockEnd]) (node parts))
    (h : HoldsParts start collection (n + 2) written parts) (key : String)
    (hsimple : Write.isSimpleKey key.toList) :
    Holds n (spaces n ++ Write.scalar (n + 2) key.toList ++ [':', '\n'] ++ written)
      fun ends => [(keyNode key, node (parts ends))] := by
  obtain ⟨tokens, hscans, hadds⟩ := h
  refine ⟨_, scans_section hsimple hscans, fun ends => ?_⟩
  rw [String.ofList_toList]
  exact (hyields (hadds ends)).entry key _

/-- A section with entries. Its name is a plain word. -/
theorem holds_section {entries : List (List Char)} {fields : List Char → List (Node × Node)}
    (name : String) (hplain : styleOf name.toList = .plain)
    (hsimple : Write.isSimpleKey name.toList) (hne : entries ≠ [])
    (h : Holds (n + 2) entries.flatten fields) :
    Holds n (Write.sectionEntry n name entries)
      fun ends => [(keyNode name, .mapping {} (fields ends))] := by
  obtain ⟨entry, entries, rfl⟩ := List.exists_cons_of_ne_nil hne
  have hbelow := HoldsParts.below Adds.mapping h name hsimple
  have hwritten : Write.scalar (n + 2) name.toList = name.toList := by rw [Write.scalar, hplain]
  rw [hwritten] at hbelow
  exact hbelow

/-- The parts of a list of which only the last meets what follows. -/
def beforeEnds {α β : Type} (f : α → List Char → β) : List α → List Char → List β
  | [], _ => []
  | [a], ends => [f a ends]
  | a :: b :: as, ends => f a [] :: beforeEnds f (b :: as) ends

/-- What is made of the parts is made of each of them, the last one included. -/
theorem map_beforeEnds {α β γ : Type} (f : α → List Char → β) (g : β → γ) (as : List α)
    (ends : List Char) :
    (beforeEnds f as ends).map g = beforeEnds (fun a ends => g (f a ends)) as ends := by
  fun_induction beforeEnds f as ends with
  | case1 => rfl
  | case2 => rfl
  | case3 a b as ends ih => rw [List.map_cons, ih, beforeEnds]

/-- Where the parts do not depend on what follows. -/
theorem beforeEnds_eq_map {α β : Type} {f : α → List Char → β} {g : α → β}
    (hfg : ∀ a ends, f a ends = g a) (as : List α) (ends : List Char) :
    beforeEnds f as ends = as.map g := by
  fun_induction beforeEnds f as ends with
  | case1 => rfl
  | case2 => rw [hfg, List.map_singleton]
  | case3 a b as ends ih =>
    rw [ih, hfg]
    rfl

/-- Where nothing follows, the last part is like the others. -/
theorem beforeEnds_nil {α β : Type} (f : α → List Char → β) (as : List α) :
    beforeEnds f as [] = as.map (f · []) := by
  induction as with
  | nil => rfl
  | cons a as ih =>
    cases as with
    | nil => rfl
    | cons b as =>
      -- only the last part sees the line ends, and there are none
      rw [beforeEnds, ih]
      rfl

/-- What can be read of each part can be read of all of them. -/
theorem mapM_beforeEnds {α β γ : Type} {f : α → List Char → β} {g : β → Option γ}
    {h : α → List Char → γ} (hfg : ∀ a ends, g (f a ends) = some (h a ends)) (as : List α)
    (ends : List Char) : (beforeEnds f as ends).mapM g = some (beforeEnds h as ends) := by
  fun_induction beforeEnds f as ends with
  | case1 => rfl
  | case2 => simp [hfg, beforeEnds]
  | case3 a b as ends ih => simp [hfg, ih, beforeEnds]

/-- Parts that follow each other. -/
theorem holds_flatten {α β : Type} {start : Token} {collection : List β → Unfinished}
    {write : α → List Char} {part : α → List Char → β}
    (h : ∀ a, HoldsParts start collection n (write a) fun ends => [part a ends]) {as : List α}
    (hne : as ≠ []) :
    HoldsParts start collection n (as.map write).flatten (beforeEnds part as) := by
  induction as with
  | nil => exact absurd rfl hne
  | cons a as ih =>
    cases as with
    | nil =>
      rw [List.map_singleton, List.flatten_singleton]
      exact h a
    | cons b as =>
      -- the first part is followed by the others, which are not empty
      rw [List.map_cons, List.flatten_cons]
      exact (h a).append (ih (List.cons_ne_nil b as))

/-! ## The whole document -/

/-- A document that holds entries, and line ends at its end, is the mapping of these entries. -/
theorem read?_written {text ends : List Char} {fields : List Char → List (Node × Node)}
    (h : Holds 0 text fields) (hends : ∀ b ∈ ends, b = '\n') :
    Node.read? (.ofList (text ++ ends)) = some (.mapping {} (fields ends)) := by
  obtain ⟨tokens, hscans, hadds⟩ := h
  have hnode := (hadds ends).mapping {} (.document (.inl {})) [] rfl rfl
  rw [Node.read?, tokens?_written hscans hends, Option.bind_eq_bind, Option.bind_some,
    Node.ofTokens?, List.cons_append]
  simp only [Prologue.ofTokens?, Option.bind_eq_bind, Option.bind_some]
  rw [← List.cons_append, hnode]
  rfl

end Yaml

end ClientMetrics
