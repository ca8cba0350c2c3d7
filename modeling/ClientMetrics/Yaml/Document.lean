import ClientMetrics.Yaml.Layout
import ClientMetrics.Yaml.Node

/-!
# Documents

The nodes of a document are put together from its tokens, one token after the other. Collections
that have begun lie on a stack, the innermost on top, and each knows what may come next. What a
token leaves out, such as the value of a key, is an empty node.

* `accept` — what one token does to the stack;
* `length_place` — a node takes its place in the collection on top.
-/

namespace ClientMetrics

namespace Yaml

/-- What comes next in a mapping. -/
inductive EntryStage where
  /-- Another entry. -/
  | next
  /-- A key, of which the properties may have been read. -/
  | key (p : Properties)
  /-- The value of a key, if it has one. -/
  | colon (key : Node)
  /-- A value, of which the properties may have been read. -/
  | value (key : Node) (p : Properties)

/-- What comes next within brackets. -/
inductive FlowStage where
  /-- An item, of which the properties may have been read. -/
  | item (p : Properties)
  /-- A comma. -/
  | comma
  /-- The rest of an entry that began with a key. -/
  | entry (stage : EntryStage)

/-- A node that has begun. Its parts so far are kept latest first. -/
inductive Unfinished where
  /-- The document, whose node comes next or has been read. -/
  | document (next : Properties ⊕ Node)
  /-- A sequence by indentation, which has or has not an item under way. -/
  | blockSequence (own : Properties) (items : List Node) (item : Option Properties)
  /-- A sequence that is not indented more than the mapping it is in. -/
  | openSequence (own : Properties) (items : List Node) (item : Option Properties)
  | blockMapping (own : Properties) (entries : List (Node × Node)) (stage : EntryStage)
  | flowSequence (own : Properties) (items : List Node) (stage : FlowStage)
  | flowMapping (own : Properties) (entries : List (Node × Node)) (stage : FlowStage)

namespace EntryStage

/-- The entry that has begun, completed by empty nodes. -/
def close : EntryStage → List (Node × Node)
  | next => []
  | key p => [(.empty p, .empty {})]
  | colon k => [(k, .empty {})]
  | value k p => [(k, .empty p)]

/-- The properties of the node that comes next. -/
def properties? : EntryStage → Option Properties
  | key p => some p
  | value _ p => some p
  | _ => none

/-- The same with other properties of the node that comes next. -/
def setProperties (p : Properties) : EntryStage → EntryStage
  | key _ => key p
  | value k _ => value k p
  | stage => stage

end EntryStage

namespace Unfinished

/-- The items of a sequence with the one under way, of which there is only this. -/
def closeItem (items : List Node) : Option Properties → List Node
  | none => items
  | some p => .empty p :: items

/-- The node that is put together here, if this is all of it. -/
def node : Unfinished → Node
  | document (.inl p) => .empty p
  | document (.inr n) => n
  | blockSequence own items item => .sequence own (closeItem items item).reverse
  | openSequence own items item => .sequence own (closeItem items item).reverse
  | blockMapping own entries stage => .mapping own (stage.close ++ entries).reverse
  | flowSequence own items _ => .sequence own items.reverse
  | flowMapping own entries _ => .mapping own entries.reverse

/-- The properties of the node that comes next, if one does. -/
def properties? : Unfinished → Option Properties
  | document (.inl p) => some p
  | blockSequence _ _ item => item
  | openSequence _ _ item => item
  | blockMapping _ _ stage => stage.properties?
  | flowSequence _ _ (.item p) => some p
  | flowSequence _ _ (.entry stage) => stage.properties?
  | flowMapping _ _ (.item p) => some p
  | flowMapping _ _ (.entry stage) => stage.properties?
  | _ => none

/-- The same with other properties of the node that comes next. -/
def setProperties (p : Properties) : Unfinished → Unfinished
  | document (.inl _) => document (.inl p)
  | blockSequence own items (some _) => blockSequence own items (some p)
  | openSequence own items (some _) => openSequence own items (some p)
  | blockMapping own entries stage => blockMapping own entries (stage.setProperties p)
  | flowSequence own items (.item _) => flowSequence own items (.item p)
  | flowSequence own items (.entry stage) => flowSequence own items (.entry (stage.setProperties p))
  | flowMapping own entries (.item _) => flowMapping own entries (.item p)
  | flowMapping own entries (.entry stage) =>
    flowMapping own entries (.entry (stage.setProperties p))
  | u => u

/-- A sequence that is not indented may come next. -/
def allowsOpenSequence : Unfinished → Bool
  | blockMapping .. => true
  | _ => false

/-- A mapping with a single entry, which stands in a sequence. -/
def single (key value : Node) : Node := .mapping {} [(key, value)]

/-- A complete node takes its place. -/
def add (n : Node) : Unfinished → Unfinished
  | document _ => document (.inr n)
  | blockSequence own items _ => blockSequence own (n :: items) none
  | openSequence own items _ => openSequence own (n :: items) none
  | blockMapping own entries (.key _) => blockMapping own entries (.colon n)
  | blockMapping own entries (.value k _) => blockMapping own ((k, n) :: entries) .next
  | flowSequence own items (.entry (.key _)) => flowSequence own items (.entry (.colon n))
  | flowSequence own items (.entry (.value k _)) => flowSequence own (single k n :: items) .comma
  | flowSequence own items _ => flowSequence own (n :: items) .comma
  | flowMapping own entries (.entry (.key _)) => flowMapping own entries (.entry (.colon n))
  | flowMapping own entries (.entry (.value k _)) => flowMapping own ((k, n) :: entries) .comma
  | flowMapping own entries _ => flowMapping own ((n, .empty {}) :: entries) .comma
  | u => u

end Unfinished

/-- A complete node takes its place in the collection on top. -/
def place (n : Node) : List Unfinished → List Unfinished
  | [] => []
  | u :: stack => u.add n :: stack

/-- A node is placed within the innermost collection, so that as many stay unfinished. -/
@[simp] theorem length_place (n : Node) (stack : List Unfinished) :
    (place n stack).length = stack.length := by
  cases stack <;> rfl

/-- What the punctuation of a mapping by indentation does. -/
def EntryStage.punctuate (stage : EntryStage) (t : Token) :
    Option (List (Node × Node) × EntryStage) :=
  match t, stage with
  | .key, _ => some (stage.close, .key {})
  | .value, key p => some ([], .value (.empty p) {})
  | .value, colon k => some ([], .value k {})
  | _, _ => none

/-- What comes after an item within brackets. -/
def endItem (t : Token) (own : Properties) (items : List Node) (stack : List Unfinished) :
    Option (List Unfinished) :=
  match t with
  | .flowSequenceEnd => some (place (.sequence own items.reverse) stack)
  | .flowEntry => some (.flowSequence own items (.item {}) :: stack)
  | _ => none

/-- What the punctuation of a sequence in brackets does. A key without content takes the next
punctuation with it. -/
def punctuateItem (t : Token) (own : Properties) (items : List Node) (stage : FlowStage)
    (stack : List Unfinished) : Option (List Unfinished) :=
  match stage with
  | .item p =>
    if p ≠ {} then endItem t own (.empty p :: items) stack
    else
      match t with
      | .flowSequenceEnd => endItem t own items stack
      | .key => some (.flowSequence own items (.entry (.key {})) :: stack)
      | _ => none
  | .comma => endItem t own items stack
  | .entry (.key p) =>
    if p ≠ {} then
      if t = .value then some (.flowSequence own items (.entry (.value (.empty p) {})) :: stack)
      else endItem t own (Unfinished.single (.empty p) (.empty {}) :: items) stack
    else if t = .value ∨ t = .flowEntry ∨ t = .flowSequenceEnd then
      some (.flowSequence own items (.entry (.colon (.empty {}))) :: stack)
    else none
  | .entry (.colon k) =>
    if t = .value then some (.flowSequence own items (.entry (.value k {})) :: stack)
    else endItem t own (Unfinished.single k (.empty {}) :: items) stack
  | .entry (.value k p) => endItem t own (Unfinished.single k (.empty p) :: items) stack
  | .entry .next => none

/-- What comes after an entry within brackets. -/
def endEntry (t : Token) (own : Properties) (entries : List (Node × Node))
    (stack : List Unfinished) : Option (List Unfinished) :=
  match t with
  | .flowMappingEnd => some (place (.mapping own entries.reverse) stack)
  | .flowEntry => some (.flowMapping own entries (.item {}) :: stack)
  | _ => none

/-- What the punctuation of a mapping in brackets does. -/
def punctuateEntry (t : Token) (own : Properties) (entries : List (Node × Node))
    (stage : FlowStage) (stack : List Unfinished) : Option (List Unfinished) :=
  match stage with
  | .item p =>
    if p ≠ {} then endEntry t own ((.empty p, .empty {}) :: entries) stack
    else
      match t with
      | .flowMappingEnd => endEntry t own entries stack
      | .key => some (.flowMapping own entries (.entry (.key {})) :: stack)
      | _ => none
  | .comma => endEntry t own entries stack
  | .entry stage =>
    if t = .value then do
      let (closed, stage) ← stage.punctuate t
      some (.flowMapping own (closed ++ entries) (.entry stage) :: stack)
    else endEntry t own (stage.close ++ entries) stack

/-- What a token does that is not part of a node. -/
def punctuate (t : Token) (stack : List Unfinished) : Option (List Unfinished) :=
  match stack with
  | [] => none
  | .document (.inl p) :: stack =>
    if t = .documentEnd then some (.document (.inr (.empty p)) :: stack) else none
  | .document (.inr n) :: stack =>
    if t = .documentEnd then some (.document (.inr n) :: stack) else none
  | .blockSequence own items item :: stack =>
    match t with
    | .blockEntry =>
      some (.blockSequence own (Unfinished.closeItem items item) (some {}) :: stack)
    | .blockEnd => some (place (Unfinished.blockSequence own items item).node stack)
    | _ => none
  | .openSequence own items item :: stack =>
    if t = .blockEntry then
      some (.openSequence own (Unfinished.closeItem items item) (some {}) :: stack)
    else punctuate t (place (Unfinished.openSequence own items item).node stack)
  | .blockMapping own entries stage :: stack =>
    if t = .blockEnd then some (place (Unfinished.blockMapping own entries stage).node stack)
    else do
      let (closed, stage) ← stage.punctuate t
      some (.blockMapping own (closed ++ entries) stage :: stack)
  | .flowSequence own items stage :: stack => punctuateItem t own items stage stack
  | .flowMapping own entries stage :: stack => punctuateEntry t own entries stage stack
termination_by stack.length
decreasing_by simp

/-- What a document says about itself before it starts. -/
structure Prologue where
  versioned : Bool := false
  /-- What the handles of tags are short for. -/
  handles : List (String × String) := []
  deriving DecidableEq, Repr

namespace Prologue

/-- What every document knows. -/
def defaultHandles : List (String × String) := [("!", "!"), ("!!", "tag:yaml.org,2002:")]

/-- One more directive. The version has to be one of two, and nothing is said twice. -/
def add (p : Prologue) : Token → Option Prologue
  | .versionDirective major minor =>
    if p.versioned ∨ major ≠ 1 ∨ (minor ≠ 1 ∧ minor ≠ 2) then none
    else some { p with versioned := true }
  | .tagDirective handle beginning =>
    if p.handles.any (·.1 = handle) then none
    else some { p with handles := p.handles ++ [(handle, beginning)] }
  | _ => none

/-- Reads directives up to the start of the document. -/
def read (p : Prologue) : List Token → Option (Prologue × List Token)
  | [] => none
  | .documentStart :: ts => some (p, ts)
  | t :: ts => do read (← p.add t) ts

/-- Reads what stands before the content of a document, if anything does. Only a document that
has been started may end without content. -/
def ofTokens? : List Token → Option (Prologue × List Token)
  | [] => some ({}, [])
  | t :: ts =>
    match t with
    | .versionDirective .. | .tagDirective .. | .documentStart => read {} (t :: ts)
    | .documentEnd => none
    | _ => some ({}, t :: ts)

/-- A tag in full. -/
def tag? (p : Prologue) (handle suffix : String) : Option String :=
  if handle = "" then some suffix
  else ((p.handles ++ defaultHandles).find? (·.1 = handle)).map (·.2 ++ suffix)

end Prologue

/-- A document that is being put together. -/
structure Assembly where
  prologue : Prologue := {}
  /-- The number that each name of an anchor stands for at present. -/
  anchors : List (String × Nat) := []
  stack : List Unfinished := [.document (.inl {})]

namespace Assembly

/-- Gives a name the next number, which is the number of names so far. -/
def number (s : Assembly) (name : String) : Nat × Assembly :=
  let id := s.anchors.length
  (id, { s with anchors := (name, id) :: s.anchors.filter (·.1 ≠ name) })

/-- A scalar loses the tag that says nothing. -/
def scalarProperties (p : Properties) : Properties :=
  if p.tag = some "!" then { p with tag := none } else p

/-- What one token does. -/
def accept (s : Assembly) (t : Token) : Option Assembly :=
  match s.stack with
  | [] => none
  | top :: stack =>
    match top.properties? with
    | none => do some { s with stack := ← punctuate t s.stack }
    | some p =>
      let push (u : Unfinished) : Assembly := { s with stack := u :: s.stack }
      match t with
      | .anchor name =>
        if p.anchor.isSome then none
        else
          let (id, s) := s.number name
          some { s with stack := top.setProperties { p with anchor := some id } :: stack }
      | .tag handle suffix =>
        if p.tag.isSome then none
        else do
          let tag ← s.prologue.tag? handle suffix
          some { s with stack := top.setProperties { p with tag := some tag } :: stack }
      | .aliasOf name =>
        if p ≠ {} then none
        else do some { s with stack := place (.aliasOf (← s.anchors.lookup name)) s.stack }
      | .scalar text style =>
        some { s with stack := place (.scalar (scalarProperties p) text style) s.stack }
      | .flowSequenceStart => some (push (.flowSequence p [] (.item {})))
      | .flowMappingStart => some (push (.flowMapping p [] (.item {})))
      | .blockSequenceStart => some (push (.blockSequence p [] none))
      | .blockMappingStart => some (push (.blockMapping p [] .next))
      | .blockEntry =>
        if top.allowsOpenSequence then some (push (.openSequence p [] (some {})))
        else do some { s with stack := ← punctuate t s.stack }
      | _ => do some { s with stack := ← punctuate t s.stack }

/-- The node of a document of which all tokens have come. -/
def node? (s : Assembly) : Option Node :=
  match s.stack with
  | [.document next] => some (Unfinished.document next).node
  | _ => none

end Assembly

/-- The node of a document, of which there is one at most. -/
def Node.ofTokens? (ts : List Token) : Option Node := do
  let (prologue, ts) ← Prologue.ofTokens? ts
  (← ts.foldlM Assembly.accept { prologue }).node?

/-- The node of a document. -/
def Node.read? (text : String) : Option Node := do
  Node.ofTokens? (← tokens? text)

end Yaml

end ClientMetrics
