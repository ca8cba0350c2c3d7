import ClientMetrics.Yaml.Node
import ClientMetrics.Yaml.Scalar

/-!
# Values in a document

Numbers, truth values, texts, names out of a list, and the fields of a mapping, read from the nodes
of a document. Aliases are followed, so every reader takes the node of the whole document as well.
-/

namespace ClientMetrics

namespace Yaml

namespace Node

/-- The node that is meant: an alias stands for the last node with its anchor. -/
def resolve? (root : Node) : Node → Option Node
  | aliasOf id => root.anchored? id
  | n => some n

/-- A scalar stands for more than its text if it has no quotes, or if it is a literal with the very
tag that says so. -/
def isTyped (tag : String) (p : Properties) (style : ScalarStyle) : Bool :=
  style = .plain || (style = .literal && p.tag = some ("tag:yaml.org,2002:" ++ tag))

/-- A whole number below a limit. -/
def natural? (limit : Nat) : Node → Option Nat
  | scalar p text style =>
    if isTyped "int" p style then (Scalar.natural? text.toList).filter (· < limit) else none
  | _ => none

/-- A truth value. -/
def bool? : Node → Option Bool
  | scalar p text style => if isTyped "bool" p style then Scalar.bool? text.toList else none
  | _ => none

/-- The text of a scalar. -/
def text? : Node → Option String
  | scalar _ text _ => some text
  | _ => none

/-- A text that may be missing. A plain scalar that is empty, or stands for nothing, is missing,
unless a tag says that it is something. -/
def optionalText? : Node → Option (Option String)
  | scalar p text style =>
    if style ≠ .plain then some (some text)
    else
      match p.tag with
      | none => if text = "" ∨ Scalar.isNull text.toList then some none else some (some text)
      | some tag =>
        if tag = "tag:yaml.org,2002:null" then
          if Scalar.isNull text.toList then some none else none
        else some (some text)
  | _ => none

/-- The name that a tag of the document's own gives. -/
def tagName? (p : Properties) : Option String :=
  match p.tag.map String.toList with
  | some ['!'] => some "!"
  | some ('!' :: name) => some (.ofList name)
  | _ => none

/-- The properties of a node. -/
def properties : Node → Properties
  | aliasOf _ => {}
  | scalar p _ _ => p
  | sequence p _ => p
  | mapping p _ => p

/-- A name: the text of a scalar, or a tag on a scalar without content. -/
def name? (n : Node) : Option String :=
  match tagName? n.properties, n with
  | some name, scalar _ text .plain =>
    if text = "" ∨ Scalar.isNull text.toList then some name else none
  | none, scalar _ text _ => some text
  | _, _ => none

/-- The entries of a mapping. An empty scalar counts as one without entries. -/
def entries? : Node → Option (List (Node × Node))
  | mapping _ entries => some entries
  | scalar _ text style => if text = "" ∧ style = .plain then some [] else none
  | _ => none

/-- The fields of a mapping, whose keys are texts. -/
def fields? (n root : Node) : Option (List (String × Node)) := do
  (← n.entries?).mapM fun (key, value) => do some (← (← resolve? root key).text?, value)

/-- The texts of a mapping by their keys, in order. -/
def texts? (n root : Node) : Option (List (String × String)) := do
  (← n.fields? root).mapM fun (key, value) => do some (key, ← (← resolve? root value).text?)

end Node

/-- A field, which has a default and may not occur twice. -/
def field {α : Type} (root : Node) (fields : List (String × Node)) (name : String) (default : α)
    (read : Node → Option α) : Option α :=
  match fields.filter (·.1 = name) with
  | [] => some default
  | [(_, n)] => do read (← Node.resolve? root n)
  | _ => none

end Yaml

end ClientMetrics
