import ClientMetrics.Yaml.Token

/-!
# Nodes

A document is a tree of scalars, sequences and mappings. A node may have an anchor, which is a
number here, and an alias stands for the last node with its number (`Node.anchored?`).
-/

namespace ClientMetrics

namespace Yaml

/-- What may be said of a node besides its content. -/
structure Properties where
  anchor : Option Nat := none
  tag : Option String := none
  deriving DecidableEq, Repr

/-- A part of a document. -/
inductive Node where
  | aliasOf (anchor : Nat)
  | scalar (properties : Properties) (text : String) (style : ScalarStyle)
  | sequence (properties : Properties) (items : List Node)
  | mapping (properties : Properties) (entries : List (Node × Node))
  deriving Repr

namespace Node

/-- A node without content. -/
def empty (properties : Properties) : Node := scalar properties "" .plain

/-- The anchor of a node. -/
def anchor : Node → Option Nat
  | aliasOf _ => none
  | scalar p _ _ => p.anchor
  | sequence p _ => p.anchor
  | mapping p _ => p.anchor

mutual

/-- The last node with an anchor, within a node. -/
def anchored? (id : Nat) : Node → Option Node
  | aliasOf _ => none
  | scalar p text style => if p.anchor = some id then some (scalar p text style) else none
  | sequence p items =>
    anchoredItem? id items <|> if p.anchor = some id then some (sequence p items) else none
  | mapping p entries =>
    anchoredEntry? id entries <|> if p.anchor = some id then some (mapping p entries) else none

/-- The last node with an anchor, within some nodes. -/
def anchoredItem? (id : Nat) : List Node → Option Node
  | [] => none
  | n :: items => anchoredItem? id items <|> anchored? id n

/-- The last node with an anchor, within some entries. -/
def anchoredEntry? (id : Nat) : List (Node × Node) → Option Node
  | [] => none
  | (k, v) :: entries => anchoredEntry? id entries <|> anchored? id v <|> anchored? id k

end

end Node

end Yaml

end ClientMetrics
