/-!
# Tokens

The parts of a document once indentation, punctuation and scalars have been told apart. Where a
collection is laid out by indentation, its start and end are tokens of their own.
-/

namespace ClientMetrics

namespace Yaml

/-- How a scalar was written. -/
inductive ScalarStyle where
  | plain
  | singleQuoted
  | doubleQuoted
  | literal
  | folded
  deriving DecidableEq, Repr

/-- A part of a document. -/
inductive Token where
  /-- A directive naming the version of the language. -/
  | versionDirective (major minor : Nat)
  /-- A directive giving tags that start with a handle a common beginning. -/
  | tagDirective (handle beginning : String)
  | documentStart
  | documentEnd
  | blockSequenceStart
  | blockMappingStart
  /-- The end of a collection laid out by indentation. -/
  | blockEnd
  | flowSequenceStart
  | flowSequenceEnd
  | flowMappingStart
  | flowMappingEnd
  | blockEntry
  | flowEntry
  | key
  | value
  | aliasOf (name : String)
  | anchor (name : String)
  | tag (handle suffix : String)
  | scalar (text : String) (style : ScalarStyle)
  deriving DecidableEq, Repr

end Yaml

end ClientMetrics
