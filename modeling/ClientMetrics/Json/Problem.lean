/-!
# What can be wrong with a JSON text

The first problem from left to right is the one reported. A text that ends too early is told apart
from one that is malformed, and both from a well-formed text of the wrong shape.
-/

namespace ClientMetrics

namespace Json

/-- What stands in a text where something else is wanted. -/
inductive Found where
  | null
  | boolean (value : Bool)
  | integer (value : Int)
  | decimal (value : Float)
  | string (value : String)
  | sequence
  | map

/-- A reason to refuse a JSON text. -/
inductive Problem where
  /-- The text ended early. -/
  | endOfText
  /-- The text is not JSON. -/
  | malformed
  /-- A value has the wrong type. -/
  | wrongType (found : Found) (expected : String)
  /-- A whole number is out of range. -/
  | outOfRange (value : Int) (expected : String)
  /-- A known member occurs twice. -/
  | duplicateField (name : String)
  /-- A required member is absent. -/
  | missingField (name : String)
  /-- A record given as an array is too short. -/
  | wrongLength (length : Nat) (expected : String)

end Json

end ClientMetrics
