import ClientMetrics.Decimal.Shortest
import ClientMetrics.Json.Problem
import ClientMetrics.Text.Quoted

/-!
# Messages about values of the wrong shape

A text that is not JSON has no message of its own; the driver of a program tells the two kinds
apart by `Problem`.
-/

namespace ClientMetrics

namespace Json

/-- Decimals between `0.0001` and `10 ^ 16` are written without an exponent. -/
def decimalStyle : Decimal.Style := ⟨-4, 15⟩

/-- What a message calls a value. -/
def Found.text : Found → String
  | null => "null"
  | boolean value => "boolean `" ++ toString value ++ "`"
  | integer value => "integer `" ++ toString value ++ "`"
  | decimal value => "floating point `" ++ Decimal.text decimalStyle value ++ "`"
  | string value => "string " ++ Text.quoted value
  | sequence => "sequence"
  | map => "map"

/-- The message of a problem with a well-formed value. -/
def Problem.message? : Problem → Option String
  | endOfText => none
  | malformed => none
  | wrongType found expected => some ("invalid type: " ++ found.text ++ ", expected " ++ expected)
  | outOfRange value expected =>
    some ("invalid value: integer `" ++ toString value ++ "`, expected " ++ expected)
  | duplicateField name => some ("duplicate field `" ++ name ++ "`")
  | missingField name => some ("missing field `" ++ name ++ "`")
  | wrongLength length expected =>
    some ("invalid length " ++ toString length ++ ", expected " ++ expected)

end Json

end ClientMetrics
