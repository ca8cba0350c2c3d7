/-!
# Log events

An event has a severity, the name of the part of the program it comes from, a message and a list
of fields. How an event is written out is decided elsewhere.
-/

namespace ClientMetrics

namespace Log

/-- How severe an event is, most severe first. -/
inductive Severity where
  | error
  | warn
  | info
  | debug
  | trace
  deriving DecidableEq, Repr

/-- The name of a severity in written events. -/
def Severity.name : Severity → String
  | .error => "ERROR"
  | .warn => "WARN"
  | .info => "INFO"
  | .debug => "DEBUG"
  | .trace => "TRACE"

/-- The value of a field. -/
inductive Value where
  /-- A number. -/
  | number (n : Nat)
  /-- A text that is written between quotes in a line of text. -/
  | quoted (text : String)
  /-- A text that is written as it is. -/
  | plain (text : String)
  deriving DecidableEq, Repr

/-- Something worth noting. -/
structure Event where
  severity : Severity
  target : String
  message : String
  fields : List (String × Value) := []
  deriving DecidableEq, Repr

end Log

end ClientMetrics
