import ClientMetrics.Json.Record
import ClientMetrics.Log.Causes
import ClientMetrics.Log.Filter

/-!
# Lines of the log

An event is written as a line of text or as a line of JSON. What is written besides events is
written as it is. The time comes first in a line of text and last in a line of JSON.
-/

namespace ClientMetrics

namespace Log

namespace Value

/-- A value in a line of text. -/
def text : Value → String
  | number n => toString n
  | quoted s => Text.quoted s
  | plain s => s

/-- A value in a line of JSON. -/
def json : Value → List Char
  | number n => Nat.toDigits 10 n
  | quoted s => Json.quote s
  | plain s => Json.quote s

end Value

namespace Event

/-- The name of a severity in a line of text, where it takes five places. -/
def severityText (s : Severity) : String :=
  String.ofList (List.replicate (5 - s.name.length) ' ') ++ s.name

/-- An event as a line of text. -/
def text (e : Event) : String :=
  severityText e.severity ++ " " ++ e.target ++ ": " ++ e.message
    ++ String.join (e.fields.map fun (name, value) => " " ++ name ++ "=" ++ value.text)

/-- The members of an event's fields, among which the message is one, in the order of their
names. -/
def members (e : Event) : List (String × List Char) :=
  (("message", Json.quote e.message) :: e.fields.map fun (name, value) => (name, value.json))
    |>.mergeSort (·.1 ≤ ·.1)

/-- An event as a line of JSON. -/
def json (e : Event) (time : Option String) : String :=
  String.ofList (Json.object (
    [("fields", Json.object e.members), ("level", Json.quote e.severity.name),
      ("target", Json.quote e.target)]
    ++ match time with
      | some time => [("timestamp", Json.quote time)]
      | none => []))

end Event

/-- Something that is written to the log. -/
inductive Entry where
  | event (format : Format) (e : Event)
  | text (t : String)
  deriving DecidableEq, Repr

namespace Entry

/-- What is written, at a time if one is given. -/
def write (time : Option String) : Entry → String
  | event .json e => e.json time
  | event _ e =>
    match time with
    | some time => time ++ " " ++ e.text
    | none => e.text
  | text t => t

/-- The lines that are written. -/
def lines (time : Option String) (e : Entry) : List String := (e.write time).splitOn "\n"

end Entry

/-- A log that is written. -/
structure Writer where
  filter : Filter
  format : Format
  deriving DecidableEq, Repr

namespace Writer

/-- What is written of events. -/
def entries (w : Writer) (events : List Event) : List Entry :=
  (events.filter fun e => w.filter.allows e.severity e.target).map (.event w.format)

/-- What is written of an error that ends the program. It is not passed over: where the log does
not let it through it is written as it is. -/
def failure (w : Writer) (text : String) : Entry :=
  if w.filter.allows .error errorTarget then
    .event w.format { severity := .error, target := errorTarget, message := text }
  else .text ("error: " ++ text)

end Writer

end Log

end ClientMetrics
