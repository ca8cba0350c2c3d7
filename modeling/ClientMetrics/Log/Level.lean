import ClientMetrics.Log.Event
import ClientMetrics.Text.Quoted

/-!
# Log levels

A level lets events through down to some severity. `Level.ofText` reads the name of a level in
either case.
-/

namespace ClientMetrics

namespace Log

/-- How much is logged, from nothing to everything. -/
inductive Level where
  | off
  | error
  | warn
  | info
  | debug
  | trace
  deriving DecidableEq, Repr

namespace Level

/-- The name of a level. -/
def name : Level → String
  | off => "off"
  | error => "error"
  | warn => "warn"
  | info => "info"
  | debug => "debug"
  | trace => "trace"

/-- The place of a level in the order from nothing to everything. -/
def rank : Level → Nat
  | off => 0
  | error => 1
  | warn => 2
  | info => 3
  | debug => 4
  | trace => 5

/-- The lower of two levels. -/
def min (a b : Level) : Level := if a.rank ≤ b.rank then a else b

/-- The level at which events of a severity start to be let through. -/
def ofSeverity : Severity → Level
  | .error => error
  | .warn => warn
  | .info => info
  | .debug => debug
  | .trace => trace

/-- Events of a severity are let through. -/
def allows (l : Level) (s : Severity) : Bool := (ofSeverity s).rank ≤ l.rank

/-- Every level, in order. -/
def all : List Level := [off, error, warn, info, debug, trace]

/-- The level of a name, in either case. -/
def ofText? (text : String) : Option Level :=
  let lower := text.map Char.toLower
  if lower = "warning" then some warn else all.find? (·.name = lower)

/-- The level of a name exactly as it is written. -/
def ofName? (name : String) : Option Level := all.find? (·.name = name)

/-- What is said of a text that names no level. -/
def unknownMessage (text : String) : String :=
  "invalid log level " ++ Text.quoted text
    ++ ", expected one of off, error, warn, info, debug, trace"

end Level

/-- How events are written. -/
inductive Format where
  /-- Chosen by what the output is. -/
  | auto
  | pretty
  | simplified
  | json
  deriving DecidableEq, Repr

namespace Format

/-- The name of a format. -/
def name : Format → String
  | auto => "auto"
  | pretty => "pretty"
  | simplified => "simplified"
  | json => "json"

/-- The format of a name. -/
def ofName? (name : String) : Option Format :=
  [auto, pretty, simplified, json].find? (·.name = name)

end Format

/-- Settings of the log. -/
structure Settings where
  level : Level := .info
  format : Format := .auto
  enableBacktraces : Bool := false
  deriving DecidableEq, Repr

/-- Whether a value of the variable that asks for backtraces turns them on. -/
def backtracesEnabled (value : Option String) : Bool :=
  value = some "1" || value = some "full"

end Log

end ClientMetrics
