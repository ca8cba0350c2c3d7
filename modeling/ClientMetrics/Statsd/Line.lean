/-!
# Measurements and their lines

A measurement is one reading of one quantity with the tags of the call. A client writes it as a
line of text: its prefix, the name, the reading, a letter for the kind, then the tags of the call
and after them the client's own tags.
-/

namespace ClientMetrics

namespace Statsd

/-- A reading together with the kind of quantity it is read from. -/
inductive Reading where
  /-- The change of a counter. -/
  | counter (change : Int)
  /-- The present value of a gauge. -/
  | gauge (value : Nat)
  /-- A duration in microseconds. -/
  | timer (micros : Nat)
  /-- A duration taken from the wall clock, whose value is not known here. -/
  | stopwatch
  deriving DecidableEq, Repr

/-- The longest duration that can be reported, in milliseconds. -/
def maxMillis : Nat := UInt64.size - 1

namespace Reading

/-- Counters are silent when nothing changed. -/
def isSilent : Reading → Bool
  | counter 0 => true
  | _ => false

/-- A duration that is too long cannot be written. -/
def isWritable : Reading → Bool
  | timer micros => micros / 1000 ≤ maxMillis
  | _ => true

/-- The reading in a line. Durations are given in whole milliseconds; `*` stands for one that is
not known. -/
def text : Reading → String
  | counter change => toString change
  | gauge value => toString value
  | timer micros => toString (micros / 1000)
  | stopwatch => "*"

/-- The letters that stand for the kind of a quantity. -/
def kind : Reading → String
  | counter _ => "c"
  | gauge _ => "g"
  | timer _ => "ms"
  | stopwatch => "ms"

end Reading

/-- Tags by key, in the order in which they are written. -/
abbrev Tags := List (String × String)

/-- One reading of a named quantity. -/
structure Measurement where
  name : String
  reading : Reading
  tags : Tags := []
  deriving DecidableEq, Repr

/-- The end of a line that holds the tags. -/
def tagText : Tags → String
  | [] => ""
  | tags => "|#" ++ ",".intercalate (tags.map fun (key, value) => key ++ ":" ++ value)

/-- What stands before the name: the prefix without the dots it ends in, and one dot. -/
def prefixText (pre : String) : String :=
  if pre = "" then ""
  else String.ofList (pre.toList.reverse.dropWhile (· = '.')).reverse ++ "."

namespace Measurement

/-- The line of a measurement under a prefix and with the tags given to every measurement. -/
def line (m : Measurement) (pre : String) (defaults : Tags) : String :=
  prefixText pre ++ m.name ++ ":" ++ m.reading.text ++ "|" ++ m.reading.kind
    ++ tagText (m.tags ++ defaults)

/-- The line written by a client without a prefix and without tags of its own. -/
def bareLine (m : Measurement) : String := m.line "" []

/-- The lines that a measurement is worth. -/
def isReported (m : Measurement) : Bool := !m.reading.isSilent && m.reading.isWritable

end Measurement

end Statsd

end ClientMetrics
