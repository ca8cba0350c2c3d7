import ClientMetrics.Log.Causes
import ClientMetrics.Log.Event
import ClientMetrics.Statsd.Host
import ClientMetrics.Statsd.Settings

/-!
# Clients

A client writes measurements as lines and hands them to a sink. At most one client is in effect.
A capturing scope puts a client of its own into effect while its body runs and then gives back the
lines that it received, so scopes nest.

* `Reporter.perform` — what an activity does, and what comes of it;
* `current_performAll` — after any activities the client is in effect that was before.
-/

namespace ClientMetrics

namespace Statsd

/-- Where lines go. -/
inductive Sink where
  /-- They are kept, under a number. -/
  | collector (id : Nat)
  /-- They are sent to a host, and nothing is heard of them again. -/
  | network (host : String)
  /-- Every one is refused. -/
  | refusing
  deriving DecidableEq, Repr

/-- What writes and hands on lines. -/
structure Client where
  pre : String := ""
  defaultTags : SortedTags := .empty
  sink : Sink
  deriving DecidableEq, Repr

/-- The name under which a client writes to the log. -/
def clientTarget : String := "csm_statsd"

/-- What is noted when a measurement cannot be sent: the error, and what caused it. -/
def failureEvent (error : String) (causes : List String) : Log.Event :=
  { severity := .error, target := clientTarget, message := "error sending a metric"
    fields := [("error", .plain (Log.withCauses error causes))] }

/-- What is noted when a line is handed to a sink. -/
def Sink.objections : Sink → List Log.Event
  | refusing => [failureEvent "sink refused" ["sink refused"]]
  | _ => []

/-- The state of reporting. -/
structure Reporter where
  current : Option Client := none
  /-- The lines that clients handed on, with the sinks they went to, oldest first. -/
  handed : List (Sink × String) := []
  /-- The number of the next collector. -/
  next : Nat := 0
  events : List Log.Event := []
  deriving DecidableEq, Repr

/-- What is done while measurements are reported. -/
inductive Activity where
  /-- A measurement. That of a timed block follows the activities of the block. -/
  | emit (m : Measurement)
  /-- A capturing scope. -/
  | capture (body : List Activity)

/-- What comes of an activity. -/
inductive ActivityResult where
  | emitted
  /-- The lines of a scope, and what came of the activities in it. -/
  | captured (lines : List String) (body : List ActivityResult)

namespace Client

/-- The line of a measurement. -/
def line (c : Client) (m : Measurement) : String := m.line c.pre c.defaultTags.toList

end Client

namespace Reporter

/-- The lines that collectors received, with their numbers. -/
def received (r : Reporter) : List (Nat × String) :=
  r.handed.filterMap fun
    | (.collector id, line) => some (id, line)
    | _ => none

/-- The lines that a collector received. -/
def linesOf (r : Reporter) (id : Nat) : List String :=
  r.received.filterMap fun (n, line) => if n = id then some line else none

/-- Puts a client into effect whose lines are kept. -/
def collect (r : Reporter) (pre : String) (defaultTags : SortedTags) : Reporter :=
  { r with current := some ⟨pre, defaultTags, .collector r.next⟩, next := r.next + 1 }

/-- Puts a client into effect. One that keeps its lines has a new collector for them. -/
def install (r : Reporter) (c : Client) : Reporter :=
  match c.sink with
  | .collector _ => r.collect c.pre c.defaultTags
  | _ => { r with current := some c }

/-- Puts a client into effect all of whose lines are refused. -/
def refuse (r : Reporter) : Reporter := r.install { sink := .refusing }

/-- Puts no client into effect. -/
def disable (r : Reporter) : Reporter := { r with current := none }

/-- Puts a client into effect that sends to a host, if something can be sent there. -/
def connect (r : Reporter) (host pre : String) (defaultTags : SortedTags) :
    Except HostFault Reporter :=
  match Host.fault? host with
  | some fault => .error fault
  | none =>
    let noted : Reporter := { r with
      events := r.events ++ [{
        severity := .info, target := clientTarget
        message := "reporting metrics to statsd at " ++ host }] }
    .ok (noted.install ⟨pre, defaultTags, .network host⟩)

/-- Hands the line of a measurement to the sink of a client. What cannot be sent is noted. -/
def send (r : Reporter) (c : Client) (m : Measurement) : Reporter :=
  if m.reading.isWritable then
    { r with
      handed := r.handed ++ [(c.sink, c.line m)]
      events := r.events ++ c.sink.objections }
  else { r with events := r.events ++ [failureEvent "u64 overflow" []] }

/-- Reports a measurement, if it is not silent and a client is in effect. -/
def emit (r : Reporter) (m : Measurement) : Reporter :=
  if m.reading.isSilent then r
  else
    match r.current with
    | some c => r.send c m
    | none => r

mutual

/-- Does one thing. -/
def perform (r : Reporter) : Activity → Reporter × ActivityResult
  | .emit m => (r.emit m, .emitted)
  | .capture body =>
    let (inner, results) := performAll (r.collect "" .empty) body
    ({ inner with current := r.current }, .captured (inner.linesOf r.next) results)

/-- Does one thing after the other. -/
def performAll (r : Reporter) : List Activity → Reporter × List ActivityResult
  | [] => (r, [])
  | a :: as =>
    let (r₁, result) := perform r a
    let (r₂, results) := performAll r₁ as
    (r₂, result :: results)

end

@[simp] theorem current_send (r : Reporter) (c : Client) (m : Measurement) :
    (r.send c m).current = r.current := by
  unfold send
  split <;> rfl

@[simp] theorem next_send (r : Reporter) (c : Client) (m : Measurement) :
    (r.send c m).next = r.next := by
  unfold send
  split <;> rfl

/-- A measurement leaves the client in effect, whether it is sent or not. -/
@[simp] theorem current_emit (r : Reporter) (m : Measurement) : (r.emit m).current = r.current := by
  unfold emit
  split
  · rfl
  · split
    · exact current_send r _ m
    · rfl

/-- No measurement starts a new collector. -/
@[simp] theorem next_emit (r : Reporter) (m : Measurement) : (r.emit m).next = r.next := by
  unfold emit
  split
  · rfl
  · split
    · exact next_send r _ m
    · rfl

/-- A scope gives the place back to the client that was in effect before. -/
@[simp] theorem current_perform (r : Reporter) (a : Activity) :
    (r.perform a).1.current = r.current := by
  cases a with
  | emit m => exact current_emit r m
  | capture body => rfl

/-- After any activities the client is in effect that was before. -/
@[simp] theorem current_performAll (r : Reporter) (as : List Activity) :
    (r.performAll as).1.current = r.current := by
  -- each activity finds the client in effect that the ones before have left there
  induction as generalizing r with
  | nil => rfl
  | cons a as ih => exact (ih _).trans (current_perform r a)

end Reporter

end Statsd

end ClientMetrics
