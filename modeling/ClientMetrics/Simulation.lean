import ClientMetrics.Config.Settings
import ClientMetrics.Dispatch.Run

/-!
# Simulations

Producers make up impressions and offer them to the queue; then the dispatch loop is run and shut
down at once, and ticks follow for as long as batches are sent. The transport describes each batch
in the log and accepts it.

* `Simulation.run` — a simulation and its report;
* `Simulation.drain` — ticks until nothing is sent any more, each of which empties the queue
  further, so that the loop ends.
-/

namespace ClientMetrics

/-- What is to be simulated. -/
structure SimulationPlan where
  producers : Nat
  /-- How many impressions each producer makes up. -/
  impressions : Nat
  /-- The consent string in effect. -/
  consent : Option String := none
  deriving DecidableEq, Repr

/-- The totals of a simulation. -/
structure SimulationReport where
  created : Nat
  /-- Not offered, because collection is refused. -/
  skipped : Nat
  /-- Taken by the queue. -/
  accepted : Nat
  /-- Lost to a full queue. -/
  dropped : Nat
  /-- Accepted by the transport. -/
  sent : Nat
  /-- Left in the queue. -/
  remaining : Nat
  deriving DecidableEq, Repr

/-- The lines of a report. -/
def SimulationReport.text (r : SimulationReport) : String :=
  "created:   " ++ toString r.created ++ "\nskipped:   " ++ toString r.skipped
    ++ "\naccepted:  " ++ toString r.accepted ++ "\ndropped:   " ++ toString r.dropped
    ++ "\nsent:      " ++ toString r.sent ++ "\nremaining: " ++ toString r.remaining

namespace Simulation

/-- The name under which a simulation writes to the log. -/
def target : String := "csm::simulate"

/-- The impression that a producer makes up as its `n`-th. Every seventh call times out, all others
are answered and shown. Times are counted from the start of the call. -/
def impression (sdk : SdkSettings) (producer n : Nat) : Impression :=
  let asked := ({ id := toString producer ++ "-" ++ toString n } : Impression).update
    [.requestGroup ("group-" ++ toString producer), .profile sdk.profileId, .callStart 0]
  if n % 7 = 6 then asked.update [.callTimeout 1000]
  else (asked.update [.callEnd (.ofNat (n % 40))]).update [.shown 100, .ready]

/-- All impressions of a plan, one producer after the other. -/
def impressions (sdk : SdkSettings) (plan : SimulationPlan) : List Impression :=
  (List.range plan.producers).flatMap fun p => (List.range plan.impressions).map (impression sdk p)

/-- How far the producers are. -/
structure Progress where
  pipeline : Pipeline
  skipped : Nat := 0
  accepted : Nat := 0
  /-- What they noted, the latest first. -/
  notes : List Log.Event := []

/-- A producer deals with an impression: it asks the gate and offers it. One that is still to
change is left alone. -/
def Progress.produce (s : Progress) (i : Impression) : Progress :=
  if !i.isTerminal then s
  else
    let notes := s.pipeline.gate.evaluated :: s.notes
    if s.pipeline.gate.isDisallowed then { s with skipped := s.skipped + 1, notes }
    else
      let (taken, pipeline, happened) := s.pipeline.offer i
      { s with
        pipeline
        accepted := s.accepted + if taken then 1 else 0
        notes := (happened.filterMap Happening.event?).reverse ++ notes }

/-- Ticks for as long as a batch is sent. Yields how many impressions were sent. -/
def drain (p : Pipeline) : Nat × Pipeline × List Happening :=
  match p.tick with
  | some (.sent n, p', h) =>
    -- The program makes no such test, and the loop of a simulation never fails it: its transport
    -- offers nothing late, so whatever is sent makes the queue shorter. Here it shows that the
    -- loop ends. `Pipeline.Drains` is the loop without it.
    if p'.queue.size < p.queue.size then
      let (m, final, hs) := drain p'
      (n + m, final, h ++ hs)
    else (n, p', h)
  | some (_, p', h) => (0, p', h)
  -- nor does its transport ever fail to answer
  | none => (0, p, [])
termination_by p.queue.size

/-- How many impressions were accepted during a run. -/
def sentIn (r : Run) : Nat :=
  (r.history.sends.filter Send.isAccepted).foldl (fun n s => n + s.batch.size) 0

/-- A finished simulation. -/
structure Result where
  report : SimulationReport
  /-- What the producers noted. -/
  producerEvents : List Log.Event
  /-- What was noted before and after the producers were at work. -/
  events : List Log.Event

/-- All that was noted. The producers start after the first note. -/
def Result.allEvents (r : Result) : List Log.Event :=
  r.events.take 1 ++ r.producerEvents ++ r.events.drop 1

/-- A simulation in which the producers take turns before the first tick. -/
def run (s : Settings) (plan : SimulationPlan) : Result :=
  let idle : Pipeline :=
    { s.pipeline with
      gate := s.pipeline.gate.setConsent plan.consent
      transport := { announces := true } }
  let produced := (impressions s.sdk plan).foldl Progress.produce { pipeline := idle }
  let looped := produced.pipeline.run []
  let (more, final, happened) := drain looped.pipeline
  let report : SimulationReport := {
    created := plan.producers * plan.impressions
    skipped := produced.skipped
    accepted := produced.accepted
    dropped := final.queue.dropped
    sent := sentIn looped + more
    remaining := final.queue.size }
  { report
    producerEvents := produced.notes.reverse
    events :=
      { severity := .info, target, message := "starting simulation"
        fields := [("producers", .number plan.producers), ("metrics", .number plan.impressions)] }
      :: (looped.history.happenings ++ happened).filterMap Happening.event?
      ++ [{ severity := .info, target, message := "simulation finished"
            fields := [("sent", .number report.sent), ("dropped", .number report.dropped)] }] }

end Simulation

end ClientMetrics
