import ClientMetrics.Batch.Json
import ClientMetrics.Consent.Gate
import ClientMetrics.Dispatch.Transport
import ClientMetrics.Queue.Loss

/-!
# The pipeline

Queue, gate and transport together. Every step yields the pipeline after it and what happened on
the way, oldest first: measurements, log events and batches handed to the transport. A tick is one
attempt to send a batch and has three parts, so that time may pass within it: it starts (`start`),
hands its batch over (`handOver`), and is settled once the answer is known (`settle`).

A tick whose send is never answered does not return (`isStuck`, `tick`), and of a sequence of
actions nothing takes place after it (`performAll`).
-/

namespace ClientMetrics

/-- Settings of the dispatcher. -/
structure DispatchSettings where
  batchSize : UInt64 := 10
  /-- Time between two ticks in milliseconds. -/
  interval : UInt64 := 60000
  /-- Time allowed for a send after shutdown, in seconds. -/
  shutdownTimeout : UInt64 := 10
  /-- The impressions of a failed batch are offered to the queue again. -/
  retryFailed : Bool := true
  deriving DecidableEq, Repr

/-- Something that happened. -/
inductive Happening where
  | measured (m : Statsd.Measurement)
  | noted (e : Log.Event)
  /-- A batch was handed to the transport. -/
  | handed (b : Batch)
  deriving DecidableEq, Repr

namespace Happening

/-- The measurement, if it is one. -/
def measurement? : Happening → Option Statsd.Measurement
  | measured m => some m
  | _ => none

/-- The log event, if it is one. -/
def event? : Happening → Option Log.Event
  | noted e => some e
  | _ => none

/-- The batch, if one was handed over. -/
def batch? : Happening → Option Batch
  | handed b => some b
  | _ => none

end Happening

/-- Queue, gate and transport with their settings. -/
structure Pipeline where
  queue : SendingQueue Impression
  gate : ConsentGate := {}
  settings : DispatchSettings := {}
  sdk : SdkSettings := {}
  transport : Transport := {}

/-- How a tick ended. -/
inductive Outcome where
  /-- Collection is refused; the queue was not touched. -/
  | consentBlocked
  /-- Nothing was waiting. -/
  | empty
  /-- A batch of that many impressions was accepted. -/
  | sent (count : Nat)
  /-- A batch was not accepted, and some of it was taken back into the queue. -/
  | failed (polled requeued : Nat)
  deriving DecidableEq, Repr

/-- The text of an outcome in log events. -/
def Outcome.text : Outcome → String
  | consentBlocked => "ConsentBlocked"
  | empty => "Empty"
  | sent count => "Sent(" ++ toString count ++ ")"
  | failed polled requeued =>
    "Failed \x7b polled: " ++ toString polled ++ ", requeued: " ++ toString requeued ++ " \x7d"

/-- How a tick starts: it ends at once, or there are impressions to send. -/
inductive Start where
  | done (outcome : Outcome)
  | sending (impressions : List Impression)
  deriving DecidableEq, Repr

/-- Where the dispatcher's events come from. -/
def dispatcherTarget : String := "csm_dispatch::dispatcher"

namespace Pipeline

/-- An idle pipeline. -/
def ofSettings (queue : QueueSettings) (dispatch : DispatchSettings) (privacy : PrivacySettings)
    (sdk : SdkSettings) : Pipeline where
  queue := .ofSettings queue
  gate := { vendorId := privacy.vendorId }
  settings := dispatch
  sdk := sdk

/-- Offers an impression to the queue. -/
def offer (p : Pipeline) (i : Impression) : Bool × Pipeline × List Happening :=
  let (taken, queue) := p.queue.offer i
  (taken, { p with queue },
    if p.queue.isFull then [.noted queue.lossEvent, .measured queue.lossMeasurement] else [])

/-- Offers impressions one after the other and counts those that were taken. -/
def offerAll (p : Pipeline) : List Impression → Nat × Pipeline × List Happening
  | [] => (0, p, [])
  | i :: is =>
    let (taken, p₁, h₁) := p.offer i
    let (count, p₂, h₂) := p₁.offerAll is
    ((if taken then 1 else 0) + count, p₂, h₁ ++ h₂)

/-- A tick asks the gate and polls the queue. -/
def start (p : Pipeline) : Start × Pipeline × List Happening :=
  if p.gate.isDisallowed then
    (.done .consentBlocked, p, [.noted p.gate.evaluated,
      .noted { severity := .debug, target := dispatcherTarget
               message := "metric collection disallowed, skipping dispatch" },
      .measured { name := "dispatch.consent_blocked", reading := .counter 1 }])
  else
    let (impressions, queue) := p.queue.poll p.settings.batchSize.toNat
    -- the gauge shows what is left after the poll
    (if impressions = [] then .done .empty else .sending impressions, { p with queue },
      [.noted p.gate.evaluated, .measured { name := "queue.size", reading := .gauge queue.size }])

/-- What a transport says of a batch that it is given. -/
def announcement (b : Batch) : List Happening :=
  [.noted { severity := .debug, target := "csm::simulate", message := "delivering metric batch"
            fields := [("feedbacks", .number b.size),
              ("bytes", .number b.toJson.utf8ByteSize)] },
    .noted { severity := .trace, target := "csm::simulate", message := b.toJson }]

/-- The batch of some impressions goes to the transport, and late offers come in. -/
def handOver (p : Pipeline) (impressions : List Impression) : Pipeline × List Happening :=
  let batch := Batch.ofImpressions impressions p.sdk
  -- the batch is built before the late offers and does not contain them
  let (_, p', late) := p.offerAll p.transport.late
  (p', (impressions.flatMap Feedback.events).map .noted ++ [.handed batch]
    ++ (if p.transport.announces then announcement batch else []) ++ late)

/-- The result under which the duration of a send is reported. -/
def resultTag : Option TransportError → String
  | none => "success"
  | some .timedOut => "timeout"
  | some _ => "failure"

/-- The measurement of how long a send took. -/
def sendDuration (failure : Option TransportError) : Happening :=
  .measured { name := "dispatch.send_duration", reading := .stopwatch
              tags := [("result", resultTag failure)] }

/-- The measurement of impressions of a failed batch that are lost. -/
def requeueDropped (lost : Nat) (retry : Bool) : List Happening :=
  if lost = 0 then []
  else [.measured { name := "dispatch.requeue_dropped", reading := .counter lost
                    tags := [("retry", if retry then "true" else "false")] }]

/-- The answer of the transport is known: the batch is done with, or its impressions are offered
again if that is wanted. -/
def settle (p : Pipeline) (impressions : List Impression) (failure : Option TransportError) :
    Outcome × Pipeline × List Happening :=
  let polled := impressions.length
  match failure with
  | none =>
    (.sent polled, p, [sendDuration none,
      .noted { severity := .debug, target := dispatcherTarget, message := "sent metric batch"
               fields := [("count", .number polled)] },
      .measured { name := "dispatch.batch.sent", reading := .counter 1 }])
  | some error =>
    let retry := p.settings.retryFailed
    -- the queue may have filled up during the send, so not all of them need be taken
    let (requeued, p', reoffers) := p.offerAll (if retry then impressions else [])
    (.failed polled requeued, p', [sendDuration failure,
      .measured { name := "dispatch.batch.failed", reading := .counter 1 }]
      ++ reoffers ++ requeueDropped (polled - requeued) retry
      ++ [.noted { severity := .warn, target := dispatcherTarget
                   message := "failed to send metric batch"
                   fields := [("error", .plain error.chain), ("polled", .number polled),
                     ("requeued", .number requeued)] }])

/-- One tick, the send of which is answered. How long the answer takes makes no difference to it. -/
def answeredTick (p : Pipeline) : Outcome × Pipeline × List Happening :=
  match p.start with
  | (.done outcome, p', h) => (outcome, p', h)
  | (.sending impressions, p₁, h₁) =>
    let (p₂, h₂) := p₁.handOver impressions
    let (outcome, p₃, h₃) := p₂.settle impressions p.transport.failure
    (outcome, p₃, h₁ ++ h₂ ++ h₃)

/-- A tick would send something, and the transport would never answer. -/
def isStuck (p : Pipeline) : Bool :=
  match p.start.1 with
  | .done _ => false
  | .sending _ => !p.transport.answers

/-- One tick that nobody gives up. There is no result if it waits for an answer that never comes. -/
def tick (p : Pipeline) : Option (Outcome × Pipeline × List Happening) :=
  if p.isStuck then none else some p.answeredTick

end Pipeline

/-- What the surroundings of a pipeline do to it. -/
inductive Step where
  | offer (i : Impression)
  /-- Offers that many impressions, named by a text and a number. -/
  | fill (name : String) (count : Nat)
  | poll (max : Nat)
  /-- Stores or removes the consent string. -/
  | consent (value : Option String)
  /-- The transport behaves like this from now on. -/
  | transport (t : Transport)
  deriving DecidableEq, Repr

/-- What a step or a tick answers. -/
inductive Reply where
  | nothing
  | taken (yes : Bool)
  | count (n : Nat)
  | polled (impressions : List Impression)
  | outcome (o : Outcome)
  deriving DecidableEq, Repr

/-- Impressions named by a text and the numbers below a bound. -/
def Impression.numbered (name : String) (count : Nat) : List Impression :=
  (List.range count).map fun n => { id := name ++ toString n }

namespace Pipeline

/-- A step of the surroundings. -/
def apply (p : Pipeline) : Step → Reply × Pipeline × List Happening
  | .offer i =>
    let (taken, p', h) := p.offer i
    (.taken taken, p', h)
  | .fill name count =>
    let (n, p', h) := p.offerAll (Impression.numbered name count)
    (.count n, p', h)
  | .poll max =>
    let (impressions, queue) := p.queue.poll max
    (.polled impressions, { p with queue }, [])
  | .consent value => (.nothing, { p with gate := p.gate.setConsent value }, [])
  | .transport t => (.nothing, { p with transport := t }, [])

/-- Steps one after the other, with their answers. -/
def serve (p : Pipeline) : List Step → List Reply × Pipeline × List Happening
  | [] => ([], p, [])
  | s :: steps =>
    let (reply, p₁, h₁) := p.apply s
    let (replies, p₂, h₂) := p₁.serve steps
    (reply :: replies, p₂, h₁ ++ h₂)

/-- Steps one after the other. -/
def applyAll (p : Pipeline) (steps : List Step) : Pipeline × List Happening := (p.serve steps).2

end Pipeline

/-- A step of the surroundings, or a tick. -/
inductive Action where
  | step (s : Step)
  | tick

namespace Pipeline

/-- An action comes to an end. Only a tick may wait forever. -/
def returns (p : Pipeline) : Action → Bool
  | .step _ => true
  | .tick => !p.isStuck

/-- What an action answers and does. One that does not return answers nothing. -/
def perform (p : Pipeline) : Action → Reply × Pipeline × List Happening
  | .step s => p.apply s
  | .tick =>
    match p.tick with
    | some (outcome, p', h) => (.outcome outcome, p', h)
    | none => (.nothing, p, [])

/-- Actions one after the other, with their answers: all of them, or those before the first that
does not return. -/
def performAll (p : Pipeline) : List Action → List Reply × Pipeline × List Happening
  | [] => ([], p, [])
  | a :: actions =>
    if p.returns a then
      let (reply, p₁, h₁) := p.perform a
      let (replies, p₂, h₂) := p₁.performAll actions
      (reply :: replies, p₂, h₁ ++ h₂)
    else ([], p, [])

/-! ## Ticks that return -/

/-- A tick is stuck only while it waits for an answer that never comes. -/
theorem isStuck_of_answers {p : Pipeline} (h : p.transport.answers) : p.isStuck = false := by
  unfold isStuck
  split
  · rfl
  · rw [h]
    rfl

/-- A tick returns what it answers, unless it is stuck. -/
theorem tick_eq_some {p : Pipeline} {r : Outcome × Pipeline × List Happening} :
    p.tick = some r ↔ p.isStuck = false ∧ p.answeredTick = r := by
  unfold tick
  cases p.isStuck <;> simp

/-- Of all actions only a tick may fail to return. -/
theorem returns_tick {p : Pipeline} : p.returns .tick ↔ p.isStuck = false := by simp [returns]

/-- A tick that returns answers how it ended. -/
theorem perform_tick {p : Pipeline} (h : p.returns .tick) :
    p.perform .tick = (.outcome p.answeredTick.1, p.answeredTick.2) := by
  have htick : p.tick = some p.answeredTick := tick_eq_some.2 ⟨returns_tick.1 h, rfl⟩
  rw [perform, htick]

/-- An action that returns makes way for the others. -/
theorem performAll_cons {p : Pipeline} {a : Action} (h : p.returns a) (actions : List Action) :
    p.performAll (a :: actions) =
      ((p.perform a).1 :: ((p.perform a).2.1.performAll actions).1,
        ((p.perform a).2.1.performAll actions).2.1,
        (p.perform a).2.2 ++ ((p.perform a).2.1.performAll actions).2.2) := by
  rw [performAll, if_pos h]

/-- After one that does not return nothing takes place. -/
theorem performAll_of_stuck {p : Pipeline} {a : Action} (h : ¬p.returns a) (actions : List Action) :
    p.performAll (a :: actions) = ([], p, []) := by
  rw [performAll, if_neg h]

end Pipeline

end ClientMetrics
