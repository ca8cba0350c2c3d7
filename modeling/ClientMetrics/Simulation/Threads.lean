import ClientMetrics.Simulation

/-!
# The threads of a simulation

Every producer of a simulation is a thread, and the dispatcher is one more. They share the queue and
some counters. A step of a thread is what no other thread can interrupt: asking the gate, the part
of an offer under the lock of the queue, counting an item that was lost once the lock is released, a
poll, a change of a counter. Between two steps of a thread the others may take any number of steps.

* `Producer.step`, `Dispatcher.step` — what a thread does next;
* `Threads.move` — a thread takes a step, or the ticker of the waiting dispatcher fires;
* `Threads.follow` — the moves of a schedule, one after the other.

The transport accepts each batch at once, so the deadline of a send is never polled and the time
that passes is not kept. The ticker may fire whenever the dispatcher waits, any number of times.
-/

namespace ClientMetrics

namespace Simulation

/-- The gate that all threads of a simulation ask. -/
def gate (s : Settings) (plan : SimulationPlan) : ConsentGate :=
  s.pipeline.gate.setConsent plan.consent

/-- What the threads share. -/
structure Shared where
  queue : SendingQueue Impression
  /-- How many producers are still at work. -/
  active : Nat
  skipped : Nat := 0
  accepted : Nat := 0
  /-- How many impressions the transport has accepted. -/
  sent : Nat := 0

/-! ## Producers -/

/-- What a producer does next. -/
inductive Stage where
  /-- It makes up an impression and asks the gate. If there is none left, it ends. -/
  | asks
  /-- Collection is refused, and the impression is counted as skipped. -/
  | skips
  | offers (i : Impression)
  /-- An item was lost to the full queue, and is counted. -/
  | owes (taken : Bool)
  /-- The offer is answered, and the impression is counted if it was taken. -/
  | answered (taken : Bool)
  | ended
  deriving DecidableEq, Repr

/-- A thread that makes up impressions. -/
structure Producer where
  /-- The impressions that it has not asked the gate about. -/
  todo : List Impression
  stage : Stage := .asks
  deriving DecidableEq, Repr

/-- A step of a producer, unless it has ended. -/
def Producer.step (gate : ConsentGate) (c : Shared) (p : Producer) : Option (Shared × Producer) :=
  match p.stage with
  | .asks =>
    match p.todo with
    | [] => some ({ c with active := c.active - 1 }, ⟨[], .ended⟩)
    | i :: todo =>
      -- one that is still to change is left alone
      if !i.isTerminal then some (c, ⟨todo, .asks⟩)
      else if gate.isDisallowed then some (c, ⟨todo, .skips⟩)
      else some (c, ⟨todo, .offers i⟩)
  | .skips => some ({ c with skipped := c.skipped + 1 }, ⟨p.todo, .asks⟩)
  | .offers i =>
    let (taken, _, queue) := c.queue.insert i
    some ({ c with queue }, ⟨p.todo, if c.queue.isFull then .owes taken else .answered taken⟩)
  | .owes taken => some ({ c with queue := c.queue.recordLoss }, ⟨p.todo, .answered taken⟩)
  | .answered taken =>
    some ({ c with accepted := c.accepted + if taken then 1 else 0 }, ⟨p.todo, .asks⟩)
  | .ended => none

/-! ## The dispatcher -/

/-- What a tick is part of. -/
inductive Round where
  /-- The loop, while producers may be at work. -/
  | regular
  /-- The end of the loop. -/
  | final
  /-- The ticks after the loop, for as long as batches are sent. -/
  | drain
  deriving DecidableEq, Repr

/-- What the dispatcher does next. -/
inductive Dispatcher where
  /-- It waits for its ticker, or for the producers to end. -/
  | waits
  /-- A tick starts and asks the gate. -/
  | asks (round : Round)
  | polls (round : Round)
  | sends (round : Round) (impressions : List Impression)
  | ended
  deriving DecidableEq, Repr

/-- What comes after a tick, which may have sent a batch. -/
def Round.next (sent : Bool) : Round → Dispatcher
  | regular => .waits
  | final => .asks .drain
  | drain => if sent then .asks .drain else .ended

/-- A step of the dispatcher, if it can take one. -/
def Dispatcher.step (gate : ConsentGate) (s : Settings) (c : Shared) :
    Dispatcher → Option (Shared × Dispatcher)
  | waits => if c.active = 0 then some (c, asks .final) else none
  | asks round => some (c, if gate.isDisallowed then round.next false else polls round)
  | polls round =>
    let (impressions, queue) := c.queue.poll s.dispatch.batchSize.toNat
    some ({ c with queue }, if impressions = [] then round.next false else sends round impressions)
  | sends round impressions =>
    let batch := Batch.ofImpressions impressions s.sdk
    some ({ c with sent := c.sent + batch.size }, round.next true)
  | ended => none

/-! ## All threads -/

/-- A simulation that is under way. -/
structure Threads where
  shared : Shared
  producers : List Producer
  dispatcher : Dispatcher := .waits

/-- A move in a simulation. -/
inductive Move where
  /-- The producer with this number takes a step. -/
  | producer (number : Nat)
  | dispatcher
  /-- The ticker fires, and a tick is due. -/
  | ticker
  deriving DecidableEq, Repr

namespace Threads

/-- A simulation before any thread has taken a step. -/
def start (s : Settings) (plan : SimulationPlan) : Threads where
  shared := { queue := s.pipeline.queue, active := plan.producers }
  producers := (List.range plan.producers).map fun number =>
    { todo := (List.range plan.impressions).map (impression s.sdk number) }

/-- A simulation after a move, if that can be made. -/
def move (s : Settings) (plan : SimulationPlan) (t : Threads) : Move → Option Threads
  | .producer number =>
    match t.producers[number]? with
    | none => none
    | some p => (p.step (gate s plan) t.shared).map fun (shared, p') =>
        { t with shared, producers := t.producers.set number p' }
  | .dispatcher => (t.dispatcher.step (gate s plan) s t.shared).map fun (shared, dispatcher) =>
      { t with shared, dispatcher }
  | .ticker => if t.dispatcher = .waits then some { t with dispatcher := .asks .regular } else none

/-- A simulation after the moves of a schedule, if all of them can be made. -/
def follow (s : Settings) (plan : SimulationPlan) (t : Threads) : List Move → Option Threads
  | [] => some t
  | m :: schedule => (t.move s plan m).bind fun t' => t'.follow s plan schedule

/-- What is reported once the dispatcher has ended. -/
def report (plan : SimulationPlan) (t : Threads) : SimulationReport where
  created := plan.producers * plan.impressions
  skipped := t.shared.skipped
  accepted := t.shared.accepted
  dropped := t.shared.queue.dropped
  sent := t.shared.sent
  remaining := t.shared.queue.size

end Threads

end Simulation

end ClientMetrics
