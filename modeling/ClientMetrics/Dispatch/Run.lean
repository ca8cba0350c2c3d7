import ClientMetrics.Dispatch.Pipeline
import ClientMetrics.Text.Duration

/-!
# The dispatch loop

The loop ticks at its interval until the shutdown future resolves, and then once more. The shutdown
future works through a script of timed events: whenever it is polled, the events that are due take
place, and after the last of them it resolves. Time is counted in milliseconds from the start and
passes only while the loop waits: for the next event of the script, for the next tick, or for the
answer to a send. While a send is under way its deadline polls the shutdown future; once that has
resolved, the send may take as long as the shutdown timeout allows.

The loop ends because an event that is still to come lies ahead (`lt_of_pollShutdown`): each time
it waits the clock moves on, each tick puts the next due time later (`nextDue_gt`), and both stay
behind the last event of the script (`latest`).
-/

namespace ClientMetrics

/-- Steps that the surroundings take at a given time. -/
structure TimedSteps where
  time : Nat
  steps : List Step
  deriving DecidableEq, Repr

/-- What the history of a run records. -/
inductive RunEntry where
  /-- A tick starts; the last one is the one after shutdown. -/
  | tick (last : Bool)
  /-- The shutdown future was polled; it is ready once it has resolved. -/
  | polled (ready : Bool)
  /-- An event of the script takes place, and its steps are answered. -/
  | event (e : TimedSteps) (replies : List Reply)
  | happened (h : Happening)
  deriving DecidableEq, Repr

/-- An attempt to send a batch. -/
structure Send where
  start : Nat
  /-- The impressions taken from the queue for it. -/
  impressions : List Impression
  batch : Batch
  /-- What was offered to the queue when it started. -/
  late : List Impression
  /-- When it ended. -/
  finish : Nat
  /-- The transport answered; without an answer the send was given up. -/
  answered : Bool
  /-- Why the batch was not accepted. -/
  failure : Option TransportError
  deriving DecidableEq, Repr

namespace Send

/-- When the transport answered. -/
def stop (s : Send) : Option Nat := if s.answered then some s.finish else none

/-- The transport accepted the batch. -/
def isAccepted (s : Send) : Bool := s.failure.isNone

end Send

/-- What happened and when, in order, and the attempts to send. -/
structure History where
  entries : List (Nat × RunEntry) := []
  sends : List Send := []

namespace History

/-- One history after another. -/
def append (h₁ h₂ : History) : History := ⟨h₁.entries ++ h₂.entries, h₁.sends ++ h₂.sends⟩

instance : Append History := ⟨append⟩

/-- A single entry. -/
def single (time : Nat) (e : RunEntry) : History := { entries := [(time, e)] }

/-- Happenings at one time. -/
def moment (time : Nat) (hs : List Happening) : History :=
  { entries := hs.map fun h => (time, .happened h) }

/-- The happenings of a history without their times. -/
def happenings (h : History) : List Happening :=
  h.entries.filterMap fun
    | (_, .happened x) => some x
    | _ => none

@[simp] theorem entries_append (h₁ h₂ : History) :
    (h₁ ++ h₂).entries = h₁.entries ++ h₂.entries := rfl

@[simp] theorem sends_append (h₁ h₂ : History) : (h₁ ++ h₂).sends = h₁.sends ++ h₂.sends := rfl

@[simp] theorem entries_single (time : Nat) (e : RunEntry) :
    (single time e).entries = [(time, e)] := rfl

@[simp] theorem sends_single (time : Nat) (e : RunEntry) : (single time e).sends = [] := rfl

@[simp] theorem sends_moment (time : Nat) (hs : List Happening) : (moment time hs).sends = [] := rfl

@[simp] theorem happenings_append (h₁ h₂ : History) :
    (h₁ ++ h₂).happenings = h₁.happenings ++ h₂.happenings := List.filterMap_append

@[simp] theorem happenings_moment (time : Nat) (hs : List Happening) :
    (moment time hs).happenings = hs := by
  induction hs with
  | nil => rfl
  | cons x hs ih => exact congrArg (x :: ·) ih

end History

/-- The time of the last event of a script. -/
def latest : List TimedSteps → Nat
  | [] => 0
  | e :: script => max e.time (latest script)

/-- No event of a script comes after the last one. -/
theorem le_latest (e : TimedSteps) (script : List TimedSteps) : e.time ≤ latest (e :: script) :=
  Nat.le_max_left _ _

/-- What is left of a script does not end later than the script. -/
theorem latest_le_of_suffix {s t : List TimedSteps} (h : s <:+ t) : latest s ≤ latest t := by
  induction t with
  | nil => simp_all
  | cons e t ih =>
    -- the rest is the whole script or lies behind its first event
    rcases List.suffix_cons_iff.1 h with rfl | h
    · exact Nat.le_refl _
    · exact Nat.le_trans (ih h) (Nat.le_max_right _ _)

/-! ## The shutdown future -/

/-- What a poll of the shutdown future leaves behind. -/
structure Polled where
  pipeline : Pipeline
  /-- The events that are still to come. There are none once the future has resolved. -/
  script : List TimedSteps
  history : History

/-- Polls the shutdown future: the events that are due take place, and it resolves after the
last. -/
def Pipeline.pollShutdown (p : Pipeline) (now : Nat) : List TimedSteps → Polled
  | [] => ⟨p, [], .single now (.polled true)⟩
  | e :: script =>
    if e.time ≤ now then
      let (replies, p', hs) := p.serve e.steps
      let polled := p'.pollShutdown now script
      { polled with
        history := .single now (.event e replies) ++ .moment now hs ++ polled.history }
    else ⟨p, e :: script, .single now (.polled false)⟩

/-- A poll takes events from the front of the script and leaves the others as they are. -/
theorem pollShutdown_suffix (p : Pipeline) (now : Nat) (script : List TimedSteps) :
    (p.pollShutdown now script).script <:+ script := by
  induction script generalizing p with
  | nil => exact List.suffix_refl _
  | cons e script ih =>
    unfold Pipeline.pollShutdown
    split
    · exact (ih _).trans (List.suffix_cons _ _)
    · exact List.suffix_refl _

/-- An event that a poll leaves for later lies ahead. -/
theorem lt_of_pollShutdown {p : Pipeline} {now : Nat} {script rest : List TimedSteps}
    {e : TimedSteps} (h : (p.pollShutdown now script).script = e :: rest) : now < e.time := by
  induction script generalizing p with
  | nil => simp [Pipeline.pollShutdown] at h
  | cons d script ih =>
    unfold Pipeline.pollShutdown at h
    -- an event that is due is served and gone; the first that is not is left
    split at h
    · exact ih h
    · obtain ⟨rfl, -⟩ := List.cons.inj h
      omega

/-- When the shutdown future resolves, its last event is in the past. -/
theorem latest_le_of_resolved {p : Pipeline} {now : Nat} {script : List TimedSteps}
    (h : (p.pollShutdown now script).script = []) : latest script ≤ now := by
  induction script generalizing p with
  | nil => exact Nat.zero_le _
  | cons e script ih =>
    unfold Pipeline.pollShutdown at h
    split at h
    next hle => exact Nat.max_le.2 ⟨hle, ih h⟩
    next => exact absurd h (List.cons_ne_nil _ _)

/-- As long as it has not resolved, its last event stays the same. -/
theorem latest_of_pending {p : Pipeline} {now : Nat} {script rest : List TimedSteps}
    {e : TimedSteps} (h : (p.pollShutdown now script).script = e :: rest) :
    latest (e :: rest) = latest script := by
  induction script generalizing p with
  | nil => simp [Pipeline.pollShutdown] at h
  | cons d script ih =>
    unfold Pipeline.pollShutdown at h
    split at h
    next hle =>
      -- the event that took place is not the last one, since another still lies ahead
      have hlt := lt_of_pollShutdown h
      have hmax := le_latest e rest
      have hih := ih h
      simp only [latest] at hih hmax ⊢
      omega
    next => exact congrArg latest h.symm

/-! ## Sends under way -/

/-- What became of a send. -/
structure Landing where
  pipeline : Pipeline
  /-- When the send ended. -/
  time : Nat
  /-- The transport answered in time. -/
  answered : Bool
  /-- The events that are still to come. -/
  script : List TimedSteps
  /-- The shutdown future resolved while the send was under way. -/
  stopped : Bool
  history : History

/-- A landing with something before it. -/
def Landing.after (h : History) (l : Landing) : Landing := { l with history := h ++ l.history }

namespace Landing

@[simp] theorem pipeline_after (h : History) (l : Landing) :
    (l.after h).pipeline = l.pipeline :=
  rfl

@[simp] theorem time_after (h : History) (l : Landing) : (l.after h).time = l.time := rfl

@[simp] theorem script_after (h : History) (l : Landing) : (l.after h).script = l.script := rfl

@[simp] theorem stopped_after (h : History) (l : Landing) : (l.after h).stopped = l.stopped := rfl

@[simp] theorem history_after (h : History) (l : Landing) :
    (l.after h).history = h ++ l.history := rfl

end Landing

/-- The time of the answer to a send, if one comes no later than `limit`. -/
def answerBy (stop : Option Nat) (limit : Nat) : Option Nat := stop.filter (· ≤ limit)

/-- An answer at the limit is still in time. -/
theorem answerBy_eq_some {stop : Option Nat} {limit t : Nat} :
    answerBy stop limit = some t ↔ stop = some t ∧ t ≤ limit := by
  simp [answerBy, Option.filter_eq_some_iff]

/-- There is no answer in time if none comes at all, or only after the limit. -/
theorem answerBy_eq_none {stop : Option Nat} {limit : Nat} :
    answerBy stop limit = none ↔ ∀ t, stop = some t → limit < t := by
  simp [answerBy, Option.filter_eq_none_iff]

/-- Waits for a send that is given up at `limit`. An answer at that very time is in time. -/
def expire (p : Pipeline) (stop : Option Nat) (limit : Nat) : Landing :=
  match answerBy stop limit with
  | some t => ⟨p, t, true, [], true, {}⟩
  | none => ⟨p, limit, false, [], true, {}⟩

/-- Waiting for an answer leaves the pipeline alone. -/
@[simp] theorem pipeline_expire (p : Pipeline) (stop : Option Nat) (limit : Nat) :
    (expire p stop limit).pipeline = p := by
  unfold expire
  split <;> rfl

/-- A send that only the timeout ends is one after the script. -/
@[simp] theorem script_expire (p : Pipeline) (stop : Option Nat) (limit : Nat) :
    (expire p stop limit).script = [] := by
  unfold expire
  split <;> rfl

/-- It ends after the shutdown future has resolved. -/
@[simp] theorem stopped_expire (p : Pipeline) (stop : Option Nat) (limit : Nat) :
    (expire p stop limit).stopped = true := by
  unfold expire
  split <;> rfl

/-- Nothing is recorded while it waits. -/
@[simp] theorem history_expire (p : Pipeline) (stop : Option Nat) (limit : Nat) :
    (expire p stop limit).history = {} := by
  unfold expire
  split <;> rfl

/-- Follows a send that is pending at `now`, when its deadline is polled. The deadline polls the
shutdown future, and once that has resolved the send may take `timeout`. An answer at the time of an
event comes before it. -/
def await (p : Pipeline) (stop : Option Nat) (timeout now : Nat) (script : List TimedSteps) :
    Landing :=
  let polled := p.pollShutdown now script
  match _h : polled.script with
  -- the future has just resolved, and from now on the timeout counts
  | [] => (expire polled.pipeline stop (now + timeout)).after polled.history
  | e :: rest =>
    match answerBy stop e.time with
    | some t => ⟨polled.pipeline, t, true, e :: rest, false, polled.history⟩
    | none => (await polled.pipeline stop timeout e.time (e :: rest)).after polled.history
termination_by latest script - now
decreasing_by
  -- the clock moves on to the next event, which is not after the last one
  have hn := lt_of_pollShutdown _h
  have hl := latest_of_pending _h
  have he := le_latest e rest
  omega

/-- What limits the time that a send may take. -/
inductive Deadline where
  /-- The shutdown future, which works through this script, and the timeout from then on. -/
  | shutdown (script : List TimedSteps)
  /-- The timeout alone. -/
  | timeout

namespace Deadline

/-- The events that are still to come. -/
def script : Deadline → List TimedSteps
  | shutdown script => script
  | timeout => []

/-- The shutdown future has resolved before. -/
def isLast : Deadline → Bool
  | shutdown _ => false
  | timeout => true

/-- What becomes of a send that starts at `now`. It is polled first and its deadline only if it is
pending, so that one that is answered at once does not depend on its deadline. -/
def land (d : Deadline) (p : Pipeline) (stop : Option Nat) (timeout now : Nat) : Landing :=
  match d with
  | .timeout => expire p stop (now + timeout)
  | .shutdown script =>
    match answerBy stop now with
    | some t => ⟨p, t, true, script, false, {}⟩
    | none => await p stop timeout now script

end Deadline

section Landing

variable {stop : Option Nat} {start : Nat}

/-- A send does not end before it starts, if it is given up at a later time. -/
theorem le_time_expire (h : ∀ t, stop = some t → start ≤ t) (p : Pipeline) {limit : Nat}
    (hl : start ≤ limit) : start ≤ (expire p stop limit).time := by
  unfold expire
  split
  next t ht => exact h t (answerBy_eq_some.1 ht).1
  next => exact hl

/-- Nor does one whose deadline polls the shutdown future. -/
theorem le_time_await (h : ∀ t, stop = some t → start ≤ t) (p : Pipeline) (timeout : Nat)
    {now : Nat} (hn : start ≤ now) (script : List TimedSteps) :
    start ≤ (await p stop timeout now script).time := by
  fun_induction await p stop timeout now script with
  | case1 => exact le_time_expire h _ (by omega)
  | case2 _ _ _ _ _ _ _ t ht => exact h t (answerBy_eq_some.1 ht).1
  | case3 p now script polled e rest hp _ ih =>
    -- the next poll is at an event that lies ahead
    have := lt_of_pollShutdown hp
    exact ih (by omega)

/-- While a send is awaited, events are only taken from the front of the script. -/
theorem await_suffix (p : Pipeline) (stop : Option Nat) (timeout now : Nat)
    (script : List TimedSteps) : (await p stop timeout now script).script <:+ script := by
  fun_induction await p stop timeout now script with
  | case1 => simp
  | case2 p now script polled e rest hp => exact hp ▸ pollShutdown_suffix p now script
  | case3 p now script polled e rest hp _ ih =>
    exact ih.trans (hp ▸ pollShutdown_suffix p now script)

end Landing

namespace Deadline

/-- A send does not end before it starts, whatever its deadline is. -/
theorem le_time_land (d : Deadline) (p : Pipeline) {stop : Option Nat} (timeout : Nat) {now : Nat}
    (h : ∀ t, stop = some t → now ≤ t) : now ≤ (d.land p stop timeout now).time := by
  unfold land
  split
  next => exact le_time_expire h p (by omega)
  next script =>
    split
    next t ht => exact h t (answerBy_eq_some.1 ht).1
    next => exact le_time_await h p timeout (Nat.le_refl _) script

/-- Whatever the deadline is, a send takes events only from the front of the script. -/
theorem land_suffix (d : Deadline) (p : Pipeline) (stop : Option Nat) (timeout now : Nat) :
    (d.land p stop timeout now).script <:+ d.script := by
  unfold land
  split
  next => simp
  next script =>
    split
    next => exact List.suffix_refl _
    next => exact await_suffix ..

end Deadline

/-! ## Ticks at a given time -/

/-- What became of a tick. -/
structure TickResult where
  outcome : Outcome
  pipeline : Pipeline
  /-- When the tick ended. -/
  time : Nat
  script : List TimedSteps
  /-- The shutdown future resolved during the tick. -/
  stopped : Bool
  history : History

/-- The time between two ticks, which is never zero. -/
def DispatchSettings.period (s : DispatchSettings) : Nat := max s.interval.toNat 1

/-- The time allowed for a send after shutdown, in milliseconds. -/
def DispatchSettings.timeout (s : DispatchSettings) : Nat := s.shutdownTimeout.toNat * 1000

/-- A tick with something before it. -/
def TickResult.after (h : History) (t : TickResult) : TickResult :=
  { t with history := h ++ t.history }

/-- Why the batch of a send was not accepted. A send that was given up counts as timed out. -/
def Landing.failure (l : Landing) (t : Transport) : Option TransportError :=
  if l.answered then t.failure else some .timedOut

namespace Pipeline

/-- The send of some impressions that are handed over at `now`. -/
def flight (p : Pipeline) (impressions : List Impression) (deadline : Deadline) (now : Nat) :
    Landing :=
  deadline.land (p.handOver impressions).1 (p.transport.delay.map (now + ·)) p.settings.timeout now

/-- The part of a tick from `now` on in which impressions are sent. -/
def timedSend (p : Pipeline) (impressions : List Impression) (deadline : Deadline) (now : Nat) :
    TickResult :=
  let landing := p.flight impressions deadline now
  let failure := landing.failure p.transport
  let (outcome, settled, happened) := landing.pipeline.settle impressions failure
  let send : Send := {
    start := now
    impressions
    batch := .ofImpressions impressions p.sdk
    late := p.transport.late
    finish := landing.time
    answered := landing.answered
    failure }
  ⟨outcome, settled, landing.time, landing.script, landing.stopped,
    .moment now (p.handOver impressions).2 ++ landing.history ++ .moment landing.time happened
      ++ { sends := [send] }⟩

/-- One tick at a given time, with a deadline for its send. -/
def timedTick (p : Pipeline) (deadline : Deadline) (now : Nat) : TickResult :=
  let began : History := .single now (.tick deadline.isLast)
  match p.start with
  | (.done outcome, p', h) => ⟨outcome, p', now, deadline.script, false, began ++ .moment now h⟩
  | (.sending impressions, p', h) =>
    (p'.timedSend impressions deadline now).after (began ++ .moment now h)

/-- A tick takes events only from the front of the script, and those only while it sends. -/
theorem timedTick_suffix (p : Pipeline) (deadline : Deadline) (now : Nat) :
    (p.timedTick deadline now).script <:+ deadline.script := by
  unfold timedTick
  dsimp only
  split
  · exact List.suffix_refl _
  · exact deadline.land_suffix ..

/-- The answer to a send does not come before the send. -/
theorem le_time_flight (p : Pipeline) (is : List Impression) (deadline : Deadline) (now : Nat) :
    now ≤ (p.flight is deadline now).time := by
  refine deadline.le_time_land _ _ fun t ht => ?_
  obtain ⟨d, -, rfl⟩ := Option.map_eq_some_iff.1 ht
  exact Nat.le_add_right _ _

/-- A tick does not end before it starts. -/
theorem le_time_timedTick (p : Pipeline) (deadline : Deadline) (now : Nat) :
    now ≤ (p.timedTick deadline now).time := by
  unfold timedTick
  dsimp only
  split
  · exact Nat.le_refl _
  · exact le_time_flight ..

end Pipeline

/-! ## The loop -/

/-- When the tick after one that was due at `due` and started at `start` is due. A tick that
started more than five milliseconds late moves the ones after it. -/
def nextDue (period due start : Nat) : Nat :=
  if start ≤ due + 5 then due + period else start + period

/-- Each tick puts the next one later, however late it was itself. -/
theorem nextDue_gt {period due start : Nat} (hp : 0 < period) (_h : due ≤ start) :
    due < nextDue period due start := by
  unfold nextDue; split <;> omega

/-- The loop waits at least a millisecond between two ticks, an interval of zero included. -/
theorem DispatchSettings.period_pos (s : DispatchSettings) : 0 < s.period := by
  simp only [period]; omega

/-- A finished run. -/
structure Run where
  pipeline : Pipeline
  /-- When the run ended. -/
  elapsed : Nat
  history : History

namespace Run

/-- The history of a run with something before it. -/
def after (h : History) (r : Run) : Run := { r with history := h ++ r.history }

@[simp] theorem pipeline_after (h : History) (r : Run) : (r.after h).pipeline = r.pipeline := rfl

@[simp] theorem elapsed_after (h : History) (r : Run) : (r.after h).elapsed = r.elapsed := rfl

@[simp] theorem history_after (h : History) (r : Run) : (r.after h).history = h ++ r.history := rfl

/-- The end of a run: one more tick, and a note of what is left. -/
def final (p : Pipeline) (now : Nat) : Run :=
  let closing : History := .moment now [.noted {
    severity := .info, target := dispatcherTarget, message := "metric dispatcher shutting down" }]
  let t := p.timedTick .timeout now
  let done : History := .moment t.time [.noted {
    severity := .debug, target := dispatcherTarget, message := "final metric dispatch done"
    fields := [("outcome", .plain t.outcome.text), ("remaining", .number t.pipeline.queue.size)] }]
  ⟨t.pipeline, t.time, closing ++ t.history ++ done⟩

/-- The loop at the time `now`, with the next tick due at `due`. The shutdown future is polled
before the ticker; if neither is ready, the loop waits for the one that comes first. -/
def loop (p : Pipeline) (now due : Nat) (script : List TimedSteps) : Run :=
  let polled := p.pollShutdown now script
  match _h : polled.script with
  | [] => (final polled.pipeline now).after polled.history
  | e :: rest =>
    if due ≤ now then
      -- a tick is due, or overdue
      let t := polled.pipeline.timedTick (.shutdown (e :: rest)) now
      if t.stopped then (final t.pipeline t.time).after (polled.history ++ t.history)
      else
        (loop t.pipeline t.time (nextDue p.settings.period due now) t.script).after
          (polled.history ++ t.history)
    else (loop polled.pipeline (min due e.time) due (e :: rest)).after polled.history
termination_by (latest script - now) + (latest script - due)
decreasing_by
  · -- after a tick the next one is due later, while the clock does not go back
    have hs := (p.pollShutdown now script).pipeline.timedTick_suffix (.shutdown (e :: rest)) now
    have ht := (p.pollShutdown now script).pipeline.le_time_timedTick (.shutdown (e :: rest)) now
    have hd := nextDue_gt p.settings.period_pos ‹due ≤ now›
    have hn := lt_of_pollShutdown _h
    have hl := latest_of_pending _h
    have he := le_latest e rest
    have hr := latest_le_of_suffix hs
    simp only [Deadline.script] at hr
    omega
  · -- the loop waits, for the next tick or the next event, and both lie ahead
    have hn := lt_of_pollShutdown _h
    have hl := latest_of_pending _h
    have he := le_latest e rest
    omega

end Run

/-- The loop from its start until it ends. -/
def Pipeline.run (p : Pipeline) (script : List TimedSteps) : Run :=
  let started : History := .moment 0 [.noted {
    severity := .info, target := dispatcherTarget, message := "metric dispatcher started"
    fields := [("interval", .plain (Text.duration p.settings.period)),
      ("batch_size", .number p.settings.batchSize.toNat)] }]
  (Run.loop p 0 p.settings.period script).after started

end ClientMetrics
