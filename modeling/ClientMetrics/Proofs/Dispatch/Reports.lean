import ClientMetrics.Proofs.Dispatch.Conservation

/-!
# What the pipeline reports of itself

Losses of the queue, refusals of the gate, what is left after a poll, how sends end and what becomes
of failed batches are measured.

* `reportsOf` — the measurements that are worth a line;
* `reportsOf_offerAll`, `reportsOf_handOver`, `reportsOf_settle_failed` — those of offers and of the
  parts of a tick;
* `Pipeline.TickReports` — what a tick reports, one case for each outcome (`tickReports_tick`);
* `TickReports.counts`, `TickReports.batches_eq` — what that adds up to.
-/

namespace ClientMetrics

open Statsd (Measurement)

/-- The measurements that a client writes as lines, one for each. -/
def reportsOf (hs : List Happening) : List Measurement :=
  (hs.filterMap Happening.measurement?).filter Measurement.isReported

@[simp] theorem reportsOf_append (hs hs' : List Happening) :
    reportsOf (hs ++ hs') = reportsOf hs ++ reportsOf hs' := by
  simp [reportsOf]

/-- Log events are not measured. -/
@[simp] theorem reportsOf_noted (events : List Log.Event) : reportsOf (events.map .noted) = [] := by
  induction events with
  | nil => rfl
  | cons e events ih => exact ih

/-- What is logged when a batch goes out is not measured either. -/
@[simp] theorem reportsOf_announcement (b : Batch) : reportsOf (Pipeline.announcement b) = [] := rfl

/-! ## The reports -/

namespace Report

/-- An item was lost to a full queue. -/
def dropped (policy : Overflow) : Measurement :=
  { name := "queue.dropped", reading := .counter 1, tags := [("policy", policy.name)] }

/-- A tick was refused. -/
def consentBlocked : Measurement := { name := "dispatch.consent_blocked", reading := .counter 1 }

/-- That many items wait after a poll. -/
def queueSize (size : Nat) : Measurement := { name := "queue.size", reading := .gauge size }

/-- A send took some time and ended with a result. -/
def sendDuration (result : String) : Measurement :=
  { name := "dispatch.send_duration", reading := .stopwatch, tags := [("result", result)] }

/-- The result of a send that ended with an error. -/
def failureResult (error : TransportError) : String :=
  if error = .timedOut then "timeout" else "failure"

/-- A batch was accepted. -/
def batchSent : Measurement := { name := "dispatch.batch.sent", reading := .counter 1 }

/-- A batch was not accepted. -/
def batchFailed : Measurement := { name := "dispatch.batch.failed", reading := .counter 1 }

/-- That many impressions of a failed batch were not taken back. -/
def requeueDropped (lost : Nat) (retry : Bool) : Measurement :=
  { name := "dispatch.requeue_dropped", reading := .counter lost
    tags := [("retry", if retry then "true" else "false")] }

/-- No error is reported as a success. -/
@[simp] theorem failureResult_ne_success (error : TransportError) :
    failureResult error ≠ "success" := by
  unfold failureResult
  split <;> decide

/-- Only the error that stands for a timeout is reported as one. -/
@[simp] theorem failureResult_eq_timeout (error : TransportError) :
    failureResult error = "timeout" ↔ error = .timedOut := by
  unfold failureResult
  split <;> simp_all

@[simp] theorem name_dropped (policy : Overflow) : (dropped policy).name = "queue.dropped" := rfl

@[simp] theorem name_consentBlocked : consentBlocked.name = "dispatch.consent_blocked" := rfl

@[simp] theorem name_queueSize (size : Nat) : (queueSize size).name = "queue.size" := rfl

@[simp] theorem name_sendDuration (result : String) :
    (sendDuration result).name = "dispatch.send_duration" := rfl

@[simp] theorem tags_sendDuration (result : String) :
    (sendDuration result).tags = [("result", result)] := rfl

@[simp] theorem name_batchSent : batchSent.name = "dispatch.batch.sent" := rfl

@[simp] theorem name_batchFailed : batchFailed.name = "dispatch.batch.failed" := rfl

@[simp] theorem name_requeueDropped (lost : Nat) (retry : Bool) :
    (requeueDropped lost retry).name = "dispatch.requeue_dropped" := rfl

/-- The impressions that a report says were given up, that is, not even offered again. -/
def givenUp (m : Measurement) : Nat :=
  if m.name = "dispatch.requeue_dropped" ∧ m.tags = [("retry", "false")] then
    match m.reading with
    | .counter change => change.toNat
    | _ => 0
  else 0

@[simp] theorem givenUp_dropped (policy : Overflow) : givenUp (dropped policy) = 0 := by
  simp [givenUp]

@[simp] theorem givenUp_consentBlocked : givenUp consentBlocked = 0 := by simp [givenUp]

@[simp] theorem givenUp_queueSize (size : Nat) : givenUp (queueSize size) = 0 := by simp [givenUp]

@[simp] theorem givenUp_sendDuration (result : String) : givenUp (sendDuration result) = 0 := by
  simp [givenUp]

@[simp] theorem givenUp_batchSent : givenUp batchSent = 0 := by simp [givenUp]

@[simp] theorem givenUp_batchFailed : givenUp batchFailed = 0 := by simp [givenUp]

/-- Impressions count as given up only if they were not even offered again: with retries on, those
that did not fit are lost to the queue instead. -/
@[simp] theorem givenUp_requeueDropped (lost : Nat) (retry : Bool) :
    givenUp (requeueDropped lost retry) = if retry then 0 else lost := by
  cases retry <;> rfl

end Report

/-- How many reports have a name. -/
def reportCount (name : String) (hs : List Happening) : Nat := (reportsOf hs).countP (·.name = name)

@[simp] theorem reportCount_append (name : String) (hs hs' : List Happening) :
    reportCount name (hs ++ hs') = reportCount name hs + reportCount name hs' := by
  simp [reportCount]

/-- How many sends ended with a result. -/
def resultCount (result : String) (hs : List Happening) : Nat :=
  (reportsOf hs).countP fun m =>
    m.name = "dispatch.send_duration" ∧ m.tags = [("result", result)]

@[simp] theorem resultCount_append (result : String) (hs hs' : List Happening) :
    resultCount result (hs ++ hs') = resultCount result hs + resultCount result hs' := by
  simp [resultCount]

/-- The impressions that were given up. -/
def givenUpCount (hs : List Happening) : Nat := ((reportsOf hs).map Report.givenUp).sum

@[simp] theorem givenUpCount_append (hs hs' : List Happening) :
    givenUpCount (hs ++ hs') = givenUpCount hs + givenUpCount hs' := by
  simp [givenUpCount]

/-! ## Offers -/

namespace Pipeline

/-- How many of some offers find the queue full. -/
def overflows (p : Pipeline) : List Impression → Nat
  | [] => 0
  | i :: is => (if p.queue.isFull then 1 else 0) + (p.offer i).2.1.overflows is

/-- Some items lost to a full queue. -/
def lossReports (p : Pipeline) (n : Nat) : List Measurement :=
  List.replicate n (Report.dropped p.queue.overflow)

/-- What is reported of the impressions of a failed batch that were not taken back. -/
def requeueReports (p : Pipeline) (lost : Nat) : List Measurement :=
  if 0 < lost then [Report.requeueDropped lost p.settings.retryFailed] else []

theorem overflow_eq {p q : Pipeline} (h : p.configuration = q.configuration) :
    p.queue.overflow = q.queue.overflow := congrArg Configuration.overflow h

theorem lossReports_eq {p q : Pipeline} (h : p.configuration = q.configuration) (n : Nat) :
    p.lossReports n = q.lossReports n := by
  rw [lossReports, overflow_eq h, lossReports]

/-- An offer reports a loss exactly if it finds the queue full, whichever item is lost. -/
theorem reportsOf_offer (p : Pipeline) (i : Impression) :
    reportsOf (p.offer i).2.2 = p.lossReports (if p.queue.isFull then 1 else 0) := by
  have hpolicy : (p.queue.offer i).2.overflow = p.queue.overflow := p.queue.overflow_offer i
  unfold offer
  dsimp only
  split
  · show [(p.queue.offer i).2.lossMeasurement] = [_]
    rw [SendingQueue.lossMeasurement, hpolicy, Report.dropped]
  · rfl

/-- Many offers report one loss for each of them that finds the queue full. -/
theorem reportsOf_offerAll (p : Pipeline) (is : List Impression) :
    reportsOf (p.offerAll is).2.2 = p.lossReports (p.overflows is) := by
  induction is generalizing p with
  | nil => rfl
  | cons i is ih =>
    show reportsOf ((p.offer i).2.2 ++ ((p.offer i).2.1.offerAll is).2.2) = _
    -- the queue after the first offer has the same policy, so both parts are copies of one report
    rw [reportsOf_append, reportsOf_offer, ih, lossReports_eq (p.configuration_offer i)]
    simp only [lossReports, overflows, List.replicate_append_replicate]

/-- An offer makes the queue longer unless it is full. -/
theorem size_offer (p : Pipeline) (i : Impression) :
    p.queue.size + 1 = (p.offer i).2.1.queue.size + if p.queue.isFull then 1 else 0 := by
  have hitems : (p.offer i).2.1.queue.items = (p.queue.insert i).2.2.items := p.queue.items_offer i
  simp only [SendingQueue.size, SendingQueue.isFull, hitems, decide_eq_true_eq]
  -- in the three cases the item fits, pushes out the oldest, or is turned away
  rcases p.queue.insert_cases i with
    ⟨hlt, -, -, hnew⟩ | ⟨heq, -, oldest, kept, hq, -, -, hnew⟩ | ⟨heq, -, hnew⟩
  · rw [SendingQueue.size] at hlt
    rw [hnew, if_neg (by omega), List.length_append, List.length_singleton]
  · rw [SendingQueue.size] at heq
    rw [hnew, if_pos (by omega), hq]
    simp
  · rw [SendingQueue.size] at heq
    rw [hnew, if_pos (by omega)]

/-- No more are taken than were offered. -/
theorem offerAll_fst_le (p : Pipeline) (is : List Impression) : (p.offerAll is).1 ≤ is.length := by
  induction is generalizing p with
  | nil => exact Nat.le_refl 0
  | cons i is ih =>
    have hall := ih (p.offer i).2.1
    show (if (p.offer i).1 then 1 else 0) + ((p.offer i).2.1.offerAll is).1 ≤ is.length + 1
    split <;> omega

end Pipeline

/-! ## Steps and ticks -/

namespace Pipeline

/-- A step of the surroundings reports losses only. -/
theorem reportsOf_apply (p : Pipeline) (s : Step) :
    ∃ n, reportsOf (p.apply s).2.2 = p.lossReports n := by
  cases s with
  | offer i => exact ⟨_, p.reportsOf_offer i⟩
  | fill name count => exact ⟨_, p.reportsOf_offerAll _⟩
  | poll max => exact ⟨0, rfl⟩
  | consent value => exact ⟨0, rfl⟩
  | transport t => exact ⟨0, rfl⟩

/-- What a tick polls if the gate lets it. -/
def due (p : Pipeline) : List Impression := p.queue.items.take p.settings.batchSize.toNat

/-- How many items wait after that poll. -/
def remaining (p : Pipeline) : Nat := (p.queue.items.drop p.settings.batchSize.toNat).length

/-- What a tick reports and which batches it hands over, by its outcome. -/
inductive TickReports (p : Pipeline) : Outcome → List Batch → List Measurement → Prop where
  /-- Nothing else is reported by a tick that is refused. -/
  | blocked (closed : p.gate.isDisallowed = true) :
    TickReports p .consentBlocked [] [Report.consentBlocked]
  | empty (isOpen : p.gate.isDisallowed = false) (none_due : p.due = []) :
    TickReports p .empty [] [Report.queueSize p.remaining]
  /-- Losses are reported before the duration of the send: those of late offers. -/
  | sent (isOpen : p.gate.isDisallowed = false) (some_due : p.due ≠ [])
      (accepted : p.transport.failure = none) (late : Nat) (b : Batch)
      (made : b = .ofImpressions p.due p.sdk) :
    TickReports p (.sent b.size) [b]
      (Report.queueSize p.remaining :: p.lossReports late ++
        [Report.sendDuration "success", Report.batchSent])
  /-- Losses are reported after the failure too: those of impressions that are offered again. -/
  | failed (isOpen : p.gate.isDisallowed = false) (some_due : p.due ≠ []) (error : TransportError)
      (refused : p.transport.failure = some error) (late again requeued : Nat) (b : Batch)
      (made : b = .ofImpressions p.due p.sdk) (requeued_le : requeued ≤ b.size)
      (given_up : p.settings.retryFailed = false → requeued = 0) :
    TickReports p (.failed b.size requeued) [b]
      (Report.queueSize p.remaining :: p.lossReports late ++
        [Report.sendDuration (Report.failureResult error), Report.batchFailed] ++
        p.lossReports again ++ p.requeueReports (b.size - requeued))

/-- A batch counts the impressions it was built from. -/
theorem size_ofImpressions (is : List Impression) (sdk : SdkSettings) :
    (Batch.ofImpressions is sdk).size = is.length := by
  simp [Batch.size, Batch.ofImpressions]

/-- Handing a batch over reports the losses of what is offered while it is away, and nothing
else. -/
theorem reportsOf_handOver (p : Pipeline) (is : List Impression) :
    reportsOf (p.handOver is).2 = p.lossReports (p.overflows p.transport.late) := by
  have hevents := reportsOf_noted (is.flatMap Feedback.events)
  have hlate := p.reportsOf_offerAll p.transport.late
  show reportsOf (_ ++ [.handed (.ofImpressions is p.sdk)] ++ _ ++
    (p.offerAll p.transport.late).2.2) = _
  rw [reportsOf_append, hlate, reportsOf_append, reportsOf_append, hevents]
  split <;> rfl

/-- Impressions that were not taken back are reported at once, unless there are none. -/
theorem reportsOf_requeueDropped (p : Pipeline) (lost : Nat) :
    reportsOf (requeueDropped lost p.settings.retryFailed) = p.requeueReports lost := by
  unfold requeueDropped requeueReports
  cases lost <;> rfl

/-- What is offered again after a failure. -/
def offeredAgain (p : Pipeline) (is : List Impression) : List Impression :=
  if p.settings.retryFailed then is else []

/-- No more impressions are taken back than the batch held. -/
theorem requeued_le (p : Pipeline) (is : List Impression) :
    (p.offerAll (p.offeredAgain is)).1 ≤ is.length := by
  have hle := p.offerAll_fst_le (p.offeredAgain is)
  have hagain : (p.offeredAgain is).length ≤ is.length := by
    unfold offeredAgain
    split <;> simp
  omega

/-- Without retries none is taken back. -/
theorem requeued_eq_zero (p : Pipeline) (is : List Impression)
    (h : p.settings.retryFailed = false) : (p.offerAll (p.offeredAgain is)).1 = 0 := by
  rw [offeredAgain, if_neg (by rw [h]; exact Bool.false_ne_true)]
  rfl

/-- A failed send reports how it ended, then the losses of what is offered again, then how many
impressions were not taken back. -/
theorem reportsOf_settle_failed (p : Pipeline) (is : List Impression) (error : TransportError) :
    reportsOf (p.settle is (some error)).2.2 =
      [Report.sendDuration (Report.failureResult error), Report.batchFailed] ++
        p.lossReports (p.overflows (p.offeredAgain is)) ++
        p.requeueReports (is.length - (p.offerAll (p.offeredAgain is)).1) := by
  -- a timeout and any other error are written with the same words that the reports use
  have hduration : sendDuration (some error) =
      .measured (Report.sendDuration (Report.failureResult error)) := by
    cases error <;> rfl
  have hoffers := p.reportsOf_offerAll (p.offeredAgain is)
  have hlost := p.reportsOf_requeueDropped (is.length - (p.offerAll (p.offeredAgain is)).1)
  show reportsOf ([sendDuration (some error), .measured Report.batchFailed] ++
    (p.offerAll (p.offeredAgain is)).2.2 ++
    requeueDropped (is.length - (p.offerAll (p.offeredAgain is)).1) p.settings.retryFailed ++
    [.noted _]) = _
  rw [reportsOf_append, reportsOf_append, reportsOf_append, hoffers, hlost, hduration]
  exact List.append_nil _

/-- The pipeline after the poll of a tick. -/
def polled (p : Pipeline) : Pipeline :=
  { p with queue := (p.queue.poll p.settings.batchSize.toNat).2 }

/-- How a tick starts if the gate is open. -/
theorem start_of_open {p : Pipeline} (h : p.gate.isDisallowed = false) :
    p.start = (if p.due = [] then .done .empty else .sending p.due, p.polled,
      [.noted p.gate.evaluated, .measured (Report.queueSize p.remaining)]) := by
  unfold start
  rw [if_neg (by rw [h]; exact Bool.false_ne_true)]
  rfl

/-- A tick waits forever only if it sends something, and never while collection is refused. -/
theorem isStuck_iff {p : Pipeline} :
    p.isStuck = true ↔ p.gate.isDisallowed = false ∧ p.due ≠ [] ∧ p.transport.answers = false := by
  unfold isStuck
  -- a tick that is refused ends before it sends, whatever the transport does
  cases hgate : p.gate.isDisallowed with
  | true =>
    have hstart : p.start.1 = .done .consentBlocked := by
      unfold start
      rw [if_pos hgate]
    simp [hstart]
  | false =>
    rw [start_of_open hgate]
    by_cases hdue : p.due = []
    · simp [hdue]
    · simp [hdue]

/-- A tick that is refused, or finds nothing, ends as it starts. -/
theorem answeredTick_of_done {p : Pipeline} {outcome : Outcome} (h : p.start.1 = .done outcome) :
    p.answeredTick = (outcome, p.start.2) := by
  unfold answeredTick
  rcases hs : p.start with ⟨start, p', hs'⟩
  rw [hs] at h
  cases h
  rfl

/-- A tick that is refused touches nothing. -/
theorem answeredTick_of_disallowed {p : Pipeline} (h : p.gate.isDisallowed = true) :
    p.answeredTick = (.consentBlocked, p, p.start.2.2) := by
  have hstart : p.start = (.done .consentBlocked, p, p.start.2.2) := by
    unfold start
    rw [if_pos h]
  rw [answeredTick_of_done (congrArg Prod.fst hstart), hstart]

/-- A tick that finds nothing has polled in vain. -/
theorem answeredTick_of_none_due {p : Pipeline} (h : p.gate.isDisallowed = false)
    (hdue : p.due = []) : p.answeredTick = (.empty, p.polled, p.start.2.2) := by
  have hstart := start_of_open h
  rw [if_pos hdue] at hstart
  rw [answeredTick_of_done (congrArg Prod.fst hstart), hstart]

/-- The parts of a tick that has something to send. -/
theorem answeredTick_of_due {p : Pipeline} (h : p.gate.isDisallowed = false) (hdue : p.due ≠ []) :
    let sending := p.polled.handOver p.due
    let settled := sending.1.settle p.due p.transport.failure
    p.answeredTick = (settled.1, settled.2.1, p.start.2.2 ++ sending.2 ++ settled.2.2) := by
  unfold answeredTick
  rw [start_of_open h, if_neg hdue]

/-- The reports of a tick that is answered are those of one of the four cases, the one that fits its
outcome. -/
theorem tickReports_tick (p : Pipeline) :
    p.TickReports p.answeredTick.1 (batchesOf p.answeredTick.2.2)
      (reportsOf p.answeredTick.2.2) := by
  cases hgate : p.gate.isDisallowed with
  | true =>
    have hreports : reportsOf p.start.2.2 = [Report.consentBlocked] := by
      unfold start; rw [if_pos hgate]; rfl
    rw [answeredTick_of_disallowed hgate, batchesOf_start, hreports]
    exact .blocked hgate
  | false =>
    have hreports : reportsOf p.start.2.2 = [Report.queueSize p.remaining] := by
      rw [start_of_open hgate]; rfl
    by_cases hdue : p.due = []
    · rw [answeredTick_of_none_due hgate hdue, batchesOf_start, hreports]
      exact .empty hgate hdue
    · -- the batch is built before the late offers, and the policy is set once
      have hlate := p.polled.reportsOf_handOver p.due
      have hconf : (p.polled.handOver p.due).1.configuration = p.configuration :=
        p.polled.configuration_handOver p.due
      have hbatch := p.polled.batchesOf_handOver p.due
      have hsize := size_ofImpressions p.due p.sdk
      -- only what was just noted of the hand-over matters from here on
      rw [answeredTick_of_due hgate hdue]
      generalize p.polled.handOver p.due = sending at hlate hconf hbatch
      dsimp only
      rw [batchesOf_append, batchesOf_append, batchesOf_start, hbatch, batchesOf_settle,
        reportsOf_append, reportsOf_append, hreports, hlate]
      cases herror : p.transport.failure with
      | none =>
        have h := TickReports.sent hgate hdue herror
          (p.polled.overflows p.polled.transport.late) _ rfl
        rw [hsize] at h
        exact h
      | some error =>
        have hle := sending.1.requeued_le p.due
        have hgone := sending.1.requeued_eq_zero p.due
        rw [settings_eq hconf] at hgone
        have h := TickReports.failed hgate hdue error herror
          (p.polled.overflows p.polled.transport.late)
          (sending.1.overflows (sending.1.offeredAgain p.due))
          (sending.1.offerAll (sending.1.offeredAgain p.due)).1 _ rfl (hsize ▸ hle) hgone
        -- the queue that late offers left has another content, but the same policy and settings
        rw [reportsOf_settle_failed, lossReports_eq hconf, requeueReports, settings_eq hconf]
        rw [hsize] at h
        simp only [List.append_assoc, List.cons_append] at h ⊢
        exact h

end Pipeline

/-! ## What reports add up to -/

namespace Pipeline

/-- Loss reports count under their own name and under no other. -/
theorem countP_lossReports (p : Pipeline) (n : Nat) (q : Measurement → Bool) :
    (p.lossReports n).countP q = if q (Report.dropped p.queue.overflow) then n else 0 := by
  rw [lossReports, List.countP_replicate]

/-- So do reports of impressions that were not taken back. -/
theorem countP_requeueReports (p : Pipeline) (lost : Nat) (q : Measurement → Bool)
    (hq : q (Report.requeueDropped lost p.settings.retryFailed) = false) :
    (p.requeueReports lost).countP q = 0 := by
  unfold requeueReports
  split <;> simp [hq]

/-- What is reported as not taken back was given up exactly if retries are off. -/
theorem sum_givenUp_requeueReports (p : Pipeline) (lost : Nat) :
    ((p.requeueReports lost).map Report.givenUp).sum =
      if p.settings.retryFailed then 0 else lost := by
  unfold requeueReports
  split
  · simp
  · split <;> simp; omega

/-- An item that the queue loses does not count as given up. -/
theorem sum_givenUp_lossReports (p : Pipeline) (n : Nat) :
    ((p.lossReports n).map Report.givenUp).sum = 0 := by
  simp [lossReports]

end Pipeline

/-- A batch was accepted. -/
def Outcome.isSent : Outcome → Bool
  | sent _ => true
  | _ => false

/-- A batch was not accepted. -/
def Outcome.isFailed : Outcome → Bool
  | failed .. => true
  | _ => false

/-- What the reports of a tick add up to. -/
theorem Pipeline.TickReports.counts {p : Pipeline} {outcome : Outcome} {batches : List Batch}
    {reports : List Measurement} (h : p.TickReports outcome batches reports) :
    reports.countP (·.name = "dispatch.send_duration") = batches.length ∧
    reports.countP (·.name = "dispatch.batch.sent") = (if outcome.isSent then 1 else 0) ∧
    reports.countP (·.name = "dispatch.batch.failed") = (if outcome.isFailed then 1 else 0) ∧
    (reports.countP fun m => m.name = "dispatch.send_duration" ∧ m.tags = [("result", "success")]) =
      (if outcome.isSent then 1 else 0) ∧
    (reports.countP fun m => m.name = "dispatch.send_duration" ∧ m.tags = [("result", "timeout")]) =
      (if outcome.isFailed ∧ p.transport.failure = some .timedOut then 1 else 0) ∧
    (reports.map Report.givenUp).sum =
      (if outcome.isFailed ∧ p.settings.retryFailed = false then p.due.length else 0) := by
  have hcount := p.countP_lossReports
  have hsum := p.sum_givenUp_lossReports
  -- both kinds of loss reports have names of their own, so they drop out of every count but the
  -- last
  cases h with
  | blocked closed => simp [Outcome.isSent, Outcome.isFailed]
  | empty isOpen none_due => simp [Outcome.isSent, Outcome.isFailed]
  | sent isOpen some_due accepted late b made =>
    simp [hcount, hsum, Outcome.isSent, Outcome.isFailed]
  | failed isOpen some_due error refused late again requeued b made requeued_le given_up =>
    have hnone := p.countP_requeueReports (b.size - requeued)
    refine ⟨?_, ?_, ?_, ?_, ?_, ?_⟩
    · simp [hcount, hnone]
    · simp [hcount, hnone, Outcome.isSent]
    · simp [hcount, hnone, Outcome.isFailed]
    · simp [hcount, hnone, Outcome.isSent]
    · simp [hcount, hnone, Outcome.isFailed, refused, List.countP_cons]
    · -- a batch that is not offered again is reported whole
      have hlost : p.settings.retryFailed = false → b.size - requeued = p.due.length := by
        intro hretry
        rw [given_up hretry, Nat.sub_zero, made, Pipeline.size_ofImpressions]
      have hsum' := p.sum_givenUp_requeueReports (b.size - requeued)
      cases hretry : p.settings.retryFailed with
      | true => simp [hsum, hsum', hretry]
      | false =>
        rw [hlost hretry, hretry] at hsum'
        simp [hsum, hsum', hlost hretry, Outcome.isFailed]

/-- A batch is handed over by a tick that ends with an answer to it, and holds what was due. -/
theorem Pipeline.TickReports.batches_eq {p : Pipeline} {outcome : Outcome} {batches : List Batch}
    {reports : List Measurement} (h : p.TickReports outcome batches reports) :
    batches =
      if outcome.isSent ∨ outcome.isFailed then [.ofImpressions p.due p.sdk] else [] := by
  cases h with
  | blocked closed => rfl
  | empty isOpen none_due => rfl
  | sent isOpen some_due accepted late b made => rw [made]; rfl
  | failed isOpen some_due error refused late again requeued b made requeued_le given_up =>
    rw [made]; rfl

end ClientMetrics
