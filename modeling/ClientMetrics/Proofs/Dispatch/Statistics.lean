import ClientMetrics.Proofs.Dispatch.Reports
import ClientMetrics.Proofs.Dispatch.Surroundings

/-!
# What the statistics account for

Over any sequence of actions the reports of a pipeline add up to what happened. Two of the counters
overlap: an impression of a failed batch that is offered again and refused counts under both. One
that is evicted counts only as a loss of the queue, and one that is given up only as a loss of its
batch. So the balance has the losses of the queue and, of the other counter, what was given up.

* `Occurrence` — one action of a sequence, with what it found and what it left;
* `Counted` — how many wait after a part of an action, by the losses it reports;
* `Occurrence.Tallied` — what one action adds to the statistics (`tallied_occur`);
* `Statistics` — what the statistics of a sequence say (`statistics_performAll`).
-/

namespace ClientMetrics

open Statsd (Measurement)

/-! ## Actions and what comes of them -/

/-- How a tick ended, if the answer is that of a tick. -/
def Reply.outcome? : Reply → Option Outcome
  | outcome o => some o
  | _ => none

/-- The answer to a step is not the outcome of a tick. -/
@[simp] theorem Pipeline.outcome?_apply (p : Pipeline) (s : Step) :
    (p.apply s).1.outcome? = none := by
  cases s <;> rfl

/-- One action of a sequence. -/
structure Occurrence where
  found : Pipeline
  action : Action
  reply : Reply
  left : Pipeline
  happenings : List Happening

namespace Pipeline

/-- An action and what comes of it. -/
def occur (p : Pipeline) (a : Action) : Occurrence :=
  ⟨p, a, (p.perform a).1, (p.perform a).2.1, (p.perform a).2.2⟩

/-- Actions one after the other and what comes of them, up to the first that does not return. -/
def occurrences (p : Pipeline) : List Action → List Occurrence
  | [] => []
  | a :: actions =>
    if p.returns a then p.occur a :: (p.perform a).2.1.occurrences actions else []

/-- A tick that returns, and what comes of it. -/
def ticked (p : Pipeline) : Occurrence :=
  ⟨p, .tick, .outcome p.answeredTick.1, p.answeredTick.2.1, p.answeredTick.2.2⟩

/-- A tick that returns is what becomes of it. -/
theorem occur_tick {p : Pipeline} (h : p.returns .tick) : p.occur .tick = p.ticked := by
  rw [occur, perform_tick h]
  rfl

/-- What comes of an action that returns is followed by what comes of those after it. -/
theorem occurrences_cons {p : Pipeline} {a : Action} (h : p.returns a) (actions : List Action) :
    p.occurrences (a :: actions) = p.occur a :: (p.perform a).2.1.occurrences actions := by
  rw [occurrences, if_pos h]

/-- Nothing comes of an action that does not return, or of any after it. -/
theorem occurrences_of_stuck {p : Pipeline} {a : Action} (h : ¬p.returns a)
    (actions : List Action) : p.occurrences (a :: actions) = [] := by
  rw [occurrences, if_neg h]

/-- The replies and happenings of a sequence are those of its occurrences, one after the other. -/
theorem performAll_eq_occurrences (p : Pipeline) (actions : List Action) :
    (p.performAll actions).1 = (p.occurrences actions).map (·.reply) ∧
      (p.performAll actions).2.2 = (p.occurrences actions).flatMap (·.happenings) := by
  induction actions generalizing p with
  | nil => exact ⟨rfl, rfl⟩
  | cons a actions ih =>
    -- either the action returns and the others follow, or it is the last of all
    by_cases h : p.returns a
    · obtain ⟨hreplies, hhappenings⟩ := ih (p.perform a).2.1
      rw [performAll_cons h, occurrences_cons h]
      exact ⟨congrArg ((p.perform a).1 :: ·) hreplies,
        congrArg ((p.perform a).2.2 ++ ·) hhappenings⟩
    · rw [performAll_of_stuck h, occurrences_of_stuck h]
      exact ⟨rfl, rfl⟩

/-- The settings and the policy are the same after any tick. -/
theorem configuration_answeredTick (p : Pipeline) :
    p.answeredTick.2.1.configuration = p.configuration := by
  unfold answeredTick
  have hstart := p.configuration_start
  rcases hs : p.start with ⟨outcome | is, p', hs'⟩ <;> rw [hs] at hstart
  · exact hstart
  · exact (configuration_settle ..).trans ((configuration_handOver ..).trans hstart)

/-- So are they after any action. -/
@[simp] theorem configuration_perform (p : Pipeline) (a : Action) :
    (p.perform a).2.1.configuration = p.configuration := by
  cases a with
  | step s => exact p.configuration_apply s
  | tick =>
    unfold perform tick
    cases p.isStuck with
    | true => rfl
    | false => exact p.configuration_answeredTick

end Pipeline

namespace Occurrence

/-- How many impressions came in: those of a step, or the late ones if a send started. -/
def offered (o : Occurrence) : Nat :=
  match o.action with
  | .step s => s.offers.card
  | .tick => if batchesOf o.happenings = [] then 0 else o.found.transport.late.length

/-- How many impressions a poll returned. -/
def returned (o : Occurrence) : Nat := o.reply.removed.card

/-- A batch was accepted. -/
def isSent (o : Occurrence) : Bool := o.reply.outcome?.any Outcome.isSent

/-- A batch was not accepted because its send was given up. -/
def isTimedOut (o : Occurrence) : Bool :=
  o.reply.outcome?.any Outcome.isFailed && o.found.transport.failure = some .timedOut

/-- How many impressions are in an accepted batch. -/
def accepted (o : Occurrence) : Nat :=
  if o.isSent then ((batchesOf o.happenings).map Batch.size).sum else 0

end Occurrence

/-! ## How many wait -/

/-- So many came in and so many went out, apart from those that were lost, and the losses are
reported. -/
structure Counted (p : Pipeline) (came : Nat) (hs : List Happening) (p' : Pipeline) (went : Nat) :
    Prop where
  size : p.queue.size + came = p'.queue.size + (went + reportCount "queue.dropped" hs)
  losses : p'.queue.losses = p.queue.losses + UInt64.ofNat (reportCount "queue.dropped" hs)

namespace Counted

variable {p p' p'' : Pipeline} {came came' went went' : Nat} {hs hs' : List Happening}

/-- Where no loss is reported, what came in and went out makes up the difference. -/
theorem of_silent (hsize : p.queue.size + came = p'.queue.size + went)
    (hlosses : p'.queue.losses = p.queue.losses) (hs0 : reportCount "queue.dropped" hs = 0) :
    Counted p came hs p' went where
  size := by rw [hs0]; exact hsize
  losses := by rw [hs0, hlosses]; exact (UInt64.add_zero _).symm

/-- The losses of two parts, one after the other, add up. -/
theorem trans (h : Counted p came hs p' went) (h' : Counted p' came' hs' p'' went') :
    Counted p (came + came') (hs ++ hs') p'' (went + went') where
  size := by
    have h₁ := h.size
    have h₂ := h'.size
    rw [reportCount_append]
    omega
  losses := by rw [h'.losses, h.losses, reportCount_append, UInt64.ofNat_add, UInt64.add_assoc]

end Counted

namespace Pipeline

/-- An offer brings one impression in, and a full queue loses one for it. -/
theorem counted_offer (p : Pipeline) (i : Impression) :
    Counted p 1 (p.offer i).2.2 (p.offer i).2.1 0 := by
  have hcount : reportCount "queue.dropped" (p.offer i).2.2 = if p.queue.isFull then 1 else 0 := by
    simp [reportCount, reportsOf_offer, countP_lossReports]
  have hlosses : (p.offer i).2.1.queue.losses = _ := p.queue.losses_offer i
  refine ⟨?_, ?_⟩
  · -- the queue grows by one, unless the loss of one is reported
    rw [hcount, Nat.zero_add]
    exact p.size_offer i
  · rw [hcount, hlosses]
    split <;> rfl

/-- Many offers bring all of theirs in. -/
theorem counted_offerAll (p : Pipeline) (is : List Impression) :
    Counted p is.length (p.offerAll is).2.2 (p.offerAll is).2.1 0 := by
  induction is generalizing p with
  | nil => exact .of_silent rfl rfl rfl
  | cons i is ih =>
    have h := (p.counted_offer i).trans (ih (p.offer i).2.1)
    rw [Nat.add_comm] at h
    exact h

/-- A step brings in what it offers, and takes out what it polls. -/
theorem counted_apply (p : Pipeline) (s : Step) :
    Counted p s.offers.card (p.apply s).2.2 (p.apply s).2.1 (p.apply s).1.removed.card := by
  cases s with
  | offer i => exact p.counted_offer i
  | fill name count => exact p.counted_offerAll _
  | poll max =>
    -- a poll reports nothing, and moves what it returns out of the queue
    refine .of_silent ?_ rfl rfl
    show p.queue.items.length + 0 =
      (p.queue.items.drop max).length + (p.queue.items.take max).length
    rw [List.length_drop, List.length_take]
    omega
  | consent value => exact .of_silent rfl rfl rfl
  | transport t => exact .of_silent rfl rfl rfl

/-- The poll of a tick takes out what is due. -/
theorem counted_start {p : Pipeline} (h : p.gate.isDisallowed = false) :
    Counted p 0 p.start.2.2 p.start.2.1 p.due.length := by
  rw [start_of_open h]
  refine .of_silent ?_ rfl rfl
  show p.queue.items.length + 0 = (p.queue.items.drop _).length + (p.queue.items.take _).length
  rw [List.length_drop, List.length_take]
  omega

/-- Handing a batch over brings in what is offered meanwhile. -/
theorem counted_handOver (p : Pipeline) (is : List Impression) :
    Counted p p.transport.late.length (p.handOver is).2 (p.handOver is).1 0 := by
  have hoffers := p.counted_offerAll p.transport.late
  have hreports : reportCount "queue.dropped" (p.handOver is).2 =
      reportCount "queue.dropped" (p.offerAll p.transport.late).2.2 := by
    rw [reportCount, reportsOf_handOver, reportCount, reportsOf_offerAll]
  exact ⟨hreports ▸ hoffers.size, hreports ▸ hoffers.losses⟩

/-- A batch that failed comes in again if it is to be retried. -/
theorem counted_settle (p : Pipeline) (is : List Impression) (failure : Option TransportError) :
    Counted p is.length (p.settle is failure).2.2 (p.settle is failure).2.1
      (if failure.isSome ∧ p.settings.retryFailed then 0 else is.length) := by
  cases failure with
  | none => exact .of_silent rfl rfl rfl
  | some error =>
    have hoffers := p.counted_offerAll (p.offeredAgain is)
    have hreports : reportCount "queue.dropped" (p.settle is (some error)).2.2 =
        reportCount "queue.dropped" (p.offerAll (p.offeredAgain is)).2.2 := by
      rw [reportCount, reportsOf_settle_failed, reportCount, reportsOf_offerAll]
      simp [countP_requeueReports]
    refine ⟨?_, hreports ▸ hoffers.losses⟩
    rw [hreports]
    have hsize := hoffers.size
    show _ = (p.offerAll (p.offeredAgain is)).2.1.queue.size + _
    cases hretry : p.settings.retryFailed with
    | true =>
      have hagain : p.offeredAgain is = is := by rw [offeredAgain, if_pos hretry]
      rw [hagain] at hsize ⊢
      simpa using hsize
    | false =>
      -- nothing is offered, and the impressions of the batch are gone
      have hagain : p.offeredAgain is = [] := by
        rw [offeredAgain, if_neg (by rw [hretry]; exact Bool.false_ne_true)]
      rw [hagain] at hsize ⊢
      simp only [List.length_nil, Option.isSome_some, Bool.false_eq_true, and_false,
        if_false] at hsize ⊢
      omega

/-- A tick that sends something takes late offers in, and what it polled goes out unless it is
offered again. -/
theorem counted_tick_of_due {p : Pipeline} (h : p.gate.isDisallowed = false) (hdue : p.due ≠ []) :
    Counted p p.transport.late.length p.answeredTick.2.2 p.answeredTick.2.1
      (if p.transport.failure.isSome ∧ p.settings.retryFailed then 0 else p.due.length) := by
  have hstart := counted_start h
  have hpolled : p.start.2.1 = p.polled := by rw [start_of_open h]
  rw [hpolled] at hstart
  have hhanded := p.polled.counted_handOver p.due
  have hconf : (p.polled.handOver p.due).1.configuration = p.configuration :=
    p.polled.configuration_handOver p.due
  have hsettled := (p.polled.handOver p.due).1.counted_settle p.due p.transport.failure
  rw [settings_eq hconf] at hsettled
  rw [answeredTick_of_due h hdue]
  -- what was polled goes out first and comes in again to be settled
  have hall := (hstart.trans hhanded).trans hsettled
  refine ⟨?_, hall.losses⟩
  have hsize := hall.size
  have hlate : p.polled.transport = p.transport := rfl
  rw [hlate] at hsize
  dsimp only at hsize ⊢
  omega

end Pipeline

/-- What a tick polled goes out if it is accepted or given up. -/
def Pipeline.spentBy (p : Pipeline) (outcome : Outcome) : Nat :=
  (if outcome.isSent then p.due.length else 0) +
    if outcome.isFailed ∧ p.settings.retryFailed = false then p.due.length else 0

/-- A tick takes late offers in if it sends something, and what it spent goes out. -/
theorem Pipeline.counted_tick (p : Pipeline) :
    Counted p p.ticked.offered p.answeredTick.2.2 p.answeredTick.2.1
      (p.spentBy p.answeredTick.1) := by
  have hreports := p.tickReports_tick
  have hoffered : p.ticked.offered =
      if batchesOf p.answeredTick.2.2 = [] then 0 else p.transport.late.length := rfl
  rw [hoffered]
  generalize houtcome : p.answeredTick.1 = outcome at hreports ⊢
  generalize batchesOf p.answeredTick.2.2 = batches at hreports ⊢
  generalize hrs : reportsOf p.answeredTick.2.2 = reports at hreports
  -- by the outcome of the tick, as its reports tell it
  cases hreports with
  | blocked closed =>
    have hleft : p.answeredTick.2.1 = p := by rw [answeredTick_of_disallowed closed]
    exact .of_silent (by rw [hleft]; rfl) (by rw [hleft]) (by simp [reportCount, hrs])
  | empty isOpen none_due =>
    have hstart := counted_start isOpen
    have hpolled : p.start.2.1 = p.polled := by rw [start_of_open isOpen]
    rw [none_due, hpolled] at hstart
    rw [answeredTick_of_none_due isOpen none_due]
    exact hstart
  | sent isOpen some_due accepted late b made =>
    have hdue := counted_tick_of_due isOpen some_due
    rw [accepted] at hdue
    exact hdue
  | failed isOpen some_due error refused late again requeued b made requeued_le given_up =>
    have hdue := counted_tick_of_due isOpen some_due
    rw [refused] at hdue
    have hspent : p.spentBy (.failed b.size requeued) =
        if (some error).isSome ∧ p.settings.retryFailed then 0 else p.due.length := by
      cases hretry : p.settings.retryFailed <;>
        simp [spentBy, Outcome.isSent, Outcome.isFailed, hretry]
    rw [hspent]
    exact hdue

/-! ## What one action adds to the statistics -/

namespace Occurrence

/-- What an action adds to the statistics is what it did. -/
structure Tallied (o : Occurrence) : Prop where
  /-- An impression that came in waits, or it was accepted, returned, lost or given up. -/
  conserved : o.found.queue.size + o.offered =
    o.left.queue.size + (o.accepted + o.returned + reportCount "queue.dropped" o.happenings +
      givenUpCount o.happenings)
  dropped : o.left.queue.losses =
    o.found.queue.losses + UInt64.ofNat (reportCount "queue.dropped" o.happenings)
  sends : reportCount "dispatch.send_duration" o.happenings = (batchesOf o.happenings).length
  ends : reportCount "dispatch.send_duration" o.happenings =
    reportCount "dispatch.batch.sent" o.happenings +
      reportCount "dispatch.batch.failed" o.happenings
  sent : reportCount "dispatch.batch.sent" o.happenings = if o.isSent then 1 else 0
  successes : resultCount "success" o.happenings = reportCount "dispatch.batch.sent" o.happenings
  timeouts : resultCount "timeout" o.happenings = if o.isTimedOut then 1 else 0

/-- A step adds its losses to the statistics, and nothing else. -/
theorem tallied_step (p : Pipeline) (s : Step) : (p.occur (.step s)).Tallied := by
  obtain ⟨n, hreports⟩ := p.reportsOf_apply s
  have hcounted := p.counted_apply s
  have hsent : (p.occur (.step s)).isSent = false := by
    simp [isSent, Pipeline.occur, Pipeline.perform]
  have htimedOut : (p.occur (.step s)).isTimedOut = false := by
    simp [isTimedOut, Pipeline.occur, Pipeline.perform]
  -- nothing but losses is reported
  have hnames : ∀ name, name ≠ "queue.dropped" → reportCount name (p.apply s).2.2 = 0 := by
    intro name hname
    simp [reportCount, hreports, Pipeline.countP_lossReports, hname.symm]
  have hresults : ∀ result, resultCount result (p.apply s).2.2 = 0 := by
    intro result
    simp [resultCount, hreports, Pipeline.countP_lossReports]
  have hgivenUp : givenUpCount (p.apply s).2.2 = 0 := by
    rw [givenUpCount, hreports, Pipeline.sum_givenUp_lossReports]
  have haccepted : reportCount "dispatch.batch.sent" (p.apply s).2.2 = 0 := hnames _ (by decide)
  have hsends : reportCount "dispatch.send_duration" (p.apply s).2.2 = 0 := hnames _ (by decide)
  have hfailed : reportCount "dispatch.batch.failed" (p.apply s).2.2 = 0 := hnames _ (by decide)
  exact {
    conserved := by
      have hsize := hcounted.size
      rw [accepted, hsent]
      show p.queue.size + s.offers.card = (p.apply s).2.1.queue.size +
        (0 + (p.apply s).1.removed.card + reportCount "queue.dropped" (p.apply s).2.2 +
          givenUpCount (p.apply s).2.2)
      omega
    dropped := hcounted.losses
    sends := hsends.trans (congrArg List.length (p.batchesOf_apply s)).symm
    ends := by
      show reportCount _ (p.apply s).2.2 =
        reportCount _ (p.apply s).2.2 + reportCount _ (p.apply s).2.2
      omega
    sent := by rw [hsent]; exact haccepted
    successes := (hresults _).trans haccepted.symm
    timeouts := by rw [htimedOut]; exact hresults _ }

/-- A tick that returns adds what its outcome calls for. -/
theorem tallied_ticked (p : Pipeline) : p.ticked.Tallied := by
  obtain ⟨hsends, hsent, hfailed, hsuccesses, htimeouts, hgivenUp⟩ := p.tickReports_tick.counts
  have hcounted := p.counted_tick
  have hbatches := p.tickReports_tick.batches_eq
  -- what was accepted is the batch that the tick handed over, if it was sent
  have haccepted : p.ticked.accepted = if p.answeredTick.1.isSent then p.due.length else 0 := by
    show (if p.answeredTick.1.isSent then
      ((batchesOf p.answeredTick.2.2).map Batch.size).sum else 0) = _
    split
    next h =>
      rw [hbatches, if_pos (.inl h)]
      exact Pipeline.size_ofImpressions _ _
    next => rfl
  exact {
    conserved := by
      have hsize := hcounted.size
      have hreturned : p.ticked.returned = 0 := rfl
      rw [haccepted, hreturned]
      show p.queue.size + _ = p.answeredTick.2.1.queue.size +
        (_ + reportCount _ p.answeredTick.2.2 + givenUpCount p.answeredTick.2.2)
      rw [givenUpCount, hgivenUp]
      rw [Pipeline.spentBy] at hsize
      omega
    dropped := hcounted.losses
    sends := hsends
    ends := by
      show reportCount _ p.answeredTick.2.2 =
        reportCount _ p.answeredTick.2.2 + reportCount _ p.answeredTick.2.2
      rw [reportCount, hsends, reportCount, hsent, reportCount, hfailed, hbatches]
      cases p.answeredTick.1 <;> rfl
    sent := hsent
    successes := hsuccesses.trans hsent.symm
    timeouts := by
      have hiff : p.ticked.isTimedOut =
          (p.answeredTick.1.isFailed && decide (p.transport.failure = some .timedOut)) := rfl
      rw [hiff]
      simp only [Bool.and_eq_true, decide_eq_true_eq]
      exact htimeouts }

/-- Whatever returns adds to the statistics what it did. -/
theorem tallied_occur {p : Pipeline} {a : Action} (h : p.returns a) : (p.occur a).Tallied := by
  cases a with
  | step s => exact tallied_step p s
  | tick =>
    rw [Pipeline.occur_tick h]
    exact tallied_ticked p

end Occurrence

/-! ## Sequences of actions -/

/-- Every occurrence of a sequence adds what it did, under the settings of the first. -/
theorem Pipeline.tallied_of_mem {p : Pipeline} {actions : List Action} {o : Occurrence}
    (h : o ∈ p.occurrences actions) :
    o.Tallied ∧ o.found.configuration = p.configuration ∧
      ∃ q a, q.returns a ∧ o = Pipeline.occur q a := by
  induction actions generalizing p with
  | nil => cases h
  | cons a actions ih =>
    by_cases hreturns : p.returns a
    · rw [occurrences_cons hreturns] at h
      -- the action of the occurrence is the first one, or one of those after it
      rcases List.mem_cons.1 h with rfl | h
      · exact ⟨Occurrence.tallied_occur hreturns, rfl, p, a, hreturns, rfl⟩
      · obtain ⟨htallied, hconf, hoccur⟩ := ih h
        exact ⟨htallied, hconf.trans (p.configuration_perform a), hoccur⟩
    · rw [occurrences_of_stuck hreturns] at h
      cases h

/-- The occurrences of a sequence are those of its actions that return. -/
theorem Pipeline.map_action_occurrences (p : Pipeline) (actions : List Action) :
    (p.occurrences actions).map Occurrence.action = p.returned actions := by
  induction actions generalizing p with
  | nil => rfl
  | cons a actions ih =>
    by_cases h : p.returns a
    · rw [occurrences_cons h, returned_cons h, List.map_cons, ih]
      rfl
    · rw [occurrences_of_stuck h, returned_of_stuck h]
      rfl

/-- Over a sequence of actions the queue changes by what their tallies say. -/
theorem Pipeline.conserved_performAll (p : Pipeline) (actions : List Action) :
    p.queue.size + ((p.occurrences actions).map Occurrence.offered).sum =
      (p.performAll actions).2.1.queue.size +
        (((p.occurrences actions).map Occurrence.accepted).sum +
          ((p.occurrences actions).map Occurrence.returned).sum +
          reportCount "queue.dropped" (p.performAll actions).2.2 +
          givenUpCount (p.performAll actions).2.2) ∧
    (p.performAll actions).2.1.queue.losses =
      p.queue.losses + UInt64.ofNat (reportCount "queue.dropped" (p.performAll actions).2.2) := by
  induction actions generalizing p with
  | nil => exact ⟨rfl, (UInt64.add_zero _).symm⟩
  | cons a actions ih =>
    by_cases h : p.returns a
    case neg =>
      -- nothing takes place from here on
      rw [performAll_of_stuck h, occurrences_of_stuck h]
      exact ⟨rfl, (UInt64.add_zero _).symm⟩
    -- what this action left is what the others found
    obtain ⟨hsize, hlosses⟩ := ih (p.perform a).2.1
    have hone := Occurrence.tallied_occur h
    have hconserved := hone.conserved
    have hdropped := hone.dropped
    have hfound : (p.occur a).found = p := rfl
    have hleft : (p.occur a).left = (p.perform a).2.1 := rfl
    have hhappenings : (p.occur a).happenings = (p.perform a).2.2 := rfl
    rw [hfound, hleft, hhappenings] at hconserved hdropped
    simp only [performAll_cons h, occurrences_cons h, List.map_cons, List.sum_cons,
      reportCount_append, givenUpCount_append]
    refine ⟨by omega, ?_⟩
    rw [UInt64.ofNat_add, ← UInt64.add_assoc, ← hdropped]
    exact hlosses

/-- What holds of single actions holds of all of them together. -/
theorem Occurrence.tallied_flatMap {os : List Occurrence} (h : ∀ o ∈ os, o.Tallied) :
    let hs := os.flatMap happenings
    reportCount "dispatch.send_duration" hs = (batchesOf hs).length ∧
    reportCount "dispatch.send_duration" hs =
      reportCount "dispatch.batch.sent" hs + reportCount "dispatch.batch.failed" hs ∧
    reportCount "dispatch.batch.sent" hs = os.countP isSent ∧
    resultCount "success" hs = reportCount "dispatch.batch.sent" hs ∧
    resultCount "timeout" hs = os.countP isTimedOut := by
  induction os with
  | nil => exact ⟨rfl, rfl, rfl, rfl, rfl⟩
  | cons o os ih =>
    obtain ⟨hsends, hends, hsent, hsuccesses, htimeouts⟩ :=
      ih fun o' ho' => h o' (List.mem_cons_of_mem o ho')
    -- all counts are sums over the occurrences, to which the first one adds its own
    have hone := h o List.mem_cons_self
    have hone₁ := hone.sends
    have hone₂ := hone.ends
    have hone₃ := hone.sent
    have hone₄ := hone.successes
    have hone₅ := hone.timeouts
    simp only [List.flatMap_cons, reportCount_append, resultCount_append, batchesOf_append,
      List.length_append, List.countP_cons]
    omega

/-- What the statistics say of a sequence of actions that started with an empty queue. -/
structure Statistics (dispatch : DispatchSettings) (policy : Overflow)
    (occurrences : List Occurrence) (left : Pipeline) (hs : List Happening) : Prop where
  /-- Every loss to a full queue is reported. The counter of losses has 64 bits. -/
  dropped : left.queue.dropped = reportCount "queue.dropped" hs % 2 ^ 64
  /-- A tick reports what its outcome calls for, and is dispatched by the same settings. -/
  ticks : ∀ o ∈ occurrences, o.action = .tick → ∃ outcome, o.reply = .outcome outcome ∧
    o.found.TickReports outcome (batchesOf o.happenings) (reportsOf o.happenings)
  /-- Anything else reports losses only. -/
  steps : ∀ o ∈ occurrences, o.action ≠ .tick →
    ∀ m ∈ reportsOf o.happenings, m = Report.dropped policy
  /-- All of it under the same settings. -/
  settings : ∀ o ∈ occurrences, o.found.settings = dispatch ∧ o.found.queue.overflow = policy
  /-- Every batch that is handed over has its duration reported, and that it was sent or failed. -/
  sends : reportCount "dispatch.send_duration" hs = (batchesOf hs).length
  ends : reportCount "dispatch.send_duration" hs =
    reportCount "dispatch.batch.sent" hs + reportCount "dispatch.batch.failed" hs
  sent : reportCount "dispatch.batch.sent" hs = occurrences.countP Occurrence.isSent
  successes : resultCount "success" hs = reportCount "dispatch.batch.sent" hs
  timeouts : resultCount "timeout" hs = occurrences.countP Occurrence.isTimedOut
  /-- An impression that was offered is in an accepted batch, in the answer to a poll or in the
  queue, or its loss is reported: it was lost to a full queue, or given up. -/
  conserved : (occurrences.map Occurrence.offered).sum =
    (occurrences.map Occurrence.accepted).sum + (occurrences.map Occurrence.returned).sum +
      left.queue.size + reportCount "queue.dropped" hs + givenUpCount hs

/-- Whatever is done to a pipeline whose queue is empty, its statistics account for it. All of it
returns as long as every transport answers. -/
theorem Pipeline.statistics_performAll (queue : QueueSettings) (dispatch : DispatchSettings)
    (privacy : PrivacySettings) (sdk : SdkSettings) (actions : List Action) :
    let idle := ofSettings queue dispatch privacy sdk
    let (replies, left, hs) := idle.performAll actions
    let os := idle.occurrences actions
    os.map Occurrence.reply = replies ∧ os.flatMap Occurrence.happenings = hs ∧
      Statistics dispatch queue.overflow os left hs ∧
      ((∀ a ∈ actions, a.answers) → os.map Occurrence.action = actions) := by
  intro idle
  obtain ⟨hreplies, hhappenings⟩ := idle.performAll_eq_occurrences actions
  obtain ⟨hconserved, hdropped⟩ := idle.conserved_performAll actions
  have hmem : ∀ o ∈ idle.occurrences actions, o.Tallied ∧
      o.found.configuration = idle.configuration ∧
        ∃ q a, q.returns a ∧ o = Pipeline.occur q a := by
    intro o ho
    exact tallied_of_mem ho
  obtain ⟨hsends, hends, hsent, hsuccesses, htimeouts⟩ :=
    Occurrence.tallied_flatMap fun o ho => (hmem o ho).1
  rw [← hhappenings] at hsends hends hsent hsuccesses htimeouts
  show _ ∧ _ ∧ Statistics dispatch queue.overflow (idle.occurrences actions)
    (idle.performAll actions).2.1 (idle.performAll actions).2.2 ∧ _
  refine ⟨hreplies.symm, hhappenings.symm, ?_, fun hanswers =>
    (idle.map_action_occurrences actions).trans (returned_of_answers rfl hanswers)⟩
  exact {
    dropped := by
      unfold SendingQueue.dropped
      rw [hdropped]
      simp [idle, ofSettings]
    ticks := by
      intro o ho htick
      obtain ⟨-, -, q, a, hreturns, rfl⟩ := hmem o ho
      cases htick
      rw [occur_tick hreturns]
      exact ⟨q.answeredTick.1, rfl, q.tickReports_tick⟩
    steps := by
      -- a step reports losses only, and under the policy of the queue
      intro o ho hstep m hm
      obtain ⟨-, hconf, q, a, -, rfl⟩ := hmem o ho
      cases a with
      | tick => exact absurd rfl hstep
      | step s =>
        obtain ⟨n, hreports⟩ := q.reportsOf_apply s
        have hm' : m ∈ q.lossReports n := hreports ▸ hm
        have hpolicy : q.queue.overflow = queue.overflow := overflow_eq (q := idle) hconf
        rw [lossReports, hpolicy] at hm'
        exact List.eq_of_mem_replicate hm'
    settings := by
      intro o ho
      obtain ⟨-, hconf, -⟩ := hmem o ho
      exact ⟨settings_eq hconf, overflow_eq hconf⟩
    sends := hsends
    ends := hends
    sent := hsent
    successes := hsuccesses
    timeouts := htimeouts
    conserved := by
      have hempty : idle.queue.size = 0 := rfl
      rw [hempty] at hconserved
      omega }

end ClientMetrics
