import ClientMetrics.Proofs.Dispatch.Setback
import Mathlib.Data.List.Rotate

/-!
# Outages

As long as the transport fails and failed batches are retried, ticks move impressions from the front
of the queue to its end. What was polled left so much room that all of it is taken back. So a queue
into which nothing new comes loses nothing in an outage of any length. It is turned, by one batch
for each tick that failed.

Key results:
- `Occurrence.isOutage`: an action of an outage brings nothing in and takes nothing out.
- `turned_of_failed`, `outage_occur`: what one such action does (`Outage`).
- `Outage.trans`: outages follow each other.
- `outage_performAll`: an outage of any length.
-/

namespace ClientMetrics

namespace Occurrence

/-- The action is a tick whose batch was not accepted. -/
def isFailed (o : Occurrence) : Bool := o.reply.outcome?.any Outcome.isFailed

/-- The action is a tick that is refused, or whose send would fail without a late offer. Between the
ticks consent and transport may change. -/
def isOutage (o : Occurrence) : Bool :=
  match o.action with
  | .step (.consent _) => true
  | .step (.transport _) => true
  | .step _ => false
  | .tick => o.found.gate.isDisallowed ||
      (o.found.transport.failure.isSome && o.found.transport.late = [])

end Occurrence

/-- What an outage does to a queue and what it reports. -/
structure Outage (p : Pipeline) (os : List Occurrence) (left : Pipeline) (hs : List Happening) :
    Prop where
  losses_eq : left.queue.losses = p.queue.losses
  /-- A tick is refused, or finds nothing, or all that it polled is taken back. -/
  replies : ∀ o ∈ os, o.action = .tick → o.reply = .outcome (
    if o.found.gate.isDisallowed then .consentBlocked
    else if p.share = 0 then .empty
    else .failed p.share p.share)
  /-- No impression of a failed batch is reported as lost, and none that waited. -/
  not_given_up : reportCount "dispatch.requeue_dropped" hs = 0
  not_dropped : reportCount "queue.dropped" hs = 0
  /-- The queue is turned by a batch for each tick that failed. -/
  items_eq : left.queue.items =
    p.queue.items.rotate (os.countP Occurrence.isFailed * p.share % p.queue.size)

namespace Outage

variable {p p' p'' : Pipeline} {os os' : List Occurrence} {hs hs' : List Happening}

/-- A queue that is turned keeps its size. -/
theorem size_eq (h : Outage p os p' hs) : p'.queue.size = p.queue.size := by
  rw [SendingQueue.size, h.items_eq, List.length_rotate]
  rfl

theorem share_eq (h : Outage p os p' hs) (hconf : p'.configuration = p.configuration) :
    p'.share = p.share := by
  rw [Pipeline.share, Pipeline.share, h.size_eq, Pipeline.settings_eq hconf]

/-- Where nothing happens, nothing is turned. -/
theorem nil (p : Pipeline) : Outage p [] p [] where
  losses_eq := rfl
  replies := by simp
  not_given_up := rfl
  not_dropped := rfl
  items_eq := by simp

/-- A queue that is turned twice is turned by both together. -/
theorem trans (h : Outage p os p' hs) (h' : Outage p' os' p'' hs')
    (hconf : p'.configuration = p.configuration) : Outage p (os ++ os') p'' (hs ++ hs') where
  losses_eq := h'.losses_eq.trans h.losses_eq
  replies := by
    have hshare := h.share_eq hconf
    intro o ho htick
    rcases List.mem_append.1 ho with ho | ho
    · exact h.replies o ho htick
    · rw [← hshare]
      exact h'.replies o ho htick
  not_given_up := by rw [reportCount_append, h.not_given_up, h'.not_given_up]
  not_dropped := by rw [reportCount_append, h.not_dropped, h'.not_dropped]
  items_eq := by
    -- two rotations are one, and only its remainder by the size of the queue counts
    have hlength : p.queue.size = p.queue.items.length := rfl
    have hturned : (p.queue.items.rotate (os.countP Occurrence.isFailed * p.share)).length =
        p.queue.items.length := List.length_rotate _ _
    rw [h'.items_eq, h.items_eq, h.size_eq, h.share_eq hconf, hlength, List.rotate_mod,
      ← hturned, List.rotate_mod, List.rotate_rotate, hturned, List.rotate_mod,
      List.countP_append, Nat.add_mul]

end Outage

/-- How many impressions of a failed batch were not taken back. -/
def Outcome.shortfall : Outcome → Nat
  | failed polled requeued => polled - requeued
  | _ => 0

/-- A tick reports impressions of its batch as lost if not all of them were taken back. -/
theorem Pipeline.TickReports.countP_requeueDropped {p : Pipeline} {outcome : Outcome}
    {batches : List Batch} {reports : List Statsd.Measurement}
    (h : p.TickReports outcome batches reports) :
    reports.countP (·.name = "dispatch.requeue_dropped") =
      if 0 < outcome.shortfall then 1 else 0 := by
  have hlosses := p.countP_lossReports
  cases h with
  | blocked closed => simp [Outcome.shortfall]
  | empty isOpen none_due => simp [Outcome.shortfall]
  | sent isOpen some_due accepted late b made => simp [hlosses, Outcome.shortfall]
  | failed isOpen some_due error refused late again requeued b made requeued_le given_up =>
    have hshortfall : (Outcome.failed b.size requeued).shortfall = b.size - requeued := rfl
    -- a failed batch is reported once if anything of it is lost, however much
    by_cases hlost : 0 < b.size - requeued
    · simp [hlosses, requeueReports, hshortfall, hlost]
    · simp [hlosses, requeueReports, hshortfall, hlost]

namespace Pipeline

/-! ## One tick -/

/-- How a tick of an outage ends. -/
def outageOutcome (p : Pipeline) : Outcome :=
  if p.gate.isDisallowed then .consentBlocked
  else if p.share = 0 then .empty
  else .failed p.share p.share

/-- As many are taken back as were polled. -/
theorem shortfall_outageOutcome (p : Pipeline) : p.outageOutcome.shortfall = 0 := by
  unfold outageOutcome
  split
  · rfl
  · split
    · rfl
    · exact Nat.sub_self _

/-- A tick that ends so and turns the queue reports no losses. -/
theorem outage_of_turned {p : Pipeline} (houtcome : p.answeredTick.1 = p.outageOutcome)
    (hoffered : p.ticked.offered = 0)
    (hitems : p.answeredTick.2.1.queue.items =
      p.queue.items.rotate (if p.outageOutcome.isFailed then p.share else 0)) :
    Outage p [p.ticked] p.answeredTick.2.1 p.answeredTick.2.2 := by
  have hsize : p.answeredTick.2.1.queue.size = p.queue.size := by
    rw [SendingQueue.size, hitems, List.length_rotate]
    rfl
  -- nothing came in and as many wait as before, so nothing was lost
  have hcounted := p.counted_tick
  have hnone : reportCount "queue.dropped" p.answeredTick.2.2 = 0 := by
    have hbalance := hcounted.size
    rw [hsize, hoffered] at hbalance
    omega
  have hreply : p.ticked.reply = .outcome p.outageOutcome := congrArg Reply.outcome houtcome
  refine {
    losses_eq := ?_
    replies := ?_
    not_given_up := ?_
    not_dropped := hnone
    items_eq := ?_ }
  · rw [hcounted.losses, hnone]
    exact UInt64.add_zero _
  · intro o ho _
    obtain rfl := List.mem_singleton.1 ho
    exact hreply
  · rw [reportCount, p.tickReports_tick.countP_requeueDropped, houtcome, shortfall_outageOutcome]
    rfl
  · have hisFailed : p.ticked.isFailed = p.outageOutcome.isFailed := by
      rw [Occurrence.isFailed, hreply]
      rfl
    have hlength : p.queue.size = p.queue.items.length := rfl
    rw [hitems, List.countP_singleton, hisFailed, hlength, List.rotate_mod]
    split <;> simp

/-- What a tick polls and fails to send is taken back whole, since it fits into the room that it
left. -/
theorem turned_of_failed {p : Pipeline} (hretry : p.settings.retryFailed)
    (isOpen : p.gate.isDisallowed = false) (hshare : p.share ≠ 0) {error : TransportError}
    (refused : p.transport.failure = some error) (hlate : p.transport.late = []) :
    p.answeredTick.1 = .failed p.share p.share ∧
      p.answeredTick.2.1.queue.items = p.queue.items.rotate p.share := by
  have h : Setback p [] p.answeredTick.1 p.answeredTick.2.1 := by
    have hdue : p.due ≠ [] := by
      rw [← List.length_pos_iff, length_due]
      omega
    have hfailed := setback_tick isOpen hdue refused
    rwa [hlate] at hfailed
  have hfits : p.queue.size ≤ p.queue.capacity := p.queue.length_le
  have hle := p.share_le_size
  -- there is room for the whole batch, since nothing came in during the send
  have hback : p.takenBack ([] : List Impression).length = p.share := by
    rw [takenBack, if_pos hretry, List.length_nil]
    cases p.queue.overflow with
    | reject =>
      show min p.share _ = p.share
      omega
    | dropOldest => rfl
  have hagain : p.offeredAgain (p.queue.items.take p.share) = p.queue.items.take p.share :=
    if_pos hretry
  have hall : (p.queue.items.drop p.share ++ p.queue.items.take p.share).length ≤
      p.queue.capacity := by
    rw [SendingQueue.size] at hfits hle
    rw [List.length_append, List.length_drop, List.length_take]
    omega
  refine ⟨by rw [h.outcome_eq, hback], ?_⟩
  -- what was polled stands behind the others, which is the queue turned by the batch
  rw [h.items_eq, hagain, List.append_nil, Overflow.kept_of_le _ hall,
    List.rotate_eq_drop_append_take hle]

/-- A tick of an outage does not touch the queue, finds nothing, or takes back what it polled. -/
theorem outage_tick {p : Pipeline} (hretry : p.settings.retryFailed) (h : p.ticked.isOutage) :
    Outage p [p.ticked] p.answeredTick.2.1 p.answeredTick.2.2 := by
  by_cases hgate : p.gate.isDisallowed
  · -- the queue is not touched
    have htick := answeredTick_of_disallowed hgate
    have houtcome : p.outageOutcome = .consentBlocked := if_pos hgate
    have hbatches : batchesOf p.answeredTick.2.2 = [] := by rw [htick, batchesOf_start]
    refine outage_of_turned ?_ (if_pos hbatches) ?_
    · rw [htick, houtcome]
    · rw [htick, houtcome]
      exact (List.rotate_zero _).symm
  have isOpen : p.gate.isDisallowed = false := Bool.eq_false_iff.2 hgate
  by_cases hshare : p.share = 0
  · -- there is nothing to send
    have hdue : p.due = [] := by
      rw [← List.length_eq_zero_iff, length_due, hshare]
    have htick := answeredTick_of_none_due isOpen hdue
    have houtcome : p.outageOutcome = .empty := by
      rw [outageOutcome, if_neg hgate, if_pos hshare]
    have hbatches : batchesOf p.answeredTick.2.2 = [] := by rw [htick, batchesOf_start]
    refine outage_of_turned ?_ (if_pos hbatches) ?_
    · rw [htick, houtcome]
    · rw [htick, houtcome]
      show p.polled.queue.items = p.queue.items.rotate 0
      rw [items_polled, hshare, List.drop_zero, List.rotate_zero]
  · have hfails : p.gate.isDisallowed || (p.transport.failure.isSome && p.transport.late = []) := h
    rw [isOpen, Bool.false_or, Bool.and_eq_true, decide_eq_true_eq] at hfails
    obtain ⟨hrefused, hlate⟩ := hfails
    obtain ⟨error, herror⟩ := Option.isSome_iff_exists.1 hrefused
    obtain ⟨hfailed, hturned⟩ := turned_of_failed hretry isOpen hshare herror hlate
    have houtcome : p.outageOutcome = .failed p.share p.share := by
      rw [outageOutcome, if_neg hgate, if_neg hshare]
    refine outage_of_turned (hfailed.trans houtcome.symm) ?_ ?_
    · show (if batchesOf p.answeredTick.2.2 = [] then 0 else p.transport.late.length) = 0
      rw [hlate]
      split <;> rfl
    · rw [hturned, houtcome]
      rfl

/-! ## Any number of ticks -/

/-- Changes of consent and transport do not touch the queue. -/
theorem outage_occur {p : Pipeline} (hretry : p.settings.retryFailed) {a : Action}
    (hreturns : p.returns a) (h : (p.occur a).isOutage) :
    Outage p [p.occur a] (p.perform a).2.1 (p.perform a).2.2 := by
  cases a with
  | tick =>
    rw [occur_tick hreturns] at h ⊢
    rw [perform_tick hreturns]
    exact outage_tick hretry h
  | step s =>
    cases s with
    | consent value | transport t =>
      -- neither of the two steps touches the queue, and no other is left in an outage
      exact {
        losses_eq := rfl
        replies := by
          intro o ho htick
          obtain rfl := List.mem_singleton.1 ho
          cases htick
        not_given_up := rfl
        not_dropped := rfl
        items_eq := by
          simp [occur, perform, apply, Occurrence.isFailed, Reply.outcome?] }
    | _ => cases h

/-- However long the transport fails, and however often consent is refused meanwhile, nothing that
waits is lost as long as failed batches are retried and nothing new comes in. Every tick of it
returns, as long as every transport answers. -/
theorem outage_performAll (p : Pipeline) (hretry : p.settings.retryFailed) (actions : List Action)
    (h : ∀ o ∈ p.occurrences actions, o.isOutage) :
    Outage p (p.occurrences actions) (p.performAll actions).2.1 (p.performAll actions).2.2 ∧
      (p.transport.answers → (∀ a ∈ actions, a.answers) →
        (p.occurrences actions).map Occurrence.action = actions) := by
  refine ⟨?_, fun hp hanswers =>
    (p.map_action_occurrences actions).trans (returned_of_answers hp hanswers)⟩
  induction actions generalizing p with
  | nil => exact .nil p
  | cons a actions ih =>
    by_cases hreturns : p.returns a
    · rw [occurrences_cons hreturns] at h ⊢
      have hconf := p.configuration_perform a
      have hfirst := outage_occur hretry hreturns (h _ List.mem_cons_self)
      have hmore := ih (p.perform a).2.1 (by rw [settings_eq hconf]; exact hretry)
        fun o ho => h o (List.mem_cons_of_mem _ ho)
      rw [performAll_cons hreturns]
      exact hfirst.trans hmore hconf
    · -- nothing happens any more
      rw [performAll_of_stuck hreturns, occurrences_of_stuck hreturns]
      exact .nil p

/-- Five impressions in a full queue that are sent two at a time. -/
def stranded : Pipeline where
  queue := {
    capacity := 5
    overflow := .reject
    items := [{ id := "a" }, { id := "b" }, { id := "c" }, { id := "d" }, { id := "e" }] }
  settings := { batchSize := 2 }
  transport := { failure := some (.status 503) }

/-- Two sends fail, consent is refused for a while, and another two sends are given up. -/
def blackout : List Action :=
  [.tick, .tick, .step (.consent (some (String.ofList (.replicate 91 '0')))), .tick,
    .step (.transport { failure := some .timedOut }), .step (.consent none), .tick, .tick]

/-- Four batches of two turn a queue of five by three. -/
theorem outage_blackout :
    stranded.settings.retryFailed ∧ (∀ o ∈ stranded.occurrences blackout, o.isOutage) ∧
    Outage stranded (stranded.occurrences blackout) (stranded.performAll blackout).2.1
      (stranded.performAll blackout).2.2 ∧
    (stranded.occurrences blackout).countP Occurrence.isFailed = 4 ∧
    (stranded.performAll blackout).2.1.queue.items.map (·.id) = ["d", "e", "a", "b", "c"] := by
  have hretry : stranded.settings.retryFailed := by decide
  have houtage : ∀ o ∈ stranded.occurrences blackout, o.isOutage := by decide +kernel
  exact ⟨hretry, houtage, (outage_performAll stranded hretry blackout houtage).1,
    by decide +kernel, by decide +kernel⟩

end Pipeline

end ClientMetrics
