import ClientMetrics.Proofs.Dispatch.Statistics

/-!
# Volumes depend neither on the policy nor on the contents

Two pipelines get the same calls, but with different impressions, and their queues follow different
policies. They then hold different impressions, and offers are answered differently. All the same,
how many impressions wait, are lost, are returned by a poll or go out with a tick is the same for
both after every action: a full queue loses one impression by an offer under either policy, and
whether it is full depends on numbers only.

* `Action.Alike`, `Reply.Alike` — two actions, two replies that differ in contents at most;
* `Lockstep` — two pipelines with the same numbers, and `Lockstep.perform` for one action;
* `lockstep_occurrences` — the numbers stay the same whatever is done.
-/

namespace ClientMetrics

/-! ## What may differ -/

/-- Two transports that answer alike, or do not answer. They may differ in what they offer, not in
how much. -/
structure Transport.Alike (t t' : Transport) : Prop where
  failure : t.failure = t'.failure
  answers : t.answers = t'.answers
  late : t.late.length = t'.late.length

/-- Two steps that differ at most in the impressions that they offer. -/
inductive Step.Alike : Step → Step → Prop where
  | offer (i i' : Impression) : Alike (.offer i) (.offer i')
  | fill (name name' : String) (count : Nat) : Alike (.fill name count) (.fill name' count)
  | poll (max : Nat) : Alike (.poll max) (.poll max)
  | consent (value : Option String) : Alike (.consent value) (.consent value)
  | transport {t t' : Transport} (alike : t.Alike t') : Alike (.transport t) (.transport t')

/-- Two actions that differ at most in the impressions that they offer. -/
inductive Action.Alike : Action → Action → Prop where
  | step {s s' : Step} (alike : s.Alike s') : Alike (.step s) (.step s')
  | tick : Alike .tick .tick

/-- Two outcomes of one kind with as many impressions. How many were taken back may differ. -/
inductive Outcome.Alike : Outcome → Outcome → Prop where
  | consentBlocked : Alike .consentBlocked .consentBlocked
  | empty : Alike .empty .empty
  | sent (count : Nat) : Alike (.sent count) (.sent count)
  | failed (polled requeued requeued' : Nat) :
    Alike (.failed polled requeued) (.failed polled requeued')

/-- Two replies of one kind. What offers answer may differ, how much a poll returns may not. -/
inductive Reply.Alike : Reply → Reply → Prop where
  | nothing : Alike .nothing .nothing
  | taken (yes yes' : Bool) : Alike (.taken yes) (.taken yes')
  | count (n n' : Nat) : Alike (.count n) (.count n')
  | polled {is is' : List Impression} (length : is.length = is'.length) :
    Alike (.polled is) (.polled is')
  | outcome {o o' : Outcome} (alike : o.Alike o') : Alike (.outcome o) (.outcome o')

/-- Two actions after which as much waits and as much is lost, with replies of one kind. -/
structure Occurrence.Alike (o o' : Occurrence) : Prop where
  reply : o.reply.Alike o'.reply
  size : o.left.queue.size = o'.left.queue.size
  dropped : o.left.queue.dropped = o'.left.queue.dropped

namespace Pipeline

/-! ## Two pipelines with the same numbers -/

/-- Two pipelines that differ at most in which impressions they hold and offer, and in what they do
when the queue is full. -/
structure Lockstep (p p' : Pipeline) : Prop where
  capacity : p.queue.capacity = p'.queue.capacity
  size : p.queue.size = p'.queue.size
  losses : p.queue.losses = p'.queue.losses
  gate : p.gate = p'.gate
  settings : p.settings = p'.settings
  transport : p.transport.Alike p'.transport

namespace Lockstep

variable {p p' : Pipeline}

/-- Whether a queue is full can be told from its size and its capacity. -/
theorem isFull_eq (h : Lockstep p p') : p.queue.isFull = p'.queue.isFull := by
  have hsize : p.queue.items.length = p'.queue.items.length := h.size
  rw [SendingQueue.isFull, SendingQueue.isFull, h.capacity, hsize]

/-- One queue may refuse what the other takes, but both grow alike and lose alike. -/
theorem offer (h : Lockstep p p') (i i' : Impression) :
    Lockstep (p.offer i).2.1 (p'.offer i').2.1 := by
  have hfull := h.isFull_eq
  have hsize := h.size
  have hgrows := p.size_offer i
  have hgrows' := p'.size_offer i'
  rw [← hfull] at hgrows'
  exact {
    capacity := by
      show (p.queue.offer i).2.capacity = (p'.queue.offer i').2.capacity
      rw [SendingQueue.capacity_offer, SendingQueue.capacity_offer, h.capacity]
    -- under either policy a queue grows exactly if it is not full
    size := by omega
    -- and loses something exactly if it is
    losses := by
      show (p.queue.offer i).2.losses = (p'.queue.offer i').2.losses
      rw [SendingQueue.losses_offer, SendingQueue.losses_offer, h.losses, hfull]
    gate := h.gate
    settings := h.settings
    transport := h.transport }

/-- So do many offers, as long as both get as many. -/
theorem offerAll (h : Lockstep p p') {is is' : List Impression} (hlength : is.length = is'.length) :
    Lockstep (p.offerAll is).2.1 (p'.offerAll is').2.1 := by
  -- the induction takes one offer off each of the two lists
  induction is generalizing p p' is' with
  | nil =>
    obtain rfl : is' = [] := List.length_eq_zero_iff.1 hlength.symm
    exact h
  | cons i is ih =>
    cases is' with
    | nil => cases hlength
    | cons i' is' => exact ih (h.offer i i') (Nat.succ.inj hlength)

/-- A poll returns as many to both. -/
theorem length_poll (h : Lockstep p p') (max : Nat) :
    (p.queue.poll max).1.length = (p'.queue.poll max).1.length := by
  have hsize : p.queue.items.length = p'.queue.items.length := h.size
  rw [SendingQueue.poll_fst, SendingQueue.poll_fst, List.length_take, List.length_take, hsize]

/-- It leaves as many with both. -/
theorem poll (h : Lockstep p p') (max : Nat) :
    Lockstep { p with queue := (p.queue.poll max).2 }
      { p' with queue := (p'.queue.poll max).2 } where
  capacity := h.capacity
  size := by
    have hsize : p.queue.items.length = p'.queue.items.length := h.size
    show (p.queue.items.drop max).length = (p'.queue.items.drop max).length
    rw [List.length_drop, List.length_drop, hsize]
  losses := h.losses
  gate := h.gate
  settings := h.settings
  transport := h.transport

/-- A step leads both to the same numbers, and its replies are of one kind. -/
theorem apply (h : Lockstep p p') {s s' : Step} (hs : s.Alike s') :
    (p.apply s).1.Alike (p'.apply s').1 ∧ Lockstep (p.apply s).2.1 (p'.apply s').2.1 := by
  cases hs with
  | offer i i' => exact ⟨.taken _ _, h.offer i i'⟩
  | fill name name' count =>
    -- the names differ, but not how many impressions are named
    refine ⟨.count _ _, h.offerAll ?_⟩
    rw [Impression.numbered, Impression.numbered, List.length_map, List.length_map]
  | poll max => exact ⟨.polled (h.length_poll max), h.poll max⟩
  | consent value =>
    refine ⟨.nothing, { h with gate := ?_ }⟩
    exact congrArg (·.setConsent value) h.gate
  | transport alike => exact ⟨.nothing, { h with transport := alike }⟩

/-! ## Ticks -/

theorem length_due (h : Lockstep p p') : p.due.length = p'.due.length := by
  rw [due, due, ← h.settings]
  exact h.length_poll _

/-- Both are left alike by the poll of a tick. -/
theorem polled (h : Lockstep p p') : Lockstep p.polled p'.polled := by
  have hmax : p.settings.batchSize.toNat = p'.settings.batchSize.toNat := by rw [h.settings]
  unfold Pipeline.polled
  rw [← hmax]
  exact h.poll _

/-- Late offers differ in what is offered, but not in how much. -/
theorem handOver (h : Lockstep p p') (is is' : List Impression) :
    Lockstep (p.handOver is).1 (p'.handOver is').1 :=
  h.offerAll h.transport.late

/-- A failed batch is offered again to both or to neither, whatever is in it. -/
theorem settle (h : Lockstep p p') {is is' : List Impression} (hlength : is.length = is'.length)
    (failure : Option TransportError) :
    (p.settle is failure).1.Alike (p'.settle is' failure).1 ∧
      Lockstep (p.settle is failure).2.1 (p'.settle is' failure).2.1 := by
  cases failure with
  | none =>
    refine ⟨?_, h⟩
    show (Outcome.sent is.length).Alike (.sent is'.length)
    rw [hlength]
    exact .sent _
  | some error =>
    -- whether the batch is offered again depends on the settings, how much of it on its size
    have hagain : (p.offeredAgain is).length = (p'.offeredAgain is').length := by
      rw [offeredAgain, offeredAgain, ← h.settings]
      split
      · exact hlength
      · rfl
    refine ⟨?_, h.offerAll hagain⟩
    show (Outcome.failed is.length (p.offerAll (p.offeredAgain is)).1).Alike
      (.failed is'.length (p'.offerAll (p'.offeredAgain is')).1)
    rw [hlength]
    exact .failed _ _ _

/-- A tick ends for both in the same way and leaves them with the same numbers. -/
theorem tick (h : Lockstep p p') :
    p.answeredTick.1.Alike p'.answeredTick.1 ∧ Lockstep p.answeredTick.2.1 p'.answeredTick.2.1 := by
  -- both gates are open or both are closed, and both polls find something or neither does
  cases hgate : p.gate.isDisallowed with
  | true =>
    -- both are refused, and neither queue is touched
    have hgate' : p'.gate.isDisallowed = true := h.gate ▸ hgate
    rw [answeredTick_of_disallowed hgate, answeredTick_of_disallowed hgate']
    exact ⟨.consentBlocked, h⟩
  | false =>
    have hgate' : p'.gate.isDisallowed = false := h.gate ▸ hgate
    have hdue := h.length_due
    by_cases hnone : p.due = []
    · -- neither finds anything
      have hnone' : p'.due = [] := by
        rw [← List.length_eq_zero_iff, ← hdue, hnone]
        rfl
      rw [answeredTick_of_none_due hgate hnone, answeredTick_of_none_due hgate' hnone']
      exact ⟨.empty, h.polled⟩
    · have hsome' : p'.due ≠ [] := by
        rw [← List.length_pos_iff, ← hdue]
        exact List.length_pos_iff.2 hnone
      rw [answeredTick_of_due hgate hnone, answeredTick_of_due hgate' hsome', ← h.transport.failure]
      exact (h.polled.handOver p.due p'.due).settle hdue p.transport.failure

/-- Either both return or neither does. -/
theorem returns (h : Lockstep p p') {a a' : Action} (ha : a.Alike a') :
    p.returns a ↔ p'.returns a' := by
  cases ha with
  | step _ => exact Iff.rfl
  | tick =>
    have hgate : p.gate.isDisallowed = p'.gate.isDisallowed := by rw [h.gate]
    have hdue : p.due = [] ↔ p'.due = [] := by
      rw [← List.length_eq_zero_iff, h.length_due, List.length_eq_zero_iff]
    -- whether a tick is stuck depends on the gate, on what is due and on whether the transport
    -- answers
    have hstuck : p.isStuck = p'.isStuck := by
      rw [Bool.eq_iff_iff, isStuck_iff, isStuck_iff, hgate, h.transport.answers, Ne, Ne, hdue]
    simp only [Pipeline.returns, hstuck]

/-- Whatever is done to both, the replies are of one kind and the numbers stay the same. -/
theorem perform (h : Lockstep p p') {a a' : Action} (ha : a.Alike a') (hreturns : p.returns a) :
    (p.perform a).1.Alike (p'.perform a').1 ∧
      Lockstep (p.perform a).2.1 (p'.perform a').2.1 := by
  have hreturns' := (h.returns ha).1 hreturns
  cases ha with
  | step alike => exact h.apply alike
  | tick =>
    rw [perform_tick hreturns, perform_tick hreturns']
    exact ⟨.outcome h.tick.1, h.tick.2⟩

/-- Action by action, by induction on the two sequences. -/
theorem occurrences (h : Lockstep p p') {actions actions' : List Action}
    (alike : List.Forall₂ Action.Alike actions actions') :
    List.Forall₂ Occurrence.Alike (p.occurrences actions) (p'.occurrences actions') := by
  -- both sequences are taken apart together
  induction alike generalizing p p' with
  | nil => exact .nil
  | @cons a a' _ _ ha _ ih =>
    by_cases hreturns : p.returns a
    · obtain ⟨hreply, hnext⟩ := h.perform ha hreturns
      have hdropped : (p.perform a).2.1.queue.dropped = (p'.perform a').2.1.queue.dropped :=
        congrArg UInt64.toNat hnext.losses
      rw [occurrences_cons hreturns, occurrences_cons ((h.returns ha).1 hreturns)]
      exact .cons ⟨hreply, hnext.size, hdropped⟩ (ih hnext)
    · -- neither gets any further
      rw [occurrences_of_stuck hreturns, occurrences_of_stuck (mt (h.returns ha).2 hreturns)]
      exact .nil

end Lockstep

/-- A sequence alike to one whose transports all answer is another such. -/
theorem answers_of_alike {actions actions' : List Action}
    (alike : List.Forall₂ Action.Alike actions actions') (h : ∀ a ∈ actions, a.answers) :
    ∀ a ∈ actions', a.answers := by
  induction alike with
  | nil => exact fun _ ha => nomatch ha
  | @cons a a' _ _ ha _ ih =>
    have hfirst : a.answers := h a List.mem_cons_self
    intro b hb
    -- the first of the two sequences is given a transport that answers, so the second is
    rcases List.mem_cons.1 hb with rfl | hb
    · cases ha with
      | tick => rfl
      | step alike =>
        cases alike with
        | transport alike => exact alike.answers.symm.trans hfirst
        | _ => rfl
    · exact ih (fun c hc => h c (List.mem_cons_of_mem _ hc)) b hb

/-- Two pipelines whose queues start empty, with any two policies, and any two sequences of actions
that differ at most in the impressions that are offered: after each action as many wait and as many
are lost, a poll returns as many, and a tick ends in the same way with as many polled or sent. All
of them return as long as every transport answers. -/
theorem lockstep_occurrences (queue : QueueSettings) (policy : Overflow)
    (dispatch : DispatchSettings) (privacy : PrivacySettings) (sdk : SdkSettings)
    (actions actions' : List Action) (alike : List.Forall₂ Action.Alike actions actions') :
    let first := (ofSettings queue dispatch privacy sdk).occurrences actions
    let second :=
      (ofSettings { queue with overflow := policy } dispatch privacy sdk).occurrences actions'
    List.Forall₂ Occurrence.Alike first second ∧
      ((∀ a ∈ actions, a.answers) → first.map Occurrence.action = actions ∧
        second.map Occurrence.action = actions') := by
  -- both start with nothing, and what else the settings say is the same
  have hidle : Lockstep (ofSettings queue dispatch privacy sdk)
      (ofSettings { queue with overflow := policy } dispatch privacy sdk) :=
    ⟨rfl, rfl, rfl, rfl, rfl, rfl, rfl, rfl⟩
  refine ⟨hidle.occurrences alike, fun hanswers => ⟨?_, ?_⟩⟩
  · exact (map_action_occurrences _ _).trans (returned_of_answers rfl hanswers)
  · exact (map_action_occurrences _ _).trans
      (returned_of_answers rfl (answers_of_alike alike hanswers))

/-- Three offers, and then a send that fails after one more. -/
def crowd : List Action :=
  [.step (.transport { failure := some (.status 503), late := [{ id := "d" }] }),
    .step (.offer { id := "a" }), .step (.offer { id := "b" }), .step (.offer { id := "c" }), .tick]

/-- A queue of two in which a crowd meets either policy. -/
def crowded (policy : Overflow) : Pipeline :=
  ofSettings { capacity := 2, overflow := policy } {} {} {}

/-- Answers, survivors and how many of a batch are taken back do depend on the policy. -/
theorem lockstep_crowd :
    List.Forall₂ Action.Alike crowd crowd ∧
    List.Forall₂ Occurrence.Alike ((crowded .reject).occurrences crowd)
      ((crowded .dropOldest).occurrences crowd) ∧
    ((crowded .reject).performAll crowd).1 =
      [.nothing, .taken true, .taken true, .taken false, .outcome (.failed 2 1)] ∧
    ((crowded .dropOldest).performAll crowd).1 =
      [.nothing, .taken true, .taken true, .taken true, .outcome (.failed 2 2)] ∧
    ((crowded .reject).performAll crowd).2.1.queue.items.map (·.id) = ["d", "a"] ∧
    ((crowded .dropOldest).performAll crowd).2.1.queue.items.map (·.id) = ["b", "c"] := by
  have alike : List.Forall₂ Action.Alike crowd crowd :=
    .cons (.step (.transport ⟨rfl, rfl, rfl⟩)) <| .cons (.step (.offer _ _)) <|
      .cons (.step (.offer _ _)) <| .cons (.step (.offer _ _)) <| .cons .tick .nil
  exact ⟨alike, (lockstep_occurrences { capacity := 2 } .dropOldest {} {} {} crowd crowd alike).1,
    by decide +kernel⟩

end Pipeline

end ClientMetrics
