import ClientMetrics.Proofs.Dispatch.Statistics
import ClientMetrics.Proofs.Wire.Batch

/-!
# The order of delivery

Impressions leave a pipeline in the order in which they came in, whether they are sent or polled, as
long as no send fails: one that fails puts its impressions at the end of the queue again. What the
collector sees of them are the identifiers in the bodies of the requests.

* `Occurrence.offers`, `Occurrence.delivered` — what came in with an action, and what went out;
* `InOrder` — from one pipeline to another nothing overtakes anything, and losses are counted;
* `inOrder_apply`, `inOrder_occur` — so it is for a step, and for an action whose send does not
  fail;
* `Delivery`, `delivery_performAll` — the order over any sequence of actions.
-/

namespace ClientMetrics

/-! ## What comes in and what goes out -/

/-- The impressions that a step offers, in order. -/
def Step.offerings : Step → List Impression
  | offer i => [i]
  | fill name count => Impression.numbered name count
  | _ => []

/-- The impressions that a poll returned, in order. -/
def Reply.returned : Reply → List Impression
  | polled impressions => impressions
  | _ => []

/-- Offers one after the other, each with its answer. -/
def Pipeline.answers (p : Pipeline) : List Impression → List (Impression × Bool)
  | [] => []
  | i :: is => (i, (p.offer i).1) :: (p.offer i).2.1.answers is

/-- The offers that were taken. -/
def takenOf (offers : List (Impression × Bool)) : List Impression :=
  (offers.filter (·.2)).map (·.1)

@[simp] theorem takenOf_append (offers offers' : List (Impression × Bool)) :
    takenOf (offers ++ offers') = takenOf offers ++ takenOf offers' := by
  simp [takenOf]

/-- The identifiers that a collector finds in the body of a request. -/
def Batch.idsIn (body : String) : List String :=
  match ofJson body with
  | .ok b => b.feedbacks.flatMap fun f => f.slots.map (·.impressionId)
  | .error _ => []

namespace Occurrence

/-- The offers in the course of an action, each with its answer. Those of a tick come in while its
batch is out. -/
def offers (o : Occurrence) : List (Impression × Bool) :=
  match o.action with
  | .step s => o.found.answers s.offerings
  | .tick =>
    if batchesOf o.happenings = [] then [] else o.found.polled.answers o.found.transport.late

/-- The bodies of the requests that are handed to the transport. -/
def bodies (o : Occurrence) : List String := (batchesOf o.happenings).map Batch.toJson

/-- The identifiers that go out with an action, in requests or as the result of a poll. -/
def delivered (o : Occurrence) : List String :=
  o.bodies.flatMap Batch.idsIn ++ o.reply.returned.map (·.id)

end Occurrence

/-! ## Order in the queue -/

namespace SendingQueue

variable {α : Type}

/-- An insertion puts nothing before anything else. -/
theorem insert_sublist (q : SendingQueue α) (item : α) :
    (q.insert item).2.2.items.Sublist (q.items ++ [item]) := by
  have hbalance := q.insert_balance item
  -- what makes room stood in front, and what is taken stands at the end
  have hkept : (q.insert item).2.2.items.Sublist
      (q.items ++ if (q.insert item).1 then [item] else []) := by
    rw [← hbalance]
    exact List.sublist_append_right _ _
  refine hkept.trans (List.Sublist.append_left ?_ _)
  split
  · exact List.Sublist.refl _
  · exact List.nil_sublist _

/-- Nothing makes room where new items are refused. -/
theorem insert_of_reject {q : SendingQueue α} (h : q.overflow = .reject) (item : α) :
    (q.insert item).2.2.items = q.items ++ if (q.insert item).1 then [item] else [] := by
  rcases q.insert_cases item with ⟨-, ht, -, hi⟩ | ⟨-, ho, -⟩ | ⟨-, -, hq⟩
  · rw [hi, ht, if_pos rfl]
  · rw [h] at ho
    cases ho
  · rw [hq, if_neg Bool.false_ne_true, List.append_nil]

end SendingQueue

/-- From one pipeline to another some offers were made and some impressions went out, the oldest
first. -/
structure InOrder (p : Pipeline) (offers : List (Impression × Bool)) (p' : Pipeline)
    (went : List Impression) : Prop where
  overflow : p'.queue.overflow = p.queue.overflow
  /-- What went out and what waits stand in the order in which they came in. -/
  sublist : (went ++ p'.queue.items).Sublist (p.queue.items ++ offers.map (·.1))
  /-- What is missing among them is counted. -/
  balanced : Balanced p (offers.map (·.1)) p' went
  /-- Where nothing is evicted, all that was taken is there. -/
  kept : p.queue.overflow = .reject → p.queue.items ++ takenOf offers = went ++ p'.queue.items

namespace InOrder

variable {p p' p'' : Pipeline} {offers offers' : List (Impression × Bool)}
  {went went' : List Impression}

/-- Nothing happens to the queue. -/
theorem of_queue_eq (h : p'.queue = p.queue) : InOrder p [] p' [] where
  overflow := by rw [h]
  sublist := by simp [h]
  balanced := ⟨0, by simp [h], by simp [h]⟩
  kept _ := by rw [h]; exact List.append_nil _

/-- Order is kept over two parts, since the second only loses something of what the first left. -/
theorem trans (h : InOrder p offers p' went) (h' : InOrder p' offers' p'' went') :
    InOrder p (offers ++ offers') p'' (went ++ went') where
  overflow := h'.overflow.trans h.overflow
  sublist := by
    -- what went later may only have lost something, and neither may what was there before
    have hlater : (went ++ went' ++ p''.queue.items).Sublist
        (went ++ p'.queue.items ++ offers'.map (·.1)) := by
      rw [List.append_assoc, List.append_assoc]
      exact List.Sublist.append_left h'.sublist went
    have hbefore : (went ++ p'.queue.items ++ offers'.map (·.1)).Sublist
        (p.queue.items ++ offers.map (·.1) ++ offers'.map (·.1)) :=
      List.Sublist.append_right h.sublist _
    rw [List.map_append, ← List.append_assoc]
    exact hlater.trans hbefore
  balanced := (h.balanced.trans h'.balanced).of_eq (by simp) (by simp)
  kept hreject := by
    have hreject' : p'.queue.overflow = .reject := h.overflow.trans hreject
    calc p.queue.items ++ takenOf (offers ++ offers')
        = p.queue.items ++ takenOf offers ++ takenOf offers' := by simp
      _ = went ++ (p'.queue.items ++ takenOf offers') := by
        rw [h.kept hreject, List.append_assoc]
      _ = went ++ went' ++ p''.queue.items := by rw [h'.kept hreject', List.append_assoc]

end InOrder

namespace Pipeline

/-- An offer puts its impression behind all others, or evicts from the front. -/
theorem inOrder_offer (p : Pipeline) (i : Impression) :
    InOrder p [(i, (p.offer i).1)] (p.offer i).2.1 [] := by
  have hitems : (p.offer i).2.1.queue.items = (p.queue.insert i).2.2.items := p.queue.items_offer i
  -- the queue after the offer is the one after the insertion, but for its losses
  exact {
    overflow := p.queue.overflow_offer i
    sublist := by
      rw [hitems]
      exact p.queue.insert_sublist i
    balanced := balanced_offer p i
    kept := by
      intro hreject
      rw [hitems, SendingQueue.insert_of_reject hreject]
      show p.queue.items ++ takenOf [(i, (p.queue.insert i).1)] = _
      cases (p.queue.insert i).1 <;> rfl }

theorem inOrder_answers (p : Pipeline) (is : List Impression) :
    InOrder p (p.answers is) (p.offerAll is).2.1 [] := by
  induction is generalizing p with
  | nil => exact .of_queue_eq rfl
  | cons i is ih => exact (p.inOrder_offer i).trans (ih _)

/-- A poll takes the oldest, in their order. -/
theorem inOrder_poll (p : Pipeline) (max : Nat) :
    InOrder p [] { p with queue := (p.queue.poll max).2 } (p.queue.poll max).1 := by
  -- what is returned and what is left are the two parts of the queue
  have hsplit : (p.queue.poll max).1 ++ (p.queue.poll max).2.items = p.queue.items :=
    List.take_append_drop max p.queue.items
  exact {
    overflow := rfl
    sublist := by
      rw [hsplit]
      simp
    balanced := balanced_poll p max
    kept := fun _ => (List.append_nil _).trans hsplit.symm }

/-- Each step keeps the order. -/
theorem inOrder_apply (p : Pipeline) (s : Step) :
    InOrder p (p.answers s.offerings) (p.apply s).2.1 (p.apply s).1.returned := by
  -- consent and the transport do not touch the queue
  cases s with
  | offer i => exact p.inOrder_offer i
  | fill name count => exact p.inOrder_answers _
  | poll max => exact p.inOrder_poll max
  | consent value => exact .of_queue_eq rfl
  | transport t => exact .of_queue_eq rfl

/-! ## Ticks -/

/-- A tick that sends something: what it polled goes out, and the late offers come in. -/
theorem inOrder_tick_of_sent (p : Pipeline) (h : p.gate.isDisallowed = false) (hdue : p.due ≠ [])
    (haccepted : p.transport.failure = none) :
    InOrder p (p.polled.answers p.transport.late) p.answeredTick.2.1 p.due := by
  have hpolled : InOrder p [] p.polled p.due := p.inOrder_poll _
  have hlate := p.polled.inOrder_answers p.transport.late
  rw [answeredTick_of_due h hdue, haccepted]
  have hall := hpolled.trans hlate
  rw [List.append_nil] at hall
  exact hall

/-- A batch is handed over exactly if the gate is open and something is due. -/
theorem batchesOf_tick (p : Pipeline) :
    batchesOf p.answeredTick.2.2 =
      if p.gate.isDisallowed = true ∨ p.due = [] then [] else [.ofImpressions p.due p.sdk] := by
  cases hgate : p.gate.isDisallowed with
  | true =>
    rw [answeredTick_of_disallowed hgate, if_pos (.inl rfl)]
    exact p.batchesOf_start
  | false =>
    -- an open gate with nothing to send hands nothing over either
    by_cases hdue : p.due = []
    · rw [answeredTick_of_none_due hgate hdue, if_pos (.inr hdue)]
      exact p.batchesOf_start
    · have hnone : ¬(false = true ∨ p.due = []) := fun h => h.elim Bool.false_ne_true hdue
      rw [answeredTick_of_due hgate hdue, if_neg hnone]
      simp only [batchesOf_append, batchesOf_start, batchesOf_handOver, batchesOf_settle]
      rfl

end Pipeline

/-! ## What the collector sees -/

/-- The body of a request names the impressions that it was made from, in their order. -/
theorem Batch.idsIn_ofImpressions (is : List Impression) (sdk : SdkSettings) :
    idsIn (ofImpressions is sdk).toJson = is.map (·.id) := by
  unfold idsIn
  rw [ofJson_toJson]
  -- a report has one slot
  show (is.map Feedback.ofImpression).flatMap (fun f => f.slots.map (·.impressionId)) = _
  -- the induction is on the impressions, each of which has its own report
  induction is with
  | nil => rfl
  | cons i is ih => exact congrArg (i.id :: ·) ih

namespace Pipeline

/-- What a tick delivers is what it polled, if it sends anything. -/
theorem delivered_ticked (p : Pipeline) :
    p.ticked.delivered =
      if p.gate.isDisallowed = true ∨ p.due = [] then [] else p.due.map (·.id) := by
  have hbodies : p.ticked.bodies = (batchesOf p.answeredTick.2.2).map Batch.toJson := rfl
  have hreturned : p.ticked.reply.returned = [] := rfl
  rw [Occurrence.delivered, hbodies, hreturned, batchesOf_tick]
  split
  · rfl
  · have hids := Batch.idsIn_ofImpressions p.due p.sdk
    simpa using hids

/-- What is offered in the course of a tick comes late, after a batch was handed over. -/
theorem offers_ticked (p : Pipeline) :
    p.ticked.offers =
      if p.gate.isDisallowed = true ∨ p.due = [] then []
      else p.polled.answers p.transport.late := by
  show (if batchesOf p.answeredTick.2.2 = [] then [] else p.polled.answers p.transport.late) = _
  rw [batchesOf_tick]
  split
  · rw [if_pos rfl]
  · rw [if_neg (List.cons_ne_nil _ _)]

/-- What goes out with an action, in requests or as the result of a poll, is what left the queue. -/
theorem inOrder_occur {p : Pipeline} {a : Action} (hreturns : p.returns a)
    (h : ∀ polled requeued, (p.perform a).1 ≠ .outcome (.failed polled requeued)) :
    ∃ went, InOrder p (p.occur a).offers (p.perform a).2.1 went ∧
      (p.occur a).delivered = went.map (·.id) := by
  cases a with
  | step s =>
    -- a step sends nothing, so what goes out with it was polled
    refine ⟨(p.apply s).1.returned, p.inOrder_apply s, ?_⟩
    show ((batchesOf (p.apply s).2.2).map Batch.toJson).flatMap Batch.idsIn ++ _ = _
    rw [batchesOf_apply]
    rfl
  | tick =>
    rw [perform_tick hreturns] at h ⊢
    rw [occur_tick hreturns, offers_ticked, delivered_ticked]
    cases hgate : p.gate.isDisallowed with
    | true =>
      rw [answeredTick_of_disallowed hgate, if_pos (.inl rfl), if_pos (.inl rfl)]
      exact ⟨[], .of_queue_eq rfl, rfl⟩
    | false =>
      by_cases hdue : p.due = []
      · -- the poll returned nothing, so the queue is as it was
        have hpolled : InOrder p [] p.polled p.due := p.inOrder_poll _
        rw [answeredTick_of_none_due hgate hdue, if_pos (.inr hdue), if_pos (.inr hdue)]
        exact ⟨[], hdue ▸ hpolled, rfl⟩
      · have hnone : ¬(false = true ∨ p.due = []) := fun h => h.elim Bool.false_ne_true hdue
        rw [if_neg hnone, if_neg hnone]
        -- with any other answer of the transport the tick would fail
        have haccepted : p.transport.failure = none := by
          cases hfailure : p.transport.failure with
          | none => rfl
          | some error =>
            refine absurd ?_ (h p.due.length ((p.polled.handOver p.due).1.offerAll
              ((p.polled.handOver p.due).1.offeredAgain p.due)).1)
            show Reply.outcome p.answeredTick.1 = _
            rw [answeredTick_of_due hgate hdue, hfailure]
            rfl
        exact ⟨p.due, p.inOrder_tick_of_sent hgate hdue haccepted, rfl⟩

/-! ## Sequences of actions -/

/-- What goes out with a sequence of actions left the queue in its order, by induction on the
sequence. -/
theorem inOrder_performAll (p : Pipeline) (actions : List Action)
    (h : ∀ polled requeued, .outcome (.failed polled requeued) ∉ (p.performAll actions).1) :
    ∃ went, InOrder p ((p.occurrences actions).flatMap Occurrence.offers)
        (p.performAll actions).2.1 went ∧
      (p.occurrences actions).flatMap Occurrence.delivered = went.map (·.id) := by
  -- each action starts where the one before has left the pipeline
  induction actions generalizing p with
  | nil => exact ⟨[], .of_queue_eq rfl, rfl⟩
  | cons a actions ih =>
    by_cases hreturns : p.returns a
    · simp only [performAll_cons hreturns, List.mem_cons, not_or] at h
      obtain ⟨went, hfirst, hids⟩ := inOrder_occur hreturns fun polled requeued heq =>
        (h polled requeued).1 heq.symm
      obtain ⟨went', hrest, hids'⟩ := ih (p.perform a).2.1 fun polled requeued =>
        (h polled requeued).2
      rw [performAll_cons hreturns, occurrences_cons hreturns, List.flatMap_cons,
        List.flatMap_cons, hids, hids']
      exact ⟨went ++ went', hfirst.trans hrest, List.map_append.symm⟩
    · -- nothing goes out any more
      rw [performAll_of_stuck hreturns, occurrences_of_stuck hreturns]
      exact ⟨[], .of_queue_eq rfl, rfl⟩

/-- As many offers are taken as are counted. -/
theorem length_takenOf_answers (p : Pipeline) (is : List Impression) :
    (takenOf (p.answers is)).length = (p.offerAll is).1 := by
  induction is generalizing p with
  | nil => rfl
  | cons i is ih =>
    show (takenOf ([(i, (p.offer i).1)] ++ (p.offer i).2.1.answers is)).length =
      (if (p.offer i).1 then 1 else 0) + ((p.offer i).2.1.offerAll is).1
    rw [takenOf_append, List.length_append, ih]
    cases (p.offer i).1 <;> rfl

/-- Every body reports something, and no more than a batch may hold. -/
theorem bodies_occur {p : Pipeline} {a : Action} (hreturns : p.returns a) {body : String}
    (h : body ∈ (p.occur a).bodies) :
    ∃ b, Batch.ofJson body = .ok b ∧ 1 ≤ b.feedbacks.length ∧
      b.feedbacks.length ≤ p.settings.batchSize.toNat := by
  -- only a tick hands anything over
  cases a with
  | step s =>
    have hnone : (p.occur (.step s)).bodies = [] :=
      congrArg (·.map Batch.toJson) (p.batchesOf_apply s)
    rw [hnone] at h
    cases h
  | tick =>
    have hbodies : p.ticked.bodies = (batchesOf p.answeredTick.2.2).map Batch.toJson := rfl
    rw [occur_tick hreturns, hbodies, batchesOf_tick] at h
    split at h
    next => cases h
    next hsome =>
      obtain rfl := List.mem_singleton.1 h
      have hlength : (Batch.ofImpressions p.due p.sdk).feedbacks.length = p.due.length :=
        size_ofImpressions p.due p.sdk
      have hpos : 0 < p.due.length := List.length_pos_iff.2 fun hnone => hsome (.inr hnone)
      have hle : p.due.length ≤ p.settings.batchSize.toNat := by
        rw [due, List.length_take]
        omega
      exact ⟨_, Batch.ofJson_toJson _, by omega, by omega⟩

end Pipeline

/-- How impressions are delivered if no send fails, where `left` is what a pipeline with an empty
queue has become. -/
structure Delivery (dispatch : DispatchSettings) (policy : Overflow) (occurrences : List Occurrence)
    (left : Pipeline) : Prop where
  /-- An offer answers whether its impression was taken, and a fill how many were. -/
  answered : ∀ o ∈ occurrences, (∀ yes, o.reply = .taken yes → o.offers.map (·.2) = [yes]) ∧
    ∀ n, o.reply = .count n → (takenOf o.offers).length = n
  /-- Every body is read as a batch, which is neither empty nor too large. -/
  bodies : ∀ o ∈ occurrences, ∀ body ∈ o.bodies, ∃ b, Batch.ofJson body = .ok b ∧
    1 ≤ b.feedbacks.length ∧ b.feedbacks.length ≤ dispatch.batchSize.toNat
  /-- Where new impressions are refused, all that were taken are delivered or wait, in order. -/
  kept : policy = .reject →
    occurrences.flatMap Occurrence.delivered ++ left.queue.items.map (·.id) =
      (takenOf (occurrences.flatMap Occurrence.offers)).map (·.id)
  /-- Under either policy what is delivered or waits stands in the order of the offers. -/
  sublist : (occurrences.flatMap Occurrence.delivered ++ left.queue.items.map (·.id)).Sublist
    ((occurrences.flatMap Occurrence.offers).map (·.1.id))
  /-- The others are counted as lost. The counter has 64 bits. -/
  missing : ∃ lost, (occurrences.flatMap Occurrence.offers).length =
      (occurrences.flatMap Occurrence.delivered ++ left.queue.items.map (·.id)).length + lost ∧
    left.queue.dropped = lost % 2 ^ 64

namespace Pipeline

/-- An offer is answered by whether its impression was taken, a fill by how many were. -/
theorem answered_occur {p : Pipeline} {a : Action} (hreturns : p.returns a) :
    (∀ yes, (p.occur a).reply = .taken yes → (p.occur a).offers.map (·.2) = [yes]) ∧
      ∀ n, (p.occur a).reply = .count n → (takenOf (p.occur a).offers).length = n := by
  cases a with
  | tick =>
    rw [occur_tick hreturns]
    exact ⟨nofun, nofun⟩
  | step s =>
    -- only offers and fills answer in this way
    cases s with
    | offer i => exact ⟨fun yes h => Reply.taken.inj h ▸ rfl, nofun⟩
    | fill name count =>
      refine ⟨nofun, fun n h => ?_⟩
      obtain rfl : (p.offerAll (Impression.numbered name count)).1 = n := Reply.count.inj h
      exact p.length_takenOf_answers _
    | poll max => exact ⟨nofun, nofun⟩
    | consent value => exact ⟨nofun, nofun⟩
    | transport t => exact ⟨nofun, nofun⟩

/-- Whatever is done to a pipeline whose queue is empty, as long as no send fails: the identifiers
in the bodies of its requests and in the answers to polls, followed by those in the queue, are those
that were taken, in their order, unless some made room for others. All actions return as long as
every transport answers. -/
theorem delivery_performAll (queue : QueueSettings) (dispatch : DispatchSettings)
    (privacy : PrivacySettings) (sdk : SdkSettings) (actions : List Action)
    (h : ∀ polled requeued, .outcome (.failed polled requeued) ∉
      ((ofSettings queue dispatch privacy sdk).performAll actions).1) :
    let idle := ofSettings queue dispatch privacy sdk
    let os := idle.occurrences actions
    os.map Occurrence.reply = (idle.performAll actions).1 ∧
      os.flatMap Occurrence.happenings = (idle.performAll actions).2.2 ∧
      Delivery dispatch queue.overflow os (idle.performAll actions).2.1 ∧
      ((∀ a ∈ actions, a.answers) → os.map Occurrence.action = actions) := by
  intro idle os
  obtain ⟨hreplies, hhappenings⟩ := idle.performAll_eq_occurrences actions
  obtain ⟨went, hordered, hids⟩ := idle.inOrder_performAll actions h
  have hwent : os.flatMap Occurrence.delivered ++
        (idle.performAll actions).2.1.queue.items.map (·.id)
      = (went ++ (idle.performAll actions).2.1.queue.items).map (·.id) := by
    rw [hids, List.map_append]
  have hempty : idle.queue.items = [] := rfl
  refine ⟨hreplies.symm, hhappenings.symm, ?_, fun hanswers =>
    (idle.map_action_occurrences actions).trans (returned_of_answers rfl hanswers)⟩
  exact {
    answered := by
      intro o ho
      obtain ⟨-, -, q, a, hreturns, rfl⟩ := tallied_of_mem ho
      exact answered_occur hreturns
    bodies := by
      intro o ho body hbody
      -- no action changes the settings
      obtain ⟨-, hconf, q, a, hreturns, rfl⟩ := tallied_of_mem ho
      have hsettings : q.settings = dispatch := settings_eq hconf
      obtain ⟨b, hread, hsize⟩ := bodies_occur hreturns hbody
      rw [hsettings] at hsize
      exact ⟨b, hread, hsize⟩
    kept := by
      intro hreject
      have hkept := hordered.kept hreject
      rw [hempty, List.nil_append] at hkept
      rw [hwent, hkept]
    sublist := by
      have hsublist := hordered.sublist.map (·.id)
      rw [hempty, List.nil_append, List.map_map] at hsublist
      rw [hwent]
      exact hsublist
    missing := by
      -- what was refused and what was evicted are counted alike
      obtain ⟨overflowed, hitems, hlosses⟩ := hordered.balanced
      have hcount : (os.flatMap Occurrence.offers).length =
          (idle.performAll actions).2.1.queue.items.length + went.length + overflowed.card := by
        have hcards := congrArg Multiset.card hitems
        simp only [hempty, Multiset.card_add, Multiset.coe_card, List.length_nil, List.length_map,
          Nat.zero_add] at hcards
        exact hcards
      refine ⟨overflowed.card, ?_, ?_⟩
      · rw [hwent, List.length_map, List.length_append]
        omega
      · rw [SendingQueue.dropped, hlosses]
        simp [idle, ofSettings] }

/-- Three offers to a queue of two, a send in the course of which there is another, and a poll. -/
def rush : List Action :=
  [.step (.transport { late := [{ id := "d" }] }), .step (.offer { id := "a" }),
    .step (.offer { id := "b" }), .step (.offer { id := "c" }), .tick, .step (.poll 1)]

/-- The third offer evicts the first, which is the only one that is not delivered. -/
theorem delivery_rush :
    let rushed := ofSettings { capacity := 2, overflow := .dropOldest } {} {} {}
    (∀ polled requeued, .outcome (.failed polled requeued) ∉ (rushed.performAll rush).1) ∧
      (rushed.performAll rush).1 = [.nothing, .taken true, .taken true, .taken true,
        .outcome (.sent 2), .polled [{ id := "d" }]] ∧
      Delivery {} .dropOldest (rushed.occurrences rush) (rushed.performAll rush).2.1 ∧
      (rushed.performAll rush).2.1.queue.dropped = 1 := by
  intro rushed
  have hreplies : (rushed.performAll rush).1 = [.nothing, .taken true, .taken true, .taken true,
      .outcome (.sent 2), .polled [{ id := "d" }]] := by decide +kernel
  have haccepted : ∀ polled requeued,
      .outcome (.failed polled requeued) ∉ (rushed.performAll rush).1 := by
    intro polled requeued
    rw [hreplies]
    simp
  have hdelivery := delivery_performAll { capacity := 2, overflow := .dropOldest } {} {} {} rush
    haccepted
  exact ⟨haccepted, hreplies, hdelivery.2.2.1, by decide +kernel⟩

end Pipeline

end ClientMetrics
