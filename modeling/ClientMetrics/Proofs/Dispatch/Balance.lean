import ClientMetrics.Dispatch.Pipeline
import ClientMetrics.Proofs.Queue.Fifo
import Mathlib.Algebra.Order.Group.Multiset
import Mathlib.Tactic.Abel

/-!
# The balance of a pipeline

Whatever is done to a pipeline, the impressions that were waiting and those that came in are those
that are waiting afterwards, those that went out and those that overflowed, and the queue counts
the latter. Impressions are counted with multiplicity.

* `Balanced` — that balance, with `refl`, `trans` and `cancel`;
* `balanced_offer`, `balanced_poll` — the two operations of the queue;
* `balanced_serve`, `balanced_start`, `balanced_handOver`, `balanced_settle` — steps and the
  parts of a tick.
-/

namespace ClientMetrics

/-- From one pipeline to another, `came` is what came in and `went` what went out. -/
def Balanced (p : Pipeline) (came : Multiset Impression) (p' : Pipeline)
    (went : Multiset Impression) : Prop :=
  ∃ overflowed : Multiset Impression,
    (p.queue.items : Multiset Impression) + came = p'.queue.items + went + overflowed ∧
    p'.queue.losses = p.queue.losses + UInt64.ofNat overflowed.card

namespace Balanced

variable {p p' p'' : Pipeline} {came came' went went' extra : Multiset Impression}

/-- What comes in may go out again, and the queue is as before. -/
theorem refl (p : Pipeline) (extra : Multiset Impression) : Balanced p extra p extra :=
  ⟨0, by simp, by simp⟩

/-- Balances add up: what overflowed on the way is what overflowed in both parts. -/
theorem trans (h : Balanced p came p' went) (h' : Balanced p' came' p'' went') :
    Balanced p (came + came') p'' (went + went') := by
  obtain ⟨o, hitems, hlosses⟩ := h
  obtain ⟨o', hitems', hlosses'⟩ := h'
  -- the pipeline in the middle cancels out
  refine ⟨o + o', ?_, ?_⟩
  · calc (p.queue.items : Multiset Impression) + (came + came')
        = p.queue.items + came + came' := by abel
      _ = p'.queue.items + came' + (went + o) := by rw [hitems]; abel
      _ = p''.queue.items + (went + went') + (o + o') := by rw [hitems']; abel
  · rw [hlosses', hlosses, Multiset.card_add, UInt64.ofNat_add, UInt64.add_assoc]

/-- Both sides may be written in other ways. -/
theorem of_eq (h : Balanced p came p' went) (hcame : came = came') (hwent : went = went') :
    Balanced p came' p' went' := hcame ▸ hwent ▸ h

/-- What came in and went out again may be left out. -/
theorem cancel (h : Balanced p (came + extra) p' (went + extra)) : Balanced p came p' went := by
  obtain ⟨o, hitems, hlosses⟩ := h
  refine ⟨o, add_right_cancel (b := extra) ?_, hlosses⟩
  calc (p.queue.items : Multiset Impression) + came + extra
      = p.queue.items + (came + extra) := by abel
    _ = p'.queue.items + went + o + extra := by rw [hitems]; abel

end Balanced

/-! ## The queue -/

/-- An offer loses what its insertion loses. -/
theorem balanced_offer (p : Pipeline) (i : Impression) : Balanced p {i} (p.offer i).2.1 0 := by
  have hitems : (p.offer i).2.1.queue.items = (p.queue.insert i).2.2.items := p.queue.items_offer i
  have hlosses : (p.offer i).2.1.queue.losses = _ := p.queue.losses_offer i
  have hlost := p.queue.length_lost_insert i
  have hmoved := congrArg (fun is : List Impression => (is : Multiset Impression))
    (p.queue.insert_balance i)
  simp only [← Multiset.coe_add] at hmoved
  generalize p.queue.insert i = inserted at hitems hlost hmoved
  obtain ⟨taken, evicted, q⟩ := inserted
  refine ⟨(SendingQueue.Deed.offered i taken evicted).lost, ?_, ?_⟩
  · -- the item is put into the buffer or refused
    have hitem : ({i} : Multiset Impression) =
        (if taken then [i] else [] : List Impression) +
          (if taken then [] else [i] : List Impression) := by
      cases taken <;> simp
    rw [hitems, hitem, ← add_assoc, ← hmoved, SendingQueue.Deed.lost, ← Multiset.coe_add]
    abel
  · rw [hlosses, Multiset.coe_card, hlost]
    split <;> rfl

/-- A poll loses nothing. -/
theorem balanced_poll (p : Pipeline) (max : Nat) :
    Balanced p 0 { p with queue := (p.queue.poll max).2 } (p.queue.poll max).1 := by
  refine ⟨0, ?_, by simp⟩
  have hsplit : p.queue.items.take max ++ p.queue.items.drop max = p.queue.items :=
    List.take_append_drop max p.queue.items
  simp only [SendingQueue.items_poll, SendingQueue.poll_fst, add_zero]
  rw [add_comm, Multiset.coe_add, hsplit]

theorem balanced_offerAll (p : Pipeline) (is : List Impression) :
    Balanced p is (p.offerAll is).2.1 0 := by
  induction is generalizing p with
  | nil => exact .refl p 0
  | cons i is ih => exact (balanced_offer p i).trans (ih _)

/-! ## Steps -/

/-- What a step offers. -/
def Step.offers : Step → Multiset Impression
  | offer i => {i}
  | fill name count => Impression.numbered name count
  | _ => 0

/-- What a step took out of the queue. -/
def Reply.removed : Reply → Multiset Impression
  | polled impressions => impressions
  | _ => 0

/-- What steps offer. -/
def offersOf (steps : List Step) : Multiset Impression := (steps.map Step.offers).sum

/-- What steps took out of the queue. -/
def removedBy (replies : List Reply) : Multiset Impression := (replies.map Reply.removed).sum

/-- A step balances what it offers with what it took out. -/
theorem balanced_apply (p : Pipeline) (s : Step) :
    Balanced p s.offers (p.apply s).2.1 (p.apply s).1.removed := by
  -- three steps touch the queue; the others leave it as it is
  cases s with
  | offer i => exact balanced_offer p i
  | fill name count => exact balanced_offerAll p _
  | poll max => exact balanced_poll p max
  | consent value => exact .refl p 0
  | transport t => exact .refl p 0

theorem balanced_serve (p : Pipeline) (steps : List Step) :
    Balanced p (offersOf steps) (p.serve steps).2.1 (removedBy (p.serve steps).1) := by
  induction steps generalizing p with
  | nil => exact .refl p 0
  | cons s steps ih => exact (balanced_apply p s).trans (ih _)

/-! ## The parts of a tick -/

/-- What a tick has taken out of the queue when it starts. -/
def Start.removed : Start → Multiset Impression
  | done _ => 0
  | sending impressions => impressions

/-- What a tick polls at its start is out of the queue. -/
theorem balanced_start (p : Pipeline) : Balanced p 0 p.start.2.1 p.start.1.removed := by
  unfold Pipeline.start
  split
  next => exact .refl p 0
  next =>
    -- a tick that finds nothing has taken nothing
    have hpoll := balanced_poll p p.settings.batchSize.toNat
    by_cases hnone : (p.queue.poll p.settings.batchSize.toNat).1 = []
    · rw [hnone] at hpoll
      dsimp only
      rw [if_pos hnone]
      exact hpoll
    · dsimp only
      rw [if_neg hnone]
      exact hpoll

/-- Late offers come in while a batch is handed over. -/
theorem balanced_handOver (p : Pipeline) (is : List Impression) :
    Balanced p p.transport.late (p.handOver is).1 0 :=
  balanced_offerAll p _

/-- What is done with after a send: the batch was accepted, or it failed and is not offered
again. -/
def spent (retry : Bool) (impressions : List Impression) (failure : Option TransportError) :
    Multiset Impression :=
  if failure.isSome && retry then 0 else impressions

/-- A batch that was accepted is spent, and one that failed comes in again if it is retried. -/
theorem balanced_settle (p : Pipeline) (is : List Impression) (failure : Option TransportError) :
    Balanced p is (p.settle is failure).2.1 (spent p.settings.retryFailed is failure) := by
  cases failure with
  | none => exact .refl p is
  | some error =>
    have hoffers := balanced_offerAll p (if p.settings.retryFailed then is else [])
    cases hretry : p.settings.retryFailed with
    | true => simpa [Pipeline.settle, spent, hretry] using hoffers
    | false =>
      -- nothing is offered, and the impressions of the batch are gone
      have hgone := hoffers.trans (.refl _ (is : Multiset Impression))
      simpa [Pipeline.settle, spent, hretry] using hgone

end ClientMetrics
