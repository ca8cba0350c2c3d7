import ClientMetrics.Proofs.Simulation.Sequential

/-!
# The steps of the threads

What a step of a producer or of the dispatcher does to the queue and the counters, whatever the
other threads do. Of each step it is known which sums it keeps (`Balance`) and that it leaves its
thread with less to do (`weight`).

* `Producer.Steps`, `Dispatcher.Steps` — all steps there are;
* `Producer.Proper` — a producer skips impressions exactly if collection is refused;
* `Producer.Steps.balance` — an impression that is offered goes into the queue, or something is
  lost;
* `Dispatcher.Steps.balance` — an impression that leaves the queue is sent;
* `Dispatcher.Steps.late`, `Dispatcher.Steps.ended` — when the loop and the ticks after it end.
-/

namespace ClientMetrics

namespace Simulation

/-! ## Producers -/

namespace Producer

/-- All steps of a producer. -/
inductive Steps (gate : ConsentGate) (c : Shared) : Producer → Shared → Producer → Prop where
  | ends : Steps gate c ⟨[], .asks⟩ { c with active := c.active - 1 } ⟨[], .ended⟩
  | leaves {i todo} (h : i.isTerminal = false) : Steps gate c ⟨i :: todo, .asks⟩ c ⟨todo, .asks⟩
  | refused {i todo} (h : gate.isDisallowed = true) :
    Steps gate c ⟨i :: todo, .asks⟩ c ⟨todo, .skips⟩
  | allowed {i todo} (h : gate.isDisallowed = false) :
    Steps gate c ⟨i :: todo, .asks⟩ c ⟨todo, .offers i⟩
  | skips {todo} :
    Steps gate c ⟨todo, .skips⟩ { c with skipped := c.skipped + 1 } ⟨todo, .asks⟩
  | fits {i todo} (h : c.queue.isFull = false) :
    Steps gate c ⟨todo, .offers i⟩ { c with queue := (c.queue.insert i).2.2 }
      ⟨todo, .answered (c.queue.insert i).1⟩
  | overflows {i todo} (h : c.queue.isFull = true) :
    Steps gate c ⟨todo, .offers i⟩ { c with queue := (c.queue.insert i).2.2 }
      ⟨todo, .owes (c.queue.insert i).1⟩
  | owes {taken todo} :
    Steps gate c ⟨todo, .owes taken⟩ { c with queue := c.queue.recordLoss } ⟨todo, .answered taken⟩
  | answered {taken todo} :
    Steps gate c ⟨todo, .answered taken⟩
      { c with accepted := c.accepted + if taken then 1 else 0 } ⟨todo, .asks⟩

/-- A producer takes no other steps. -/
theorem steps_of_step {gate : ConsentGate} {c c' : Shared} {p p' : Producer}
    (h : p.step gate c = some (c', p')) : p.Steps gate c c' p' := by
  obtain ⟨todo, stage⟩ := p
  unfold step at h
  -- one stage of the producer, one constructor of `Steps`
  cases stage with
  | asks =>
    cases todo with
    | nil => cases h; exact .ends
    | cons i todo =>
      dsimp only at h
      split at h
      next hi => cases h; exact .leaves (by simpa using hi)
      next =>
        split at h
        next hgate => cases h; exact .refused hgate
        next hgate => cases h; exact .allowed (Bool.eq_false_iff.2 hgate)
  | skips => cases h; exact .skips
  | offers i =>
    cases hfull : c.queue.isFull with
    | true =>
      rw [hfull] at h
      cases h
      exact .overflows hfull
    | false =>
      rw [hfull] at h
      cases h
      exact .fits hfull
  | owes taken => cases h; exact .owes
  | answered taken => cases h; exact .answered
  | ended => cases h

/-- How many impressions it has neither skipped nor offered. -/
def pending (p : Producer) : Nat :=
  p.todo.length + match p.stage with
    | .skips | .offers _ => 1
    | _ => 0

/-- How many losses it still has to count. -/
def owed (p : Producer) : Nat :=
  match p.stage with
  | .owes _ => 1
  | _ => 0

/-- How many impressions that were taken it still has to count. -/
def untold (p : Producer) : Nat :=
  match p.stage with
  | .owes true | .answered true => 1
  | _ => 0

/-- One for a producer that is at work. -/
def running (p : Producer) : Nat :=
  match p.stage with
  | .ended => 0
  | _ => 1

/-- A bound on the steps that it can still take. -/
def weight (p : Producer) : Nat :=
  -- an impression takes four steps at most, and the end is one more
  4 * p.todo.length + match p.stage with
    | .asks => 1
    | .skips => 2
    | .offers _ => 4
    | .owes _ => 3
    | .answered _ => 2
    | .ended => 0

/-- Its impressions are complete, and it skips them exactly if collection is refused. It ends when
none is left. -/
structure Proper (refused : Bool) (p : Producer) : Prop where
  terminal : ∀ i ∈ p.todo, i.isTerminal = true
  /-- What it does with an impression depends on the gate alone. -/
  lane : match p.stage with
    | .asks => True
    | .skips => refused = true
    | .offers _ | .owes _ | .answered _ => refused = false
    | .ended => p.todo = []

/-- A producer stays one that keeps to its lane. -/
theorem Steps.proper {gate : ConsentGate} {c c' : Shared} {p p' : Producer}
    (h : p.Steps gate c c' p') (hp : p.Proper gate.isDisallowed) : p'.Proper gate.isDisallowed := by
  obtain ⟨hterminal, hlane⟩ := hp
  cases h with
  | ends => exact ⟨hterminal, rfl⟩
  | leaves => exact ⟨fun j hj => hterminal j (List.mem_cons_of_mem _ hj), trivial⟩
  | refused hgate | allowed hgate =>
    exact ⟨fun j hj => hterminal j (List.mem_cons_of_mem _ hj), hgate⟩
  | skips | answered => exact ⟨hterminal, trivial⟩
  -- an offer under way was allowed
  | fits | overflows | owes => exact ⟨hterminal, hlane⟩

end Producer

/-- The losses of a queue that refuses what does not fit, with those that are still to be
counted. -/
def refusals (q : SendingQueue Impression) (owed : Nat) : Nat :=
  match q.overflow with
  | .reject => q.dropped + owed
  | .dropOldest => 0

/-- What a step of a producer does to the totals. -/
structure Producer.Balance (p : Producer) (c c' : Shared) (p' : Producer) : Prop where
  lighter : p'.weight < p.weight
  /-- An impression may go into the queue only once. -/
  load : c'.queue.size + p'.pending ≤ c.queue.size + p.pending
  running : c'.active + p.running = c.active + p'.running
  /-- An impression is skipped or goes into the queue, or one is lost. -/
  offered : c'.skipped + c'.queue.size + c'.queue.dropped + p'.owed + p'.pending =
    c.skipped + c.queue.size + c.queue.dropped + p.owed + p.pending
  /-- An impression is skipped, taken or refused. -/
  told : c'.skipped + c'.accepted + p'.untold + p'.pending + refusals c'.queue p'.owed =
    c.skipped + c.accepted + p.untold + p.pending + refusals c.queue p.owed

/-- A loss counts once, as long as the counter has room. -/
theorem dropped_recordLoss {q : SendingQueue Impression} (h : q.dropped + 1 < 2 ^ 64) :
    q.recordLoss.dropped = q.dropped + 1 := by
  unfold SendingQueue.dropped at h ⊢
  rw [SendingQueue.losses_recordLoss, UInt64.toNat_add]
  exact Nat.mod_eq_of_lt h

/-- What an insertion loses is counted later. -/
@[simp] theorem dropped_insert (q : SendingQueue Impression) (i : Impression) :
    (q.insert i).2.2.dropped = q.dropped := by
  unfold SendingQueue.dropped
  rw [SendingQueue.losses_insert]

/-- A queue with room takes an impression and grows by it. -/
theorem insert_of_room {q : SendingQueue Impression} (h : q.isFull = false) (i : Impression) :
    (q.insert i).1 = true ∧ (q.insert i).2.2.size = q.size + 1 := by
  have hroom : q.size < q.capacity := by simpa [SendingQueue.isFull, SendingQueue.size] using h
  rcases q.insert_cases i with ⟨-, ht, -, hi⟩ | ⟨heq, -⟩ | ⟨heq, -⟩
  · exact ⟨ht, by simp [SendingQueue.size, hi]⟩
  · omega
  · omega

/-- A full queue takes an impression only in the place of another one. -/
theorem insert_of_full {q : SendingQueue Impression} (h : q.isFull = true) (hc : 0 < q.capacity)
    (i : Impression) :
    (q.insert i).1 = decide (q.overflow = .dropOldest) ∧ (q.insert i).2.2.size = q.size := by
  have hfull : q.capacity ≤ q.size := by simpa [SendingQueue.isFull, SendingQueue.size] using h
  rcases q.insert_cases i with ⟨hlt, -⟩ | ⟨-, ho, oldest, kept, hq, ht, -, hi⟩ | ⟨-, ho, hsame⟩
  · omega
  · exact ⟨by simp [ht, ho], by simp [SendingQueue.size, hi, hq]⟩
  · have hreject : q.overflow = .reject := ho.resolve_right (by omega)
    simp [hsame, hreject]

/-- What other producers still have to count is added to the refusals. -/
theorem refusals_add (q : SendingQueue Impression) (others owed : Nat) :
    refusals q (others + owed) = refusals q owed + if q.overflow = .reject then others else 0 := by
  unfold refusals
  cases q.overflow
  · simp only [if_true]
    omega
  · rfl

/-- An insertion alone refuses nothing, as far as that is counted. -/
theorem refusals_insert (q : SendingQueue Impression) (i : Impression) (owed : Nat) :
    refusals (q.insert i).2.2 owed = refusals q owed := by
  unfold refusals
  rw [SendingQueue.overflow_insert, dropped_insert]

namespace Producer

/-- A step of a producer brings its impressions nearer to their end and loses count of none. -/
theorem Steps.balance {gate : ConsentGate} {c c' : Shared} {p p' : Producer}
    (h : p.Steps gate c c' p') (hp : p.Proper gate.isDisallowed) (hactive : p.running ≤ c.active)
    (hcapacity : 0 < c.queue.capacity) (hdropped : c.queue.dropped + p.owed < 2 ^ 64) :
    Balance p c c' p' := by
  cases h with
  | ends =>
    simp only [running] at hactive
    constructor <;> simp only [weight, pending, owed, untold, running, List.length_nil] <;> omega
  | leaves hi => exact absurd (hp.terminal _ List.mem_cons_self) (Bool.eq_false_iff.1 hi)
  | refused | allowed | skips =>
    constructor <;> simp only [weight, pending, owed, untold, running, List.length_cons] <;> omega
  | @fits i todo hroom =>
    obtain ⟨htaken, hsize⟩ := insert_of_room hroom i
    constructor <;> simp only [weight, pending, owed, untold, running, htaken, hsize,
      dropped_insert, refusals_insert] <;> omega
  | @overflows i todo hfull =>
    obtain ⟨htaken, hsize⟩ := insert_of_full hfull hcapacity i
    -- the loss is this impression, or an older one that was taken
    cases ho : c.queue.overflow <;> rw [ho] at htaken <;> constructor <;>
      simp [weight, pending, owed, untold, running, htaken, hsize, refusals, ho] <;> omega
  | @owes taken todo =>
    -- what was owed is counted now
    simp only [owed] at hdropped
    have hcount := dropped_recordLoss hdropped
    cases ho : c.queue.overflow <;> cases taken <;> constructor <;>
      simp [weight, pending, owed, untold, running, hcount, refusals, ho, SendingQueue.size] <;>
      omega
  | @answered taken todo =>
    cases taken <;> constructor <;> simp only [weight, pending, owed, untold, running, if_true,
      Bool.false_eq_true, if_false] <;> omega

/-- A producer that has ended has nothing left to do. -/
theorem Proper.eq_ended {refused : Bool} {p : Producer} (hp : p.Proper refused)
    (h : p.running = 0) : p = ⟨[], .ended⟩ := by
  obtain ⟨todo, stage⟩ := p
  cases stage with
  | ended => exact congrArg (Producer.mk · .ended) hp.lane
  | _ => exact absurd h Nat.one_ne_zero

/-- Only a producer at work takes a step. -/
theorem Steps.running_eq {gate : ConsentGate} {c c' : Shared} {p p' : Producer}
    (h : p.Steps gate c c' p') : p.running = 1 := by
  cases h <;> rfl

/-- A producer at work can always go on. -/
theorem isSome_step (gate : ConsentGate) (c : Shared) {p : Producer} (h : p.running ≠ 0) :
    (p.step gate c).isSome = true := by
  obtain ⟨todo, stage⟩ := p
  unfold step
  -- only a producer that has ended cannot take a step
  cases stage with
  | asks =>
    cases todo with
    | nil => rfl
    | cons i todo =>
      dsimp only
      split
      · rfl
      · split <;> rfl
  | ended => exact absurd rfl h
  | _ => rfl

/-- The rest of what a step leaves alone. -/
theorem Steps.frame {gate : ConsentGate} {c c' : Shared} {p p' : Producer}
    (h : p.Steps gate c c' p') :
    c'.sent = c.sent ∧ c'.queue.capacity = c.queue.capacity ∧
      c'.queue.overflow = c.queue.overflow := by
  cases h <;> simp

/-- Nothing is skipped unless collection is refused, and then nothing is offered. -/
theorem Steps.separate {gate : ConsentGate} {c c' : Shared} {p p' : Producer}
    (h : p.Steps gate c c' p') (hp : p.Proper gate.isDisallowed) :
    (gate.isDisallowed = false → c'.skipped = c.skipped) ∧
      (gate.isDisallowed = true → c'.queue = c.queue ∧ c'.accepted = c.accepted) := by
  have hlane := hp.lane
  cases h <;> simp_all

end Producer

/-! ## The dispatcher -/

namespace Dispatcher

/-- All steps of the dispatcher. -/
inductive Steps (gate : ConsentGate) (s : Settings) (c : Shared) :
    Dispatcher → Shared → Dispatcher → Prop where
  | stops (h : c.active = 0) : Steps gate s c .waits c (.asks .final)
  | blocked {round} (h : gate.isDisallowed = true) :
    Steps gate s c (.asks round) c (round.next false)
  | allowed {round} (h : gate.isDisallowed = false) :
    Steps gate s c (.asks round) c (.polls round)
  | empty {round} (h : (c.queue.poll s.dispatch.batchSize.toNat).1 = []) :
    Steps gate s c (.polls round)
      { c with queue := (c.queue.poll s.dispatch.batchSize.toNat).2 } (round.next false)
  | polls {round} (h : (c.queue.poll s.dispatch.batchSize.toNat).1 ≠ []) :
    Steps gate s c (.polls round)
      { c with queue := (c.queue.poll s.dispatch.batchSize.toNat).2 }
      (.sends round (c.queue.poll s.dispatch.batchSize.toNat).1)
  | sends {round is} :
    Steps gate s c (.sends round is) { c with sent := c.sent + is.length } (round.next true)

/-- The dispatcher takes no other steps. -/
theorem steps_of_step {gate : ConsentGate} {s : Settings} {c c' : Shared} {d d' : Dispatcher}
    (h : d.step gate s c = some (c', d')) : d.Steps gate s c c' d' := by
  -- one state of the dispatcher, one or two constructors of `Steps`
  cases d with
  | waits =>
    simp only [step] at h
    split at h
    next hactive => cases h; exact .stops hactive
    next => cases h
  | asks round =>
    cases hgate : gate.isDisallowed with
    | true => simp only [step, hgate] at h; cases h; exact .blocked hgate
    | false => simp only [step, hgate] at h; cases h; exact .allowed hgate
  | polls round =>
    by_cases hempty : (c.queue.poll s.dispatch.batchSize.toNat).1 = []
    · simp only [step] at h
      rw [if_pos hempty] at h
      cases h
      exact .empty hempty
    · simp only [step] at h
      rw [if_neg hempty] at h
      cases h
      exact .polls hempty
  | sends round is =>
    simp only [step, Batch.size, Batch.ofImpressions, List.length_map] at h
    cases h
    exact .sends
  | ended => cases h

/-- The loop has ended, and ticks follow for as long as batches are sent. -/
def isDraining : Dispatcher → Bool
  | asks .drain | polls .drain | sends .drain _ | ended => true
  | _ => false

/-- How many impressions are in a batch that is being sent. -/
def inFlight : Dispatcher → Nat
  | sends _ is => is.length
  | _ => 0

/-- The loop has found all producers ended. -/
def isLate : Dispatcher → Bool
  | waits => false
  | asks round | polls round | sends round _ => round != .regular
  | ended => true

end Dispatcher

/-- What a round adds to a bound on the steps of the dispatcher. -/
def Round.weight : Round → Nat
  | regular => 6
  | final => 2
  | drain => 0

namespace Dispatcher

/-- A bound on the steps that the dispatcher can still take without its ticker, if `load`
impressions may still be found in the queue. -/
def weight (load : Nat) : Dispatcher → Nat
  -- a tick that sends a batch takes three steps and finds at least one impression
  | waits => 3 * load + 5
  | asks round => 3 * load + round.weight + 2
  | polls round => 3 * load + round.weight + 1
  | sends round _ => 3 * load + round.weight + 3
  | ended => 0

/-- With less to find there are fewer steps to take. -/
theorem weight_mono {load load' : Nat} (h : load' ≤ load) (d : Dispatcher) :
    d.weight load' ≤ d.weight load := by
  cases d <;> simp only [weight] <;> omega

end Dispatcher

namespace Round

/-- Between two rounds nothing is being sent. -/
@[simp] theorem inFlight_next (round : Round) (sent : Bool) : (round.next sent).inFlight = 0 := by
  cases round <;> cases sent <;> rfl

/-- After a round the loop is over exactly if the round was not a regular one. -/
@[simp] theorem isLate_next (round : Round) (sent : Bool) :
    (round.next sent).isLate = (round != .regular) := by
  cases round <;> cases sent <;> rfl

/-- What follows a round takes no more steps than the round allows, and fewer if nothing was sent in
it. -/
theorem weight_next_le (round : Round) (sent : Bool) (load : Nat) :
    (round.next sent).weight load ≤ 3 * load + round.weight + 2 ∧
      (sent = false → (round.next sent).weight load ≤ 3 * load + round.weight) := by
  cases round <;> cases sent <;> simp [next, Dispatcher.weight, weight]

end Round

namespace Dispatcher

/-- What a step of the dispatcher does to the totals. -/
structure Balance (s : Settings) (c : Shared) (d : Dispatcher) (c' : Shared) (d' : Dispatcher) :
    Prop where
  /-- Whatever the producers may still put into the queue. -/
  lighter : ∀ pending, d'.weight (c'.queue.size + pending) < d.weight (c.queue.size + pending)
  load : c'.queue.size ≤ c.queue.size
  sent : c'.queue.size + d'.inFlight + c'.sent = c.queue.size + d.inFlight + c.sent
  /-- Batches without room are never sent. -/
  idle : s.dispatch.batchSize = 0 → c'.sent + d'.inFlight = c.sent + d.inFlight

/-- A step of the dispatcher brings it nearer to its end, and what leaves the queue is sent. -/
theorem Steps.balance {gate : ConsentGate} {s : Settings} {c c' : Shared} {d d' : Dispatcher}
    (h : d.Steps gate s c c' d') : Balance s c d c' d' := by
  cases h with
  | stops =>
    refine ⟨fun pending => ?_, Nat.le_refl _, rfl, fun _ => rfl⟩
    simp only [weight, Round.weight]
    omega
  | @blocked round =>
    refine ⟨fun pending => ?_, Nat.le_refl _, ?_, fun _ => ?_⟩
    · have hnext := (round.weight_next_le false (c.queue.size + pending)).2 rfl
      show _ < 3 * (c.queue.size + pending) + round.weight + 2
      omega
    · rw [Round.inFlight_next]
      rfl
    · rw [Round.inFlight_next]
      rfl
  | allowed =>
    refine ⟨fun pending => ?_, Nat.le_refl _, rfl, fun _ => rfl⟩
    simp only [weight]
    omega
  | @empty round hempty =>
    -- nothing was polled, so the queue is as long as before
    have hpoll := c.queue.length_add_size_poll s.dispatch.batchSize.toNat
    rw [hempty, List.length_nil] at hpoll
    refine ⟨fun pending => ?_, by dsimp only; omega, ?_, fun _ => ?_⟩
    · have hnext := (round.weight_next_le false (c.queue.size + pending)).2 rfl
      rw [show (c.queue.poll s.dispatch.batchSize.toNat).2.size = c.queue.size by omega]
      show _ < 3 * (c.queue.size + pending) + round.weight + 1
      omega
    · rw [Round.inFlight_next]
      show (c.queue.poll s.dispatch.batchSize.toNat).2.size + 0 + c.sent =
        c.queue.size + 0 + c.sent
      omega
    · rw [Round.inFlight_next]
      rfl
  | @polls round hsome =>
    have hpoll := c.queue.length_add_size_poll s.dispatch.batchSize.toNat
    have hpos := List.length_pos_iff.2 hsome
    refine ⟨fun pending => ?_, by dsimp only; omega, ?_, fun hidle => absurd ?_ hsome⟩
    · -- what is sent is no longer in the queue
      simp only [weight]
      omega
    · simp only [inFlight]
      omega
    · simp [hidle]
  | @sends round is =>
    refine ⟨fun pending => ?_, Nat.le_refl _, ?_, fun _ => ?_⟩
    · have hnext := (round.weight_next_le true (c.queue.size + pending)).1
      show (round.next true).weight (c.queue.size + pending) <
        3 * (c.queue.size + pending) + round.weight + 3
      omega
    · rw [Round.inFlight_next]
      simp only [inFlight]
      omega
    · rw [Round.inFlight_next]
      rfl

/-- The rest of what a step leaves alone. -/
theorem Steps.frame {gate : ConsentGate} {s : Settings} {c c' : Shared} {d d' : Dispatcher}
    (h : d.Steps gate s c c' d') :
    c'.active = c.active ∧ c'.skipped = c.skipped ∧ c'.accepted = c.accepted ∧
      c'.queue.dropped = c.queue.dropped ∧ c'.queue.capacity = c.queue.capacity ∧
      c'.queue.overflow = c.queue.overflow := by
  cases h <;> simp [SendingQueue.dropped]

/-- The dispatcher leaves its loop only when all producers have ended. -/
theorem Steps.late {gate : ConsentGate} {s : Settings} {c c' : Shared} {d d' : Dispatcher}
    (h : d.Steps gate s c c' d') (hd : d.isLate = true → c.active = 0) :
    d'.isLate = true → c.active = 0 := by
  cases h with
  | stops hactive => exact fun _ => hactive
  | allowed => exact hd
  | polls => exact hd
  | blocked | empty | sends =>
    rw [Round.isLate_next]
    exact hd

/-- After the loop, the dispatcher does not go back to it. -/
theorem Steps.draining {gate : ConsentGate} {s : Settings} {c c' : Shared} {d d' : Dispatcher}
    (h : d.Steps gate s c c' d') (hd : d.isDraining = true) : d'.isDraining = true := by
  cases h with
  | stops => cases hd
  | @blocked round | @allowed round | @empty round | @polls round | @sends round =>
    cases round with
    | drain => rfl
    | regular | final => cases hd

/-- It ends with a tick that found the gate closed or the queue empty, or could not poll. -/
theorem Steps.ended {gate : ConsentGate} {s : Settings} {c c' : Shared} {d d' : Dispatcher}
    (h : d.Steps gate s c c' d') (hd : d' = .ended) :
    gate.isDisallowed = true ∨ s.dispatch.batchSize = 0 ∨ c'.queue.size = 0 := by
  cases h with
  | stops => cases hd
  | blocked hgate => exact .inl hgate
  | allowed => cases hd
  | empty hempty =>
    refine .inr ?_
    -- a poll returns nothing if it may return nothing, or if there is nothing
    rw [SendingQueue.poll_fst, List.take_eq_nil_iff] at hempty
    rcases hempty with hzero | hitems
    · exact .inl (UInt64.toNat_inj.1 hzero)
    · exact .inr (by simp [SendingQueue.size, hitems])
  | polls => cases hd
  | @sends round => cases round <;> cases hd

end Dispatcher

end Simulation

end ClientMetrics
