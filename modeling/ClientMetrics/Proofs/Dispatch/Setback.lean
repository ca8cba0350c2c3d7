import ClientMetrics.Proofs.Dispatch.Delivery
import ClientMetrics.Proofs.Dispatch.Ticks
import ClientMetrics.Proofs.Queue.Burst

/-!
# What a failed send leaves behind

A send that fails has three effects on the queue, one after the other: its impressions were polled,
others were offered while it was under way, and its own are offered again if that is wanted. The
last two are one burst of offers to what the poll has left. So the queue holds what it keeps of all
these impressions in a row, and no impression that was taken back makes room for a later one of its
own batch.

Key results:
- `queue_offerAll`, `queue_serve`: offers of a pipeline are bursts of offers to its queue.
- `serves_flight`: what happens while a send is under way.
- `FailedSend`: the ways in which the send of a tick can fail.
- `setback_settle`, `setback_tick`, `setback_timedTick`, `setback_of_failedSend`: what such a tick
  answers and leaves behind (`Setback`).
-/

namespace ClientMetrics

namespace Pipeline

/-! ## Offers are bursts -/

/-- What many offers leave in the queue is what a burst of them leaves. -/
theorem queue_offerAll (p : Pipeline) (is : List Impression) :
    (p.offerAll is).2.1.queue = (p.queue.burst is).2 := by
  induction is generalizing p with
  | nil => rfl
  | cons i is ih => exact ih (p.offer i).2.1

/-- The number of impressions that were taken is the number of offers that were answered so. -/
theorem offerAll_fst (p : Pipeline) (is : List Impression) :
    (p.offerAll is).1 = (p.queue.burst is).1.count true := by
  induction is generalizing p with
  | nil => rfl
  | cons i is ih =>
    have hmore := ih (p.offer i).2.1
    have hqueue : (p.offer i).2.1.queue = (p.queue.offer i).2 := rfl
    have hanswer : (p.offer i).1 = (p.queue.offer i).1 := rfl
    rw [hqueue] at hmore
    -- the first answer is counted apart, and those to the others by the induction hypothesis
    show (if (p.offer i).1 then 1 else 0) + ((p.offer i).2.1.offerAll is).1 = _
    rw [hmore, hanswer, SendingQueue.burst_cons, List.count_cons]
    cases (p.queue.offer i).1
    · simp
    · simp only [if_true, beq_self_eq_true]
      omega

end Pipeline

/-- A step takes nothing out of the queue. -/
def Step.isAdding : Step → Bool
  | poll _ => false
  | _ => true

namespace Pipeline

/-- A step that takes nothing out of the queue is a burst of what it offers. -/
theorem queue_apply (p : Pipeline) {s : Step} (h : s.isAdding) :
    (p.apply s).2.1.queue = (p.queue.burst s.offerings).2 := by
  cases s with
  | offer i => rfl
  | fill name count => exact p.queue_offerAll _
  | poll max => cases h
  | consent value => rfl
  | transport t => rfl

/-- So are many such steps, one after the other. -/
theorem queue_serve (p : Pipeline) {steps : List Step} (h : ∀ s ∈ steps, s.isAdding) :
    (p.serve steps).2.1.queue = (p.queue.burst (steps.flatMap Step.offerings)).2 := by
  induction steps generalizing p with
  | nil => rfl
  | cons s steps ih =>
    have hfirst := p.queue_apply (h s List.mem_cons_self)
    have hmore := ih (p.apply s).2.1 fun s' hs' => h s' (List.mem_cons_of_mem s hs')
    rw [List.flatMap_cons, SendingQueue.burst_append, ← hfirst]
    exact hmore

end Pipeline

/-! ## While a send is under way -/

/-- While a send is awaited the events that are due take place, one after the other. -/
theorem serves_await (p : Pipeline) (stop : Option Nat) (timeout now : Nat)
    (script : List TimedSteps) :
    ∃ before, script = before ++ (await p stop timeout now script).script ∧
      (await p stop timeout now script).pipeline =
        (p.serve (before.flatMap TimedSteps.steps)).2.1 := by
  -- either the future is ready, or the transport answers before its next event, or that event is
  -- next
  fun_induction await p stop timeout now script with
  | case1 p now script polled hp =>
    obtain ⟨before, hscript, -, hpipeline, -⟩ := pollShutdown_serves p now script
    rw [hp] at hscript
    exact ⟨before, by simpa using hscript, by simpa using hpipeline⟩
  | case2 p now script polled e rest hp t ht =>
    obtain ⟨before, hscript, -, hpipeline, -⟩ := pollShutdown_serves p now script
    rw [hp] at hscript
    exact ⟨before, hscript, hpipeline⟩
  | case3 p now script polled e rest hp hnone ih =>
    obtain ⟨before, hscript, -, hpipeline, -⟩ := pollShutdown_serves p now script
    obtain ⟨later, hrest, hlater⟩ := ih
    rw [hp] at hscript
    -- what is left by the poll is served from the next event on
    refine ⟨before ++ later, ?_, ?_⟩
    · exact hscript.trans (by rw [List.append_assoc, Landing.script_after, ← hrest])
    · have hpolled : polled.pipeline = (p.serve (before.flatMap TimedSteps.steps)).2.1 := hpipeline
      rw [Landing.pipeline_after, hlater, hpolled, List.flatMap_append]
      exact (p.serve_append _ _).1.symm

namespace Pipeline

/-- Until a send returns, events of the shutdown future take place, and no others. The send of a
tick that is awaited without that future lets none of them take place. -/
theorem serves_flight (p : Pipeline) (is : List Impression) (d : Deadline) (now : Nat) :
    ∃ before, d.script = before ++ (p.flight is d now).script ∧
      (p.flight is d now).pipeline =
        ((p.handOver is).1.serve (before.flatMap TimedSteps.steps)).2.1 := by
  unfold flight Deadline.land
  cases d with
  | timeout => exact ⟨[], by simp [Deadline.script], by simp [serve]⟩
  | shutdown script =>
    dsimp only [Deadline.script]
    -- the transport answers at once, or it is awaited beside the future
    split
    next => exact ⟨[], rfl, rfl⟩
    next => exact serves_await ..

/-- A tick that has something to send, at a given time. -/
theorem timedTick_of_due {p : Pipeline} (h : p.gate.isDisallowed = false) (hdue : p.due ≠ [])
    (d : Deadline) (now : Nat) :
    let landing := p.polled.flight p.due d now
    let settled := landing.pipeline.settle p.due (landing.failure p.transport)
    (p.timedTick d now).outcome = settled.1 ∧ (p.timedTick d now).pipeline = settled.2.1 ∧
      (p.timedTick d now).script = landing.script := by
  unfold timedTick
  rw [start_of_open h, if_neg hdue]
  exact ⟨rfl, rfl, rfl⟩

/-! ## Failures -/

/-- How many impressions a tick polls if the gate lets it. -/
def share (p : Pipeline) : Nat := min p.settings.batchSize.toNat p.queue.size

/-- What is due is the share of the tick, from the start of the queue. -/
theorem due_eq_take (p : Pipeline) : p.due = p.queue.items.take p.share := by
  rw [due, share, SendingQueue.size, ← List.take_eq_take_min]

/-- The rest stays in the queue. -/
theorem items_polled (p : Pipeline) : p.polled.queue.items = p.queue.items.drop p.share := by
  show p.queue.items.drop p.settings.batchSize.toNat = _
  -- the batch size is beyond the end of the queue, or it is the share
  by_cases hall : p.queue.items.length ≤ p.settings.batchSize.toNat
  · have hshare : p.share = p.queue.items.length := Nat.min_eq_right hall
    rw [hshare, List.drop_of_length_le hall, List.drop_length]
  · have hshare : p.share = p.settings.batchSize.toNat := Nat.min_eq_left (by
      rw [SendingQueue.size]
      omega)
    rw [hshare]

/-- No more are polled than there are. -/
theorem share_le_size (p : Pipeline) : p.share ≤ p.queue.size := Nat.min_le_right _ _

theorem length_due (p : Pipeline) : p.due.length = p.share := by
  rw [due_eq_take, List.length_take]
  exact Nat.min_eq_left p.share_le_size

/-- The ways in which the send of a tick can fail. `late` is what is offered while it is under way,
and nothing is polled meanwhile. -/
inductive FailedSend (p : Pipeline) : List Impression → Outcome → Pipeline → Prop where
  /-- The tick is awaited until it returns, and the transport answers that it failed. -/
  | awaited (error : TransportError) (refused : p.transport.failure = some error)
      {outcome : Outcome} {left : Pipeline} {hs : List Happening}
      (returned : p.tick = some (outcome, left, hs)) :
    FailedSend p p.transport.late outcome left
  /-- The transport answers after some time, or the send is given up. Until then some events of the
  shutdown future take place. -/
  | timed (d : Deadline) (now : Nat) (error : TransportError)
      (refused : (p.polled.flight p.due d now).failure p.transport = some error)
      (before : List TimedSteps) (served : d.script = before ++ (p.timedTick d now).script)
      (adding : ∀ s ∈ before.flatMap TimedSteps.steps, s.isAdding) :
    FailedSend p (p.transport.late ++ (before.flatMap TimedSteps.steps).flatMap Step.offerings)
      (p.timedTick d now).outcome (p.timedTick d now).pipeline

/-- How many impressions of a failed batch are taken back if that many others came in meanwhile. -/
def takenBack (p : Pipeline) (late : Nat) : Nat :=
  if p.settings.retryFailed then
    match p.queue.overflow with
    | .reject =>
      min p.share (p.queue.capacity - min p.queue.capacity (p.queue.size - p.share + late))
    | .dropOldest => p.share
  else 0

end Pipeline

/-- What a tick answers and leaves behind whose send failed. The queue held the batch and `rest`
before, `late` came in during the send, and `again` is the batch if failed batches are retried. -/
structure Setback (p : Pipeline) (late : List Impression) (outcome : Outcome) (left : Pipeline) :
    Prop where
  outcome_eq : outcome = .failed p.share (p.takenBack late.length)
  /-- What the queue keeps of all of them in a row. -/
  items_eq : left.queue.items = p.queue.overflow.kept p.queue.capacity
    (p.queue.items.drop p.share ++ late ++ p.offeredAgain (p.queue.items.take p.share))
  /-- Those that are too many are counted. The counter wraps around. -/
  dropped_eq : left.queue.dropped = (p.queue.dropped +
    (p.queue.size - p.share + late.length + (p.offeredAgain (p.queue.items.take p.share)).length
      - p.queue.capacity)) % 2 ^ 64
  /-- No more are taken back than were polled. -/
  takenBack_le : p.takenBack late.length ≤ p.share
  /-- Those that were taken back are at the end of the queue, and before them are only others. -/
  whereabouts : ∃ others, others.Sublist (p.queue.items.drop p.share ++ late) ∧
    left.queue.items = others ++ (p.queue.items.take p.share).take (p.takenBack late.length)
  /-- If no impression was offered twice, so many of the batch are in the queue. -/
  present : (p.queue.items ++ late).Nodup →
    left.queue.items.countP (· ∈ p.queue.items.take p.share) = p.takenBack late.length

namespace Pipeline

/-- No more of a batch are taken back than were polled for it. -/
theorem takenBack_le_share (p : Pipeline) (late : Nat) : p.takenBack late ≤ p.share := by
  unfold takenBack
  split
  · split
    · exact Nat.min_le_left _ _
    · exact Nat.le_refl _
  · exact Nat.zero_le _

section Burst

variable {p q : Pipeline} {late : List Impression}
  (hqueue : q.queue = (p.polled.queue.burst late).2) (hsettings : q.settings = p.settings)

include hqueue hsettings

/-- The late offers and the repeated ones are one burst. -/
theorem queue_offeredAgain :
    (q.offerAll (q.offeredAgain p.due)).2.1.queue =
      (p.polled.queue.burst (late ++ p.offeredAgain p.due)).2 := by
  have hagain : q.offeredAgain p.due = p.offeredAgain p.due := by
    rw [offeredAgain, offeredAgain, hsettings]
  rw [queue_offerAll, hqueue, hagain, SendingQueue.burst_append]

/-- So many of the repeated offers are taken as there is room for, or all of them if older
impressions make room. -/
theorem offeredAgain_fst :
    (q.offerAll (q.offeredAgain p.due)).1 = p.takenBack late.length := by
  have hpolicy : q.queue.overflow = p.queue.overflow := by
    rw [hqueue, SendingQueue.overflow_burst]
    rfl
  have hcapacity : q.queue.capacity = p.queue.capacity := by
    rw [hqueue, SendingQueue.capacity_burst]
    rfl
  have hsize : q.queue.size = min p.queue.capacity (p.queue.size - p.share + late.length) := by
    have hrest : p.polled.queue.size = p.queue.size - p.share := by
      rw [SendingQueue.size, items_polled, List.length_drop]
      rfl
    rw [hqueue, SendingQueue.size_burst, hrest]
    rfl
  have hdue := p.length_due
  have hshare := p.share_le_size
  have hfits : p.queue.size ≤ p.queue.capacity := p.queue.length_le
  rw [offerAll_fst, SendingQueue.count_answers_burst, hpolicy, hcapacity, hsize, takenBack,
    offeredAgain, hsettings]
  -- if nothing is offered again, nothing is taken back either
  by_cases hretry : p.settings.retryFailed
  · rw [if_pos hretry, if_pos hretry, hdue]
    cases p.queue.overflow with
    | reject => rfl
    | dropOldest =>
      -- a batch that was polled from a queue fits into it
      by_cases hpos : 0 < p.queue.capacity
      · exact if_pos hpos
      · have hnone : p.share = 0 := by omega
        rw [hnone]
        simp
  · rw [if_neg hretry, if_neg hretry]
    cases p.queue.overflow <;> simp

end Burst

/-- Of the repeated offers those that are taken stand at the end. -/
theorem whereabouts_kept (p : Pipeline) (late : List Impression) :
    ∃ others, others.Sublist (p.queue.items.drop p.share ++ late) ∧
      p.queue.overflow.kept p.queue.capacity
          (p.queue.items.drop p.share ++ late ++ p.offeredAgain (p.queue.items.take p.share)) =
        others ++ (p.queue.items.take p.share).take (p.takenBack late.length) := by
  have hshare := p.share_le_size
  have hfits : p.queue.size ≤ p.queue.capacity := p.queue.length_le
  have hbatch : (p.queue.items.take p.share).length = p.share := by
    rw [← due_eq_take, length_due]
  have hothers : (p.queue.items.drop p.share ++ late).length =
      p.queue.size - p.share + late.length := by
    rw [List.length_append, List.length_drop]
    rfl
  generalize p.queue.items.drop p.share ++ late = others at hothers
  generalize p.queue.items.take p.share = batch at hbatch
  by_cases hretry : p.settings.retryFailed
  · have hagain : p.offeredAgain batch = batch := if_pos hretry
    rw [hagain, takenBack, if_pos hretry]
    cases p.queue.overflow with
    | reject =>
      -- others go first, and the batch gets what room they leave
      refine ⟨others.take p.queue.capacity, List.take_sublist _ _, ?_⟩
      have hroom : batch.take (p.queue.capacity - others.length) = batch.take (min p.share
          (p.queue.capacity - min p.queue.capacity (p.queue.size - p.share + late.length))) := by
        rw [List.take_eq_take_iff]
        omega
      rw [Overflow.kept, List.take_append, hroom]
    | dropOldest =>
      -- the batch fits, so only others make room
      refine ⟨others.drop (others.length + batch.length - p.queue.capacity),
        List.drop_sublist _ _, ?_⟩
      have hnone : others.length + batch.length - p.queue.capacity - others.length = 0 := by omega
      have hwhole : batch.take p.share = batch := List.take_of_length_le (by omega)
      show _ = _ ++ batch.take p.share
      rw [hwhole, Overflow.kept, List.length_append, List.drop_append, hnone, List.drop_zero]
  · have hagain : p.offeredAgain batch = [] := if_neg hretry
    rw [hagain, takenBack, if_neg hretry, List.append_nil, List.take_zero]
    refine ⟨p.queue.overflow.kept p.queue.capacity others, ?_, (List.append_nil _).symm⟩
    cases p.queue.overflow with
    | reject => exact List.take_sublist _ _
    | dropOldest => exact List.drop_sublist _ _

/-- If no impression was offered twice, those of the batch are told apart from the others. -/
theorem countP_present (p : Pipeline) {late others : List Impression} {n : Nat}
    (hdistinct : (p.queue.items ++ late).Nodup)
    (hothers : others.Sublist (p.queue.items.drop p.share ++ late)) (hn : n ≤ p.share) :
    (others ++ (p.queue.items.take p.share).take n).countP (· ∈ p.queue.items.take p.share) =
      n := by
  have hbatch : (p.queue.items.take p.share).length = p.share := by
    rw [← due_eq_take, length_due]
  rw [← List.take_append_drop p.share p.queue.items, List.append_assoc] at hdistinct
  -- the batch is the first part of the queue, so nothing behind it equals one of its members
  have hapart := (List.nodup_append.1 hdistinct).2.2
  have hnone : others.countP (· ∈ p.queue.items.take p.share) = 0 := by
    rw [List.countP_eq_zero]
    intro i hi hmem
    exact hapart i (of_decide_eq_true hmem) i (hothers.subset hi) rfl
  have hall : ((p.queue.items.take p.share).take n).countP (· ∈ p.queue.items.take p.share) =
      ((p.queue.items.take p.share).take n).length := by
    rw [List.countP_eq_length]
    intro i hi
    exact decide_eq_true (List.mem_of_mem_take hi)
  rw [List.countP_append, hnone, hall, List.length_take, hbatch]
  omega

/-- The batch of a failed send is settled. -/
theorem setback_settle {p q : Pipeline} {late : List Impression}
    (hqueue : q.queue = (p.polled.queue.burst late).2) (hsettings : q.settings = p.settings)
    (error : TransportError) :
    Setback p late (q.settle p.due (some error)).1 (q.settle p.due (some error)).2.1 := by
  have hleft := queue_offeredAgain hqueue hsettings
  have htaken := offeredAgain_fst hqueue hsettings
  have houtcome : (q.settle p.due (some error)).1 =
      .failed p.due.length (q.offerAll (q.offeredAgain p.due)).1 := rfl
  have hpipeline : (q.settle p.due (some error)).2.1 =
      (q.offerAll (q.offeredAgain p.due)).2.1 := rfl
  have hitems : (q.settle p.due (some error)).2.1.queue.items = p.queue.overflow.kept
      p.queue.capacity (p.queue.items.drop p.share ++ late ++
        p.offeredAgain (p.queue.items.take p.share)) := by
    rw [hpipeline, hleft, SendingQueue.items_burst, items_polled, ← List.append_assoc,
      due_eq_take]
    rfl
  obtain ⟨others, hothers, hkept⟩ := p.whereabouts_kept late
  exact {
    outcome_eq := by rw [houtcome, htaken, length_due]
    items_eq := hitems
    dropped_eq := by
      have hrest : p.polled.queue.size = p.queue.size - p.share := by
        rw [SendingQueue.size, items_polled, List.length_drop]
        rfl
      -- what is too many of both bursts together was not counted yet
      have hlosses : (p.polled.queue.burst (late ++ p.offeredAgain p.due)).2.losses =
          p.queue.losses + UInt64.ofNat (p.queue.size - p.share + late.length +
            (p.offeredAgain p.due).length - p.queue.capacity) := by
        rw [SendingQueue.losses_burst, hrest, List.length_append, ← Nat.add_assoc]
        rfl
      rw [hpipeline, hleft, ← due_eq_take, SendingQueue.dropped, hlosses]
      simp [SendingQueue.dropped]
    takenBack_le := p.takenBack_le_share _
    whereabouts := ⟨others, hothers, hitems.trans hkept⟩
    present := by
      intro hdistinct
      rw [hitems, hkept]
      exact p.countP_present hdistinct hothers (p.takenBack_le_share _) }

/-- A tick leaves that behind if there was something to send and the transport refuses it. -/
theorem setback_tick {p : Pipeline} (isOpen : p.gate.isDisallowed = false) (hdue : p.due ≠ [])
    {error : TransportError} (refused : p.transport.failure = some error) :
    Setback p p.transport.late p.answeredTick.1 p.answeredTick.2.1 := by
  have hqueue := p.polled.queue_offerAll p.transport.late
  have hsettings : (p.polled.handOver p.due).1.settings = p.settings :=
    settings_eq (p.polled.configuration_handOver p.due)
  rw [answeredTick_of_due isOpen hdue]
  dsimp only
  rw [refused]
  exact setback_settle hqueue hsettings error

/-- So does a tick whose send fails later. -/
theorem setback_timedTick {p : Pipeline} (isOpen : p.gate.isDisallowed = false) (hdue : p.due ≠ [])
    {d : Deadline} {now : Nat} {error : TransportError}
    (refused : (p.polled.flight p.due d now).failure p.transport = some error)
    {before : List TimedSteps} (served : d.script = before ++ (p.timedTick d now).script)
    (adding : ∀ s ∈ before.flatMap TimedSteps.steps, s.isAdding) :
    Setback p (p.transport.late ++ (before.flatMap TimedSteps.steps).flatMap Step.offerings)
      (p.timedTick d now).outcome (p.timedTick d now).pipeline := by
  obtain ⟨houtcome, hpipeline, hscript⟩ := timedTick_of_due isOpen hdue d now
  obtain ⟨before', hserved, hlanded⟩ := p.polled.serves_flight p.due d now
  -- the events that took place are those that are not left
  have hbefore : before' = before := by
    rw [hscript, hserved] at served
    exact List.append_cancel_right served
  subst hbefore
  have hhanded : (p.polled.handOver p.due).1.queue =
      (p.polled.queue.burst p.transport.late).2 := p.polled.queue_offerAll p.transport.late
  have hqueue : (p.polled.flight p.due d now).pipeline.queue = (p.polled.queue.burst
      (p.transport.late ++ (before'.flatMap TimedSteps.steps).flatMap Step.offerings)).2 := by
    rw [hlanded, queue_serve _ adding, hhanded, SendingQueue.burst_append]
  have hsettings : (p.polled.flight p.due d now).pipeline.settings = p.settings :=
    settings_eq ((configuration_land ..).trans (p.polled.configuration_handOver p.due))
  rw [houtcome, hpipeline, refused]
  exact setback_settle hqueue hsettings error

/-- What a tick answers and leaves behind if there was something to send and the send failed,
whenever and for whatever reason. -/
theorem setback_of_failedSend {p left : Pipeline} {late : List Impression} {outcome : Outcome}
    (isOpen : p.gate.isDisallowed = false) (some_due : 1 ≤ p.share)
    (h : p.FailedSend late outcome left) : Setback p late outcome left := by
  have hdue : p.due ≠ [] := by
    rw [← List.length_pos_iff, length_due]
    exact some_due
  -- the tick is awaited until it returns, or its send fails after some time
  cases h with
  | awaited error refused returned =>
    have htick := setback_tick isOpen hdue refused
    rw [(tick_eq_some.1 returned).2] at htick
    exact htick
  | timed d now error refused before served adding =>
    exact setback_timedTick isOpen hdue refused served adding

/-- Three impressions wait in a full queue, of which a batch takes two. One more comes in during the
send, and the transport answers with an error, or does not answer at all. -/
def jammed (policy : Overflow) (transport : Transport) : Pipeline where
  queue := {
    capacity := 3
    overflow := policy
    items := [{ id := "a" }, { id := "b" }, { id := "c" }] }
  settings := { batchSize := 2 }
  transport := { transport with late := [{ id := "d" }] }

/-- A batch for part of which there is no room any more, and one for which older impressions have to
make room. -/
theorem setback_jammed :
    let busy := jammed .reject { failure := some (.status 503) }
    let silent := jammed .dropOldest { delay := none }
    (busy.gate.isDisallowed = false ∧ 1 ≤ busy.share ∧
      busy.FailedSend [{ id := "d" }] busy.answeredTick.1 busy.answeredTick.2.1 ∧
      Setback busy [{ id := "d" }] busy.answeredTick.1 busy.answeredTick.2.1 ∧
      busy.answeredTick.1 = .failed 2 1 ∧
      busy.answeredTick.2.1.queue.items.map (·.id) = ["c", "d", "a"]) ∧
    (silent.gate.isDisallowed = false ∧ 1 ≤ silent.share ∧
      silent.FailedSend [{ id := "d" }] (silent.timedTick .timeout 7).outcome
        (silent.timedTick .timeout 7).pipeline ∧
      Setback silent [{ id := "d" }] (silent.timedTick .timeout 7).outcome
        (silent.timedTick .timeout 7).pipeline ∧
      (silent.timedTick .timeout 7).outcome = .failed 2 2 ∧
      (silent.timedTick .timeout 7).pipeline.queue.items.map (·.id) = ["d", "a", "b"]) := by
  intro busy silent
  have hbusy : busy.FailedSend [{ id := "d" }] busy.answeredTick.1 busy.answeredTick.2.1 :=
    .awaited (.status 503) rfl (tick_eq_some.2 ⟨by decide +kernel, rfl⟩)
  have hsilent : silent.FailedSend [{ id := "d" }] (silent.timedTick .timeout 7).outcome
      (silent.timedTick .timeout 7).pipeline :=
    .timed .timeout 7 .timedOut (by decide +kernel) [] (by decide +kernel) (by simp)
  refine ⟨⟨?_, ?_, hbusy, setback_of_failedSend ?_ ?_ hbusy, ?_, ?_⟩,
    ⟨?_, ?_, hsilent, setback_of_failedSend ?_ ?_ hsilent, ?_, ?_⟩⟩ <;> decide +kernel

end Pipeline

end ClientMetrics
