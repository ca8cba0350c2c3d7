import ClientMetrics.Proofs.Dispatch.Refusal
import ClientMetrics.Proofs.Simulation.Steps

/-!
# The totals of a simulation

How many impressions are lost, sent or left over depends on the order in which the threads of a
simulation take their steps. What the totals add up to does not, and neither does whether the
simulation ends.

* `Threads.Moves` — all moves there are;
* `Threads.Sound` — what holds at any time: every impression is somewhere, and every offer is
  counted or still to be counted;
* `Threads.weight` — a bound on the moves, which only the ticker raises;
* `Sound.live`, `Sound.finishes` — some thread can go on until the dispatcher has ended, and that
  comes about without the ticker;
* `Sound.drain` — the ticks after the loop are bounded;
* `Adds` — what the totals of a finished simulation add up to;
* `settled_run` — so it is for every schedule, and for the simulation without interleaving.
-/

namespace ClientMetrics

namespace Simulation

/-- All impressions that a simulation makes up are complete. -/
theorem isTerminal_impression (sdk : SdkSettings) (producer n : Nat) :
    (impression sdk producer n).isTerminal = true := by
  unfold impression
  dsimp only
  split <;> rfl

/-! ## All threads -/

namespace Threads

variable {s : Settings} {plan : SimulationPlan}

/-- The sum of something over all producers. -/
def total (f : Producer → Nat) (t : Threads) : Nat := (t.producers.map f).sum

/-- What the other producers add to a sum. -/
theorem exists_others (f : Producer → Nat) {ps : List Producer} {number : Nat} {p : Producer}
    (h : ps[number]? = some p) :
    ∃ others, (ps.map f).sum = others + f p ∧
      ∀ p', ((ps.set number p').map f).sum = others + f p' := by
  -- the induction goes to the place of the producer; those before it are others
  induction ps generalizing number with
  | nil => cases h
  | cons q ps ih =>
    cases number with
    | zero =>
      obtain rfl : q = p := by simpa using h
      exact ⟨(ps.map f).sum, Nat.add_comm .., fun p' => Nat.add_comm ..⟩
    | succ number =>
      obtain ⟨others, hsum, hset⟩ := ih (show ps[number]? = some p by simpa using h)
      refine ⟨f q + others, ?_, fun p' => ?_⟩
      · simp only [List.map_cons, List.sum_cons, hsum, Nat.add_assoc]
      · simp only [List.set_cons_succ, List.map_cons, List.sum_cons, hset, Nat.add_assoc]

/-- All moves in a simulation. -/
inductive Moves (s : Settings) (plan : SimulationPlan) (t : Threads) : Move → Threads → Prop where
  | producer {number p c' p'} (hp : t.producers[number]? = some p)
      (h : p.Steps (gate s plan) t.shared c' p') :
    Moves s plan t (.producer number)
      { t with shared := c', producers := t.producers.set number p' }
  | dispatcher {c' d'} (h : t.dispatcher.Steps (gate s plan) s t.shared c' d') :
    Moves s plan t .dispatcher { t with shared := c', dispatcher := d' }
  | ticker (h : t.dispatcher = .waits) :
    Moves s plan t .ticker { t with dispatcher := .asks .regular }

/-- There are no other moves. -/
theorem moves_of_move {t t' : Threads} {m : Move} (h : t.move s plan m = some t') :
    t.Moves s plan m t' := by
  -- a move of a thread is a step of it, and the ticker moves only while the dispatcher waits
  cases m with
  | producer number =>
    simp only [move] at h
    split at h
    next => cases h
    next p hp =>
      obtain ⟨⟨c', p'⟩, hstep, rfl⟩ := Option.map_eq_some_iff.1 h
      exact .producer hp (Producer.steps_of_step hstep)
  | dispatcher =>
    obtain ⟨⟨c', d'⟩, hstep, rfl⟩ := Option.map_eq_some_iff.1 h
    exact .dispatcher (Dispatcher.steps_of_step hstep)
  | ticker =>
    simp only [move] at h
    split at h
    next hwaits => cases h; exact .ticker hwaits
    next => cases h

/-- The queue can hold something, and all impressions can be counted. -/
structure Feasible (s : Settings) (plan : SimulationPlan) : Prop where
  capacity : 0 < s.queue.capacity
  countable : plan.producers * plan.impressions < 2 ^ 64

/-- What holds of a simulation at any time. -/
structure Sound (s : Settings) (plan : SimulationPlan) (t : Threads) : Prop where
  proper : ∀ p ∈ t.producers, p.Proper (gate s plan).isDisallowed
  active : t.shared.active = t.total Producer.running
  capacity : t.shared.queue.capacity = s.queue.capacity.toNat
  overflow : t.shared.queue.overflow = s.queue.overflow
  /-- Every impression was skipped, or is in the queue, in a batch or among the losses, or it is
  still to come. -/
  offered : t.shared.skipped + t.shared.queue.size + t.dispatcher.inFlight + t.shared.sent +
    t.shared.queue.dropped + t.total Producer.owed + t.total Producer.pending =
      plan.producers * plan.impressions
  /-- Every impression was skipped, taken or refused, or it is still to come. -/
  told : t.shared.skipped + t.shared.accepted + t.total Producer.untold +
    t.total Producer.pending + refusals t.shared.queue (t.total Producer.owed) =
      plan.producers * plan.impressions
  opened : (gate s plan).isDisallowed = false → t.shared.skipped = 0
  closed : (gate s plan).isDisallowed = true → t.shared.queue.size = 0 ∧ t.shared.accepted = 0 ∧
    t.shared.queue.dropped = 0 ∧ t.shared.sent + t.dispatcher.inFlight = 0
  idle : s.dispatch.batchSize = 0 → t.shared.sent + t.dispatcher.inFlight = 0
  late : t.dispatcher.isLate = true → t.shared.active = 0
  drained : t.dispatcher = .ended →
    (gate s plan).isDisallowed = true ∨ s.dispatch.batchSize = 0 ∨ t.shared.queue.size = 0

/-- At first all producers are alike. -/
theorem total_start {f : Producer → Nat} {n : Nat} (hf : ∀ number,
    f ⟨(List.range plan.impressions).map (impression s.sdk number), .asks⟩ = n) :
    (start s plan).total f = plan.producers * n := by
  simp [total, start, Function.comp_def, hf]

/-- At first every impression is still to come. -/
theorem sound_start : (start s plan).Sound s plan := by
  have hpending : (start s plan).total Producer.pending = plan.producers * plan.impressions :=
    total_start fun _ => by simp [Producer.pending]
  have hrunning : (start s plan).total Producer.running = plan.producers * 1 :=
    total_start fun _ => rfl
  have howed : (start s plan).total Producer.owed = plan.producers * 0 := total_start fun _ => rfl
  have huntold : (start s plan).total Producer.untold = plan.producers * 0 :=
    total_start fun _ => rfl
  refine { proper := fun p hp => ?_, active := ?_, capacity := rfl, overflow := rfl,
           offered := ?_, told := ?_, opened := fun _ => rfl,
           closed := fun _ => ⟨rfl, rfl, rfl, rfl⟩, idle := fun _ => rfl,
           late := fun hl => (by cases hl),
           drained := fun hd => (by cases hd) }
  · -- all producers ask first, and all their impressions are complete
    obtain ⟨number, -, rfl⟩ := List.mem_map.1 hp
    refine ⟨fun i hi => ?_, trivial⟩
    obtain ⟨n, -, rfl⟩ := List.mem_map.1 hi
    exact isTerminal_impression ..
  · rw [hrunning, Nat.mul_one]
    rfl
  · rw [howed, hpending]
    simp [start, Settings.pipeline, Pipeline.ofSettings, SendingQueue.size, SendingQueue.dropped,
      Dispatcher.inFlight]
  · have hnone : refusals (start s plan).shared.queue 0 = 0 := by
      unfold refusals
      split <;> rfl
    rw [huntold, hpending, howed, Nat.mul_zero, hnone]
    simp [start]

/-- A step of a producer keeps the totals, as long as the queue and the counter have room. -/
theorem Sound.balance {t : Threads} {number : Nat} {p p' : Producer} {c' : Shared}
    (ht : t.Sound s plan) (hs : Feasible s plan) (hp : t.producers[number]? = some p)
    (h : p.Steps (gate s plan) t.shared c' p') : p.Balance t.shared c' p' := by
  obtain ⟨running, hrunning, -⟩ := exists_others Producer.running hp
  obtain ⟨owed, howed, -⟩ := exists_others Producer.owed hp
  have hactive := ht.active
  have hoffered := ht.offered
  simp only [total, hrunning, howed] at hactive hoffered
  -- no impression is counted twice, so the counters stay below their bound
  have hcountable := hs.countable
  refine h.balance (ht.proper p (List.mem_of_getElem? hp)) (by omega) ?_ (by omega)
  rw [ht.capacity]
  exact UInt64.lt_iff_toNat_lt.1 hs.capacity

/-- A step of a producer leaves a simulation sound. -/
theorem Sound.producer {t : Threads} {number : Nat} {p p' : Producer} {c' : Shared}
    (ht : t.Sound s plan) (hs : Feasible s plan) (hp : t.producers[number]? = some p)
    (h : p.Steps (gate s plan) t.shared c' p') :
    Sound s plan { t with shared := c', producers := t.producers.set number p' } := by
  have hproper := ht.proper p (List.mem_of_getElem? hp)
  obtain ⟨running, hrunning, hrunning'⟩ := exists_others Producer.running hp
  obtain ⟨owed, howed, howed'⟩ := exists_others Producer.owed hp
  obtain ⟨untold, huntold, huntold'⟩ := exists_others Producer.untold hp
  obtain ⟨pending, hpending, hpending'⟩ := exists_others Producer.pending hp
  -- what the other producers add to each sum stays the same
  have hactive := ht.active
  have hoffered := ht.offered
  have htold := ht.told
  simp only [total, hrunning, howed, huntold, hpending, refusals_add] at hactive hoffered htold
  have hwork := h.running_eq
  obtain ⟨-, -, hactive', hoffered', htold'⟩ := ht.balance hs hp h
  obtain ⟨hsent, hcapacity', hoverflow'⟩ := h.frame
  obtain ⟨hopened, hclosed⟩ := h.separate hproper
  refine { proper := fun q hq => ?_, active := ?_, capacity := hcapacity'.trans ht.capacity,
           overflow := hoverflow'.trans ht.overflow, offered := ?_, told := ?_,
           opened := fun ho => (hopened ho).trans (ht.opened ho), closed := fun hc => ?_,
           idle := fun hi => ?_, late := fun hl => ?_, drained := fun hd => ?_ }
  · rcases List.mem_or_eq_of_mem_set hq with hq | rfl
    · exact ht.proper q hq
    · exact h.proper hproper
  · simp only [total, hrunning']
    omega
  · simp only [total, howed', hpending']
    omega
  · simp only [total, howed', huntold', hpending', refusals_add, hoverflow']
    omega
  · obtain ⟨hqueue, haccepted⟩ := hclosed hc
    simp only [hqueue, haccepted, hsent]
    exact ht.closed hc
  · have := ht.idle hi
    simp only
    omega
  -- a producer at work keeps the dispatcher in its loop
  · exact absurd (ht.late hl) (by omega)
  · exact absurd (ht.late (congrArg Dispatcher.isLate hd)) (by omega)

/-- So does a step of the dispatcher. -/
theorem Sound.dispatcher {t : Threads} {c' : Shared} {d' : Dispatcher} (ht : t.Sound s plan)
    (h : t.dispatcher.Steps (gate s plan) s t.shared c' d') :
    Sound s plan { t with shared := c', dispatcher := d' } := by
  -- what the dispatcher sends was waiting, and it changes no other total
  obtain ⟨-, -, hsent, hidle⟩ := h.balance
  obtain ⟨hactive, hskipped, haccepted, hdropped, hcapacity, hoverflow⟩ := h.frame
  have hoffered := ht.offered
  have htold := ht.told
  refine { proper := ht.proper, active := hactive.trans ht.active,
           capacity := hcapacity.trans ht.capacity, overflow := hoverflow.trans ht.overflow,
           offered := ?_, told := ?_, opened := fun ho => hskipped.trans (ht.opened ho),
           closed := fun hc => ?_, idle := fun hi => (hidle hi).trans (ht.idle hi),
           late := fun hl => hactive.trans (h.late ht.late hl), drained := h.ended }
  · simp only [total] at hoffered ⊢
    omega
  · simp only [refusals, hskipped, haccepted, hoverflow, hdropped]
    exact htold
  · obtain ⟨hqueue, htaken, hlost, hnone⟩ := ht.closed hc
    exact ⟨by dsimp only; omega, haccepted.trans htaken, hdropped.trans hlost, by dsimp only; omega⟩

/-- So does every move. That of the ticker only starts a tick. -/
theorem Sound.moves {t t' : Threads} {m : Move} (ht : t.Sound s plan) (hs : Feasible s plan)
    (h : t.Moves s plan m t') : t'.Sound s plan := by
  cases h with
  | producer hp h => exact ht.producer hs hp h
  | dispatcher h => exact ht.dispatcher h
  | ticker h =>
    obtain ⟨hproper, hactive, hcapacity, hoverflow, hoffered, htold, hopened, hclosed, hidle, -,
      -⟩ := ht
    -- the ticker only wakes the dispatcher up, which changes no total
    rw [h] at hoffered hclosed hidle
    exact ⟨hproper, hactive, hcapacity, hoverflow, hoffered, htold, hopened, hclosed, hidle,
      fun hl => (by cases hl), fun hd => (by cases hd)⟩

/-! ### The number of moves -/

/-- A bound on the moves that can still be made without the ticker. -/
def weight (t : Threads) : Nat :=
  t.total Producer.weight + t.dispatcher.weight (t.shared.queue.size + t.total Producer.pending)

/-- A simulation is as heavy at first as its impressions and producers are many. -/
theorem weight_start : (start s plan).weight =
    7 * (plan.producers * plan.impressions) + plan.producers + 5 := by
  have hweight : (start s plan).total Producer.weight =
      plan.producers * (4 * plan.impressions + 1) :=
    total_start fun _ => by simp [Producer.weight]
  -- an impression takes four steps of its producer, and up to three of the dispatcher
  have hpending : (start s plan).total Producer.pending = plan.producers * plan.impressions :=
    total_start fun _ => by simp [Producer.pending]
  have hidle : (start s plan).shared.queue.size = 0 := rfl
  unfold weight
  rw [hweight, hpending, hidle, Nat.mul_add, Nat.mul_left_comm]
  simp only [start, Dispatcher.weight]
  omega

/-- Every move makes a simulation lighter, but that of the ticker. -/
theorem Sound.weight_lt {t t' : Threads} {m : Move} (ht : t.Sound s plan) (hs : Feasible s plan)
    (h : t.Moves s plan m t') : t'.weight < t.weight + if m = .ticker then 4 else 0 := by
  cases h with
  | @producer number p c' p' hp h =>
    obtain ⟨hlighter, hload, -⟩ := ht.balance hs hp h
    obtain ⟨weight, hweight, hweight'⟩ := exists_others Producer.weight hp
    obtain ⟨pending, hpending, hpending'⟩ := exists_others Producer.pending hp
    -- the others weigh the same, and the dispatcher does as long as the load is not greater
    have hdispatcher := t.dispatcher.weight_mono (show c'.queue.size + (pending + p'.pending) ≤
      t.shared.queue.size + (pending + p.pending) by omega)
    simp only [Threads.weight, total, hweight, hweight', hpending, hpending']
    rw [if_neg (by simp)]
    omega
  | dispatcher h =>
    have hlighter := h.balance.lighter (t.total Producer.pending)
    rw [if_neg (by simp)]
    exact Nat.add_lt_add_left hlighter _
  | ticker h =>
    -- the ticker starts one more tick, which takes three steps at most
    simp only [Threads.weight, h, Dispatcher.weight, Round.weight, total, if_true]
    omega

/-- A simulation stays sound along every schedule, and the schedule is not longer than what it makes
lighter, but for the ticker. -/
theorem Sound.follow {t t' : Threads} {schedule : List Move} (ht : t.Sound s plan)
    (hs : Feasible s plan) (h : t.follow s plan schedule = some t') :
    t'.Sound s plan ∧ schedule.length + t'.weight ≤ t.weight + 4 * schedule.count .ticker := by
  -- each move keeps the totals and takes something off the weight
  induction schedule generalizing t with
  | nil =>
    cases h
    exact ⟨ht, by simp⟩
  | cons m schedule ih =>
    obtain ⟨t₁, hmove, hrest⟩ := Option.bind_eq_some_iff.1 h
    have hmoves := moves_of_move hmove
    have hlighter := ht.weight_lt hs hmoves
    obtain ⟨hsound, hbound⟩ := ih (ht.moves hs hmoves) hrest
    refine ⟨hsound, ?_⟩
    rw [List.length_cons]
    by_cases hm : m = .ticker
    · rw [if_pos hm] at hlighter
      rw [hm, List.count_cons_self]
      omega
    · rw [if_neg hm] at hlighter
      rw [List.count_cons_of_ne hm]
      omega

/-! ### The end -/

/-- When no producer is at work, all of them have ended. -/
theorem Sound.eq_ended {t : Threads} (ht : t.Sound s plan) (h : t.shared.active = 0) :
    ∀ p ∈ t.producers, p = ⟨[], .ended⟩ := by
  intro p hp
  obtain ⟨number, hnumber⟩ := List.mem_iff_getElem?.1 hp
  obtain ⟨others, hsum, -⟩ := exists_others Producer.running hnumber
  have hactive := ht.active
  simp only [total, hsum] at hactive
  exact (ht.proper p hp).eq_ended (by omega)

theorem total_eq_zero {f : Producer → Nat} {t : Threads} (hf : f ⟨[], .ended⟩ = 0)
    (h : ∀ p ∈ t.producers, p = ⟨[], .ended⟩) : t.total f = 0 := by
  refine List.sum_eq_zero fun n hn => ?_
  obtain ⟨p, hp, rfl⟩ := List.mem_map.1 hn
  rw [h p hp, hf]

/-- Until the dispatcher has ended, some thread can take a step. -/
theorem Sound.live {t : Threads} (ht : t.Sound s plan) (h : t.dispatcher ≠ .ended) :
    ∃ m, m ≠ .ticker ∧ (t.move s plan m).isSome = true := by
  by_cases hactive : t.shared.active = 0
  · refine ⟨.dispatcher, by simp, ?_⟩
    rw [move, Option.isSome_map]
    cases hd : t.dispatcher with
    | waits => simp [Dispatcher.step, hactive]
    | ended => exact absurd hd h
    | _ => rfl
  · -- a producer is at work
    obtain ⟨p, hp, hrunning⟩ : ∃ p ∈ t.producers, p.running ≠ 0 := by
      by_contra hnone
      push Not at hnone
      refine hactive (ht.active.trans (List.sum_eq_zero fun n hn => ?_))
      obtain ⟨p, hp, rfl⟩ := List.mem_map.1 hn
      exact hnone p hp
    obtain ⟨number, hnumber⟩ := List.mem_iff_getElem?.1 hp
    refine ⟨.producer number, by simp, ?_⟩
    simp only [move, hnumber, Option.isSome_map]
    exact Producer.isSome_step _ _ hrunning

/-- Moves without the ticker lead to the end. -/
theorem Sound.finishes {t : Threads} (ht : t.Sound s plan) (hs : Feasible s plan) :
    ∃ schedule t', .ticker ∉ schedule ∧ t.follow s plan schedule = some t' ∧
      t'.dispatcher = .ended := by
  by_cases hended : t.dispatcher = .ended
  · exact ⟨[], t, List.not_mem_nil, rfl, hended⟩
  · -- some thread can go on, and what is left is lighter
    obtain ⟨m, hm, hmove⟩ := ht.live hended
    obtain ⟨t₁, hmove⟩ := Option.isSome_iff_exists.1 hmove
    have hmoves := moves_of_move hmove
    have hlighter : t₁.weight < t.weight := by simpa [hm] using ht.weight_lt hs hmoves
    obtain ⟨schedule, t', hschedule, hfollow, hend⟩ := (ht.moves hs hmoves).finishes hs
    refine ⟨m :: schedule, t', ?_, by rw [Threads.follow, hmove]; exact hfollow, hend⟩
    rw [List.mem_cons, not_or]
    exact ⟨Ne.symm hm, hschedule⟩
termination_by t.weight

/-- After the loop the ticker is not asked. -/
theorem count_ticker_of_draining {t t' : Threads} {schedule : List Move}
    (hd : t.dispatcher.isDraining = true) (h : t.follow s plan schedule = some t') :
    schedule.count .ticker = 0 := by
  induction schedule generalizing t with
  | nil => rfl
  | cons m schedule ih =>
    obtain ⟨t₁, hmove, hrest⟩ := Option.bind_eq_some_iff.1 h
    -- a dispatcher that drains does not wait, and goes on draining
    cases moves_of_move hmove with
    | producer =>
      rw [List.count_cons_of_ne (by simp)]
      exact ih (by exact hd) hrest
    | dispatcher hsteps =>
      rw [List.count_cons_of_ne (by simp)]
      exact ih (hsteps.draining hd) hrest
    | ticker hwaits => rw [hwaits] at hd; cases hd

/-- After the loop there are only so many moves. -/
theorem Sound.drain {t t' : Threads} {schedule : List Move} (ht : t.Sound s plan)
    (hs : Feasible s plan) (hd : t.dispatcher = .asks .drain)
    (h : t.follow s plan schedule = some t') :
    schedule.length ≤ 3 * t.shared.queue.size + 2 := by
  have hended := ht.eq_ended (ht.late (congrArg Dispatcher.isLate hd))
  have hcount := count_ticker_of_draining (congrArg Dispatcher.isDraining hd) h
  have hbound := (ht.follow hs h).2
  -- all producers have ended, so only the queue weighs anything
  have hweight : t.weight = 3 * t.shared.queue.size + 2 := by
    simp only [weight, total_eq_zero (f := Producer.weight) rfl hended,
      total_eq_zero (f := Producer.pending) rfl hended, hd, Dispatcher.weight, Round.weight]
    omega
  omega

end Threads

/-- What the totals of a simulation add up to. -/
structure Adds (s : Settings) (plan : SimulationPlan) (r : SimulationReport) : Prop where
  created : r.created = plan.producers * plan.impressions
  refused : Refuses plan.consent s.privacy.vendorId →
    r.skipped = plan.producers * plan.impressions ∧
      r.accepted = 0 ∧ r.dropped = 0 ∧ r.sent = 0 ∧ r.remaining = 0
  collected : ¬Refuses plan.consent s.privacy.vendorId → r.skipped = 0 ∧
    match s.queue.overflow with
    | .reject => r.accepted + r.dropped = plan.producers * plan.impressions ∧
        r.sent + r.remaining = r.accepted
    | .dropOldest => r.accepted = plan.producers * plan.impressions ∧
        r.sent + r.remaining + r.dropped = plan.producers * plan.impressions
  drained : 0 < s.dispatch.batchSize → r.remaining = 0
  idle : s.dispatch.batchSize = 0 → r.sent = 0

/-- The gate of a simulation refuses exactly what its plan says. -/
theorem isDisallowed_gate (s : Settings) (plan : SimulationPlan) :
    (gate s plan).isDisallowed = true ↔ Refuses plan.consent s.privacy.vendorId := by
  rw [ConsentGate.isDisallowed_iff_refuses, gate, ConsentGate.stored_setConsent,
    ConsentGate.vendorId_setConsent]
  rfl

/-- At the end of a sound simulation nothing is on its way, so the totals add up. -/
theorem Threads.Sound.adds {s : Settings} {plan : SimulationPlan} {t : Threads}
    (ht : t.Sound s plan) (h : t.dispatcher = .ended) : Adds s plan (t.report plan) := by
  have hended := ht.eq_ended (ht.late (congrArg Dispatcher.isLate h))
  have hoffered := ht.offered
  have htold := ht.told
  rw [total_eq_zero rfl hended, total_eq_zero rfl hended, h] at hoffered
  rw [total_eq_zero rfl hended, total_eq_zero rfl hended, total_eq_zero rfl hended] at htold
  simp only [Dispatcher.inFlight] at hoffered
  -- which of the two halves applies is up to the gate alone
  have hmode := isDisallowed_gate s plan
  refine ⟨rfl, fun hrefused => ?_, fun hopen => ?_, fun hbatch => ?_, fun hbatch => ?_⟩
  · obtain ⟨hqueue, haccepted, hdropped, hsent⟩ := ht.closed (hmode.2 hrefused)
    refine ⟨?_, haccepted, hdropped, Nat.eq_zero_of_add_eq_zero_right hsent, hqueue⟩
    show t.shared.skipped = _
    omega
  · have hskipped := ht.opened (Bool.eq_false_iff.2 (mt hmode.1 hopen))
    have hoverflow := ht.overflow
    simp only [refusals, hoverflow] at htold
    refine ⟨hskipped, ?_⟩
    simp only [Threads.report]
    cases ho : s.queue.overflow <;> simp only [ho] at htold <;> dsimp only <;> omega
  · show t.shared.queue.size = 0
    rcases ht.drained h with hrefused | hzero | hempty
    · exact (ht.closed hrefused).1
    · exact absurd (hzero ▸ hbatch) (UInt64.lt_irrefl 0)
    · exact hempty
  · exact Nat.eq_zero_of_add_eq_zero_right (ht.idle hbatch)

/-- What every schedule can rely on that has led to `t`. -/
structure Threads.Ends (s : Settings) (plan : SimulationPlan) (schedule : List Move) (t : Threads) :
    Prop where
  /-- Until the dispatcher has ended, some thread can take a step. -/
  live : t.dispatcher ≠ .ended → ∃ m, m ≠ .ticker ∧ (t.move s plan m).isSome = true
  /-- Such steps lead to the end. -/
  finishes : ∃ more t', .ticker ∉ more ∧ t.follow s plan more = some t' ∧ t'.dispatcher = .ended
  /-- There are only so many moves for each time that the ticker fires. -/
  bounded : schedule.length ≤
    7 * (plan.producers * plan.impressions) + plan.producers + 5 + 4 * schedule.count .ticker
  /-- After the loop there are only so many moves. -/
  drain : t.dispatcher = .asks .drain → ∀ more t', t.follow s plan more = some t' →
    more.length ≤ 3 * t.shared.queue.size + 2
  adds : t.dispatcher = .ended → Adds s plan (t.report plan)

/-- Sound settings have a queue with room. -/
theorem capacity_pos {s : Settings} (h : s.fault? = none) : 0 < s.queue.capacity := by
  refine UInt64.pos_iff_ne_zero.2 fun hzero => ?_
  rw [Settings.fault?, if_pos hzero] at h
  cases h

/-- A simulation with sound settings ends, and its totals add up, whatever the schedule of its
threads. What is reported without interleaving is what one of the schedules leads to. -/
theorem settled_run (s : Settings) (plan : SimulationPlan) (hvalid : s.fault? = none)
    (hsize : plan.producers * plan.impressions < 2 ^ 64) :
    (∀ schedule t, (Threads.start s plan).follow s plan schedule = some t →
      t.Ends s plan schedule) ∧
    ∃ schedule t, (Threads.start s plan).follow s plan schedule = some t ∧
      t.dispatcher = .ended ∧ t.report plan = (run s plan).report := by
  have hs : Threads.Feasible s plan := ⟨capacity_pos hvalid, hsize⟩
  constructor
  · intro schedule t h
    -- what every schedule preserves, from the start on
    obtain ⟨ht, hbound⟩ := Threads.sound_start.follow hs h
    rw [Threads.weight_start] at hbound
    exact ⟨ht.live, ht.finishes hs, by omega, fun hd more t' hmore => ht.drain hs hd hmore, ht.adds⟩
  · obtain ⟨t, ⟨schedule, h⟩, hended, hreport⟩ := Threads.reaches_run s plan
    exact ⟨schedule, t, h, hended, hreport⟩

/-- Two producers of three impressions, which may be collected. -/
theorem settled_run_default :
    (∀ schedule t, (Threads.start {} ⟨2, 3, none⟩).follow {} ⟨2, 3, none⟩ schedule = some t →
      t.Ends {} ⟨2, 3, none⟩ schedule) ∧
    ∃ schedule t, (Threads.start {} ⟨2, 3, none⟩).follow {} ⟨2, 3, none⟩ schedule = some t ∧
      t.dispatcher = .ended ∧ t.report ⟨2, 3, none⟩ = (run {} ⟨2, 3, none⟩).report :=
  settled_run {} ⟨2, 3, none⟩ (by decide) (by decide)

end Simulation

end ClientMetrics
