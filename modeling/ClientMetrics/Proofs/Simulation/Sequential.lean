import ClientMetrics.Proofs.Dispatch.Timetable
import ClientMetrics.Simulation.Threads

/-!
# Simulations without interleaving

`Simulation.run` lets the producers take turns, one after the other, and starts the dispatcher when
all of them have ended. That is one of the schedules of the threads.

* `Reaches` — some schedule leads from one state of the threads to another;
* `reaches_produce`, `reaches_producers` — the producers take turns;
* `reaches_tick`, `reaches_drain` — the dispatcher takes the steps of its ticks;
* `reaches_run` — a schedule ends with what `Simulation.run` reports.
-/

namespace ClientMetrics

/-- A poll moves items out of a queue. -/
theorem SendingQueue.length_add_size_poll {α : Type} (q : SendingQueue α) (max : Nat) :
    (q.poll max).1.length + (q.poll max).2.size = q.size := by
  simp only [size, poll_fst, items_poll, List.length_take, List.length_drop]
  omega

namespace Simulation

namespace Threads

variable {s : Settings} {plan : SimulationPlan}

/-- A schedule in two parts leads on from where its first part leads to. -/
theorem follow_append (t : Threads) (schedule schedule' : List Move) :
    t.follow s plan (schedule ++ schedule') =
      (t.follow s plan schedule).bind fun t' => t'.follow s plan schedule' := by
  induction schedule generalizing t with
  | nil => rfl
  | cons m schedule ih =>
    simp only [List.cons_append, follow, Option.bind_assoc]
    exact congrArg _ (funext fun t' => ih t')

/-- Some schedule leads from one state of the threads to another. -/
def Reaches (s : Settings) (plan : SimulationPlan) (t t' : Threads) : Prop :=
  ∃ schedule, t.follow s plan schedule = some t'

namespace Reaches

variable {t t' t'' : Threads}

theorem refl (t : Threads) : Reaches s plan t t := ⟨[], rfl⟩

/-- One schedule can be followed by another. -/
theorem trans (first : Reaches s plan t t') (second : Reaches s plan t' t'') :
    Reaches s plan t t'' := by
  obtain ⟨schedule, h⟩ := first
  obtain ⟨schedule', h'⟩ := second
  exact ⟨schedule ++ schedule', by rw [follow_append, h]; exact h'⟩

/-- A single move is a schedule. -/
theorem move {m : Move} (h : t.move s plan m = some t') : Reaches s plan t t' :=
  ⟨[m], by simp [follow, h]⟩

end Reaches

/-! ## Producers that take turns -/

variable {before after : List Producer} {d : Dispatcher}

/-- A step of the producer that follows on `before`. -/
theorem reaches_step {c c' : Shared} {p p' : Producer}
    (h : p.step (gate s plan) c = some (c', p')) :
    Reaches s plan ⟨c, before ++ p :: after, d⟩ ⟨c', before ++ p' :: after, d⟩ := by
  refine .move (m := .producer before.length) ?_
  simp [move, h]

end Threads

/-- What the threads share when the producers are that far. -/
def Progress.shared (g : Progress) (active : Nat) : Shared where
  queue := g.pipeline.queue
  active := active
  skipped := g.skipped
  accepted := g.accepted

/-- A pipeline at work in a simulation, whose transport accepts everything at once. -/
structure Serves (s : Settings) (plan : SimulationPlan) (p : Pipeline) : Prop where
  gate : p.gate = gate s plan
  settings : p.settings = s.dispatch
  transport : p.transport = { announces := true }

/-- A producer changes the queue and its counters only. -/
theorem Serves.produce {s : Settings} {plan : SimulationPlan} {g : Progress}
    (hg : Serves s plan g.pipeline) (i : Impression) : Serves s plan (g.produce i).pipeline := by
  unfold Progress.produce
  split
  · exact hg
  · dsimp only
    split
    · exact hg
    · exact ⟨hg.gate, hg.settings, hg.transport⟩

/-- So do many of them. -/
theorem Serves.foldl {s : Settings} {plan : SimulationPlan} {g : Progress}
    (hg : Serves s plan g.pipeline) (todo : List Impression) :
    Serves s plan (todo.foldl Progress.produce g).pipeline := by
  induction todo generalizing g with
  | nil => exact hg
  | cons i todo ih => exact ih (hg.produce i)

namespace Threads

variable {s : Settings} {plan : SimulationPlan} {before after : List Producer} {d : Dispatcher}

/-- One impression. -/
theorem reaches_produce {g : Progress} (hg : Serves s plan g.pipeline) (active : Nat)
    (i : Impression) (todo : List Impression) :
    Reaches s plan ⟨g.shared active, before ++ ⟨i :: todo, .asks⟩ :: after, d⟩
      ⟨(g.produce i).shared active, before ++ ⟨todo, .asks⟩ :: after, d⟩ := by
  unfold Progress.produce
  -- the three ways of `Progress.produce`, each of them as steps of the producer
  split
  next hi => exact reaches_step (by simp [Producer.step, hi])
  next hi =>
    dsimp only
    split
    next hgate =>
      rw [hg.gate] at hgate
      have hasked : Reaches s plan ⟨g.shared active, before ++ ⟨i :: todo, .asks⟩ :: after, d⟩
          ⟨g.shared active, before ++ ⟨todo, .skips⟩ :: after, d⟩ :=
        reaches_step (by simp [Producer.step, hi, hgate])
      exact hasked.trans (reaches_step rfl)
    next hgate =>
      rw [hg.gate] at hgate
      have hasked : Reaches s plan ⟨g.shared active, before ++ ⟨i :: todo, .asks⟩ :: after, d⟩
          ⟨g.shared active, before ++ ⟨todo, .offers i⟩ :: after, d⟩ :=
        reaches_step (by simp [Producer.step, hi, hgate])
      -- the offer, up to its answer
      have hoffered : Reaches s plan ⟨g.shared active, before ++ ⟨todo, .offers i⟩ :: after, d⟩
          ⟨{ g.shared active with queue := (g.pipeline.queue.offer i).2 },
            before ++ ⟨todo, .answered (g.pipeline.queue.insert i).1⟩ :: after, d⟩ := by
        rw [SendingQueue.offer_snd]
        cases hfull : g.pipeline.queue.isFull with
        | true =>
          have hinserted : Reaches s plan ⟨g.shared active, before ++ ⟨todo, .offers i⟩ :: after, d⟩
              ⟨{ g.shared active with queue := (g.pipeline.queue.insert i).2.2 },
                before ++ ⟨todo, .owes (g.pipeline.queue.insert i).1⟩ :: after, d⟩ :=
            reaches_step (by simp [Producer.step, Progress.shared, hfull])
          exact hinserted.trans (reaches_step rfl)
        | false => exact reaches_step (by simp [Producer.step, Progress.shared, hfull])
      exact hasked.trans (hoffered.trans (reaches_step rfl))

/-- The impressions of a producer, until it ends. -/
theorem reaches_foldl {g : Progress} (hg : Serves s plan g.pipeline) (active : Nat)
    (todo : List Impression) :
    Reaches s plan ⟨g.shared active, before ++ ⟨todo, .asks⟩ :: after, d⟩
      ⟨(todo.foldl Progress.produce g).shared (active - 1),
        before ++ ⟨[], .ended⟩ :: after, d⟩ := by
  -- the step that finds nothing left to do ends the producer, and one less is active
  induction todo generalizing g with
  | nil => exact reaches_step rfl
  | cons i todo ih =>
    exact (reaches_produce hg active i todo).trans (ih (hg.produce i))

/-- All producers, one after the other. -/
theorem reaches_producers (before : List Producer) {g : Progress}
    (hg : Serves s plan g.pipeline) (todos : List (List Impression)) :
    Reaches s plan ⟨g.shared todos.length, before ++ todos.map (⟨·, .asks⟩), d⟩
      ⟨(todos.flatten.foldl Progress.produce g).shared 0,
        before ++ todos.map fun _ => ⟨[], .ended⟩, d⟩ := by
  -- those that have ended stand before the one whose turn it is
  induction todos generalizing g before with
  | nil => exact .refl _
  | cons todo todos ih =>
    have hrest := ih (before ++ [⟨[], .ended⟩]) (hg.foldl todo)
    rw [List.flatten_cons, List.foldl_append]
    refine (reaches_foldl hg _ todo).trans ?_
    simpa using hrest

end Threads

/-! ## The dispatcher -/

/-- All that a tick of such a pipeline can do. -/
inductive Ticks (p : Pipeline) : Outcome → Pipeline → Prop where
  | blocked (h : p.gate.isDisallowed = true) : Ticks p .consentBlocked p
  | empty (h : p.gate.isDisallowed = false)
      (hpoll : (p.queue.poll p.settings.batchSize.toNat).1 = []) :
    Ticks p .empty { p with queue := (p.queue.poll p.settings.batchSize.toNat).2 }
  | sent (h : p.gate.isDisallowed = false)
      (hpoll : (p.queue.poll p.settings.batchSize.toNat).1 ≠ []) :
    Ticks p (.sent (p.queue.poll p.settings.batchSize.toNat).1.length)
      { p with queue := (p.queue.poll p.settings.batchSize.toNat).2 }

/-- After a batch was sent, fewer impressions are waiting. -/
theorem Ticks.size_lt {p p' : Pipeline} {n : Nat} (h : Ticks p (.sent n) p') :
    p'.queue.size < p.queue.size := by
  generalize ho : Outcome.sent n = o at h
  cases h with
  | blocked | empty => cases ho
  | sent _ hpoll =>
    -- a batch that was sent was taken out of the queue
    have hpos := List.length_pos_iff.2 hpoll
    have hsize := p.queue.length_add_size_poll p.settings.batchSize.toNat
    dsimp only
    omega

/-- So a tick ends whose batch is accepted, if nothing is offered meanwhile. -/
theorem Ticks.of_tick {p p' : Pipeline} {o : Outcome} {hs : List Happening}
    (accepts : p.transport.failure = none) (quiet : p.transport.late = [])
    (h : p.tick = some (o, p', hs)) : Ticks p o p' := by
  replace h := (Pipeline.tick_eq_some.1 h).2
  cases hgate : p.gate.isDisallowed with
  | true =>
    simp only [Pipeline.answeredTick, Pipeline.start, hgate] at h
    cases h
    exact .blocked hgate
  | false =>
    by_cases hpoll : (p.queue.poll p.settings.batchSize.toNat).1 = []
    · simp only [Pipeline.answeredTick, Pipeline.start, hgate, hpoll] at h
      cases h
      exact .empty hgate hpoll
    · -- the queue is left as the poll leaves it
      have htick : p.answeredTick.1 = .sent (p.queue.poll p.settings.batchSize.toNat).1.length ∧
          p.answeredTick.2.1 = { p with queue := (p.queue.poll p.settings.batchSize.toNat).2 } := by
        simp only [Pipeline.answeredTick, Pipeline.start, hgate, if_neg hpoll]
        simp [Pipeline.handOver, Pipeline.settle, Pipeline.offerAll, accepts, quiet]
      rw [h] at htick
      obtain ⟨rfl, rfl⟩ := htick
      exact .sent hgate hpoll

namespace Serves

variable {s : Settings} {plan : SimulationPlan} {p p' : Pipeline} {o : Outcome}
  {hs : List Happening}

/-- The transport of a simulation answers, so a tick returns. -/
theorem tick_eq (hp : Serves s plan p) : p.tick = some p.answeredTick := by
  have hanswers : p.transport.answers = true := by rw [hp.transport]; rfl
  exact Pipeline.tick_eq_some.2 ⟨Pipeline.isStuck_of_answers hanswers, rfl⟩

/-- A tick in a simulation ends in one of these ways. -/
theorem ticks_of_tick (hp : Serves s plan p) (h : p.tick = some (o, p', hs)) : Ticks p o p' :=
  .of_tick (congrArg Transport.failure hp.transport) (congrArg Transport.late hp.transport) h

/-- No tick changes the gate, the settings or the transport. -/
theorem tick (hp : Serves s plan p) (h : p.tick = some (o, p', hs)) : Serves s plan p' := by
  cases hp.ticks_of_tick h with
  | blocked => exact hp
  | empty | sent => exact ⟨hp.gate, hp.settings, hp.transport⟩

end Serves

/-- A transport that accepts everything at once accepts each batch that is sent. -/
theorem isAccepted_attempt {p : Pipeline} (hdelay : p.transport.delay = some 0)
    (hfailure : p.transport.failure = none) (is : List Impression) (d : Deadline) (now : Nat) :
    (p.attempt is d now).isAccepted = true := by
  simp [Send.isAccepted, Pipeline.attempt, Pipeline.flight_of_delay_eq hdelay, Landing.failure,
    hfailure]

/-- How many impressions a tick has sent. -/
def sentBy : Outcome → Nat
  | .sent n => n
  | _ => 0

/-- A tick has sent a batch. -/
def hasSent : Outcome → Bool
  | .sent _ => true
  | _ => false

/-- A loop that is shut down at once takes one tick. -/
theorem Serves.run_nil {s : Settings} {plan : SimulationPlan} {p p' : Pipeline} {o : Outcome}
    {hs : List Happening} (hp : Serves s plan p) (h : p.tick = some (o, p', hs)) :
    (p.run []).pipeline = p' ∧ sentIn (p.run []) = sentBy o := by
  have hdelay : p.transport.delay = some 0 := by rw [hp.transport]
  -- the future is ready at once, so the final tick is the only one
  have hloop : Run.loop p 0 p.settings.period [] =
      (Run.final p 0).after (p.pollShutdown 0 []).history := by
    rw [Run.loop]
    rfl
  have hsends : (p.run []).history.sends = (p.timedTick .timeout 0).history.sends := by
    simp [Pipeline.run, hloop, Run.final]
  constructor
  · obtain ⟨-, htick, -⟩ := p.prompt_timedTick .timeout 0 (Pipeline.isPrompt_timedTick hdelay _ _)
    rw [(Pipeline.tick_eq_some.1 h).2] at htick
    simp only [Pipeline.run, hloop, Run.pipeline_after]
    exact htick
  · unfold sentIn
    rw [hsends]
    cases hp.ticks_of_tick h with
    | blocked hgate => simp [Pipeline.timedTick, Pipeline.start, hgate, sentBy]
    | empty hgate hpoll =>
      simp only [Pipeline.timedTick, Pipeline.start, hgate, hpoll]
      simp [sentBy]
    | sent hgate hpoll =>
      obtain ⟨hs', hstart⟩ : ∃ hs', p.start = (.sending (p.queue.poll p.settings.batchSize.toNat).1,
          { p with queue := (p.queue.poll p.settings.batchSize.toNat).2 }, hs') :=
        ⟨_, by simp only [Pipeline.start, hgate, if_neg hpoll]; rfl⟩
      have hfailure : p.transport.failure = none := by rw [hp.transport]
      rw [Pipeline.sends_timedTick_of_start hstart,
        List.filter_cons_of_pos (isAccepted_attempt (by exact hdelay) (by exact hfailure) ..)]
      exact (Nat.zero_add _).trans (List.length_map _)

namespace Threads

variable {s : Settings} {plan : SimulationPlan} (ps : List Producer)

/-- A step of the dispatcher leaves the producers as they are. -/
theorem reaches_dispatch {c c' : Shared} {d d' : Dispatcher}
    (h : d.step (gate s plan) s c = some (c', d')) : Reaches s plan ⟨c, ps, d⟩ ⟨c', ps, d'⟩ :=
  .move (m := .dispatcher) (by simp [move, h])

/-- Where the gate lets it, the dispatcher goes on to poll the queue. -/
theorem reaches_polls (h : (gate s plan).isDisallowed = false) (c : Shared) (round : Round) :
    Reaches s plan ⟨c, ps, .asks round⟩ ⟨c, ps, .polls round⟩ :=
  reaches_dispatch ps (by simp [Dispatcher.step, h])

/-- The steps of a tick. -/
theorem reaches_tick {p p' : Pipeline} {o : Outcome} {hs : List Happening}
    (hp : Serves s plan p) (htick : p.tick = some (o, p', hs)) {c : Shared}
    (hc : c.queue = p.queue) (round : Round) :
    Reaches s plan ⟨c, ps, .asks round⟩
      ⟨{ c with queue := p'.queue, sent := c.sent + sentBy o }, ps, round.next (hasSent o)⟩ := by
  obtain ⟨queue, active, skipped, accepted, sent⟩ := c
  obtain rfl : queue = p.queue := hc
  -- one step where the gate is closed, two where nothing is found, and three where a batch is sent
  cases hp.ticks_of_tick htick with
  | blocked h =>
    rw [hp.gate] at h
    exact reaches_dispatch _ (by simp [Dispatcher.step, h, sentBy, hasSent])
  | empty h hpoll =>
    rw [hp.gate] at h
    rw [hp.settings] at hpoll ⊢
    refine (reaches_polls ps h _ round).trans (reaches_dispatch _ ?_)
    simp only [Dispatcher.step, if_pos hpoll]
    rfl
  | sent h hpoll =>
    rw [hp.gate] at h
    rw [hp.settings] at hpoll ⊢
    have hpolled : Reaches s plan ⟨⟨p.queue, active, skipped, accepted, sent⟩, ps, .polls round⟩
        ⟨⟨(p.queue.poll s.dispatch.batchSize.toNat).2, active, skipped, accepted, sent⟩, ps,
          .sends round (p.queue.poll s.dispatch.batchSize.toNat).1⟩ :=
      reaches_dispatch _ (by simp only [Dispatcher.step, if_neg hpoll])
    refine (reaches_polls ps h _ round).trans (hpolled.trans (reaches_dispatch _ ?_))
    simp only [Dispatcher.step, Batch.size, Batch.ofImpressions, List.length_map]
    rfl

/-- The ticks after the loop, until nothing is sent any more. -/
theorem reaches_drain {p : Pipeline} (hp : Serves s plan p) {c : Shared} (hc : c.queue = p.queue) :
    Reaches s plan ⟨c, ps, .asks .drain⟩
      ⟨{ c with queue := (drain p).2.1.queue, sent := c.sent + (drain p).1 }, ps, .ended⟩ := by
  -- each tick sends a batch or is the last
  fun_induction drain p generalizing c with
  | case1 p n p' h htick hless m final hs hrest ih =>
    have hfirst := reaches_tick ps hp htick hc .drain
    have hlater := ih (hp.tick htick) (c := { c with queue := p'.queue, sent := c.sent + n }) rfl
    rw [hrest] at hlater
    simp only [Nat.add_assoc] at hlater
    exact hfirst.trans hlater
  | case2 p n p' h htick hless =>
    exact absurd (hp.ticks_of_tick htick).size_lt hless
  | case3 p outcome p' h hnot htick =>
    have hlast := reaches_tick ps hp htick hc .drain
    cases outcome with
    | sent n => exact (hnot n rfl).elim
    | _ => exact hlast
  | case4 p hnever =>
    rw [hp.tick_eq] at hnever
    cases hnever

/-- A schedule ends with what a simulation without interleaving reports. -/
theorem reaches_run (s : Settings) (plan : SimulationPlan) :
    ∃ t, Reaches s plan (start s plan) t ∧ t.dispatcher = .ended ∧
      t.report plan = (run s plan).report := by
  -- the dispatcher starts with the pipeline of the plan, and the producers with all there is to do
  let idle : Pipeline :=
    { s.pipeline with gate := gate s plan, transport := { announces := true } }
  let todos := (List.range plan.producers).map fun number =>
    (List.range plan.impressions).map (impression s.sdk number)
  let produced := todos.flatten.foldl Progress.produce { pipeline := idle }
  have hidle : Serves s plan idle := ⟨rfl, rfl, rfl⟩
  have hproduced : Serves s plan produced.pipeline := hidle.foldl todos.flatten
  have hproducers := reaches_producers (d := .waits) [] (g := ⟨idle, 0, 0, []⟩) hidle todos
  have hstart : start s plan = ⟨Progress.shared { pipeline := idle } todos.length,
      [] ++ todos.map (⟨·, .asks⟩), .waits⟩ := by
    simp [start, Progress.shared, todos, idle]
  rw [← hstart] at hproducers
  obtain ⟨o, p', hs, htick⟩ : ∃ o p' hs, produced.pipeline.tick = some (o, p', hs) :=
    ⟨_, _, _, hproduced.tick_eq⟩
  -- the dispatcher wakes up when no producer is active, and takes its last tick
  have hfinal := reaches_tick ([] ++ todos.map fun _ => ⟨[], .ended⟩) hproduced htick
    (c := produced.shared 0) rfl .final
  have hdrain := reaches_drain ([] ++ todos.map fun _ => ⟨[], .ended⟩) (hproduced.tick htick)
    (c := { produced.shared 0 with queue := p'.queue, sent := 0 + sentBy o }) rfl
  refine ⟨_, hproducers.trans ((reaches_dispatch _ rfl).trans (hfinal.trans hdrain)), rfl, ?_⟩
  have himpressions : impressions s.sdk plan = todos.flatten := List.flatMap_def ..
  obtain ⟨hpipeline, hsent⟩ := hproduced.run_nil htick
  have hreport : (run s plan).report = ⟨plan.producers * plan.impressions, produced.skipped,
      produced.accepted, (drain (produced.pipeline.run []).pipeline).2.1.queue.dropped,
      sentIn (produced.pipeline.run []) + (drain (produced.pipeline.run []).pipeline).1,
      (drain (produced.pipeline.run []).pipeline).2.1.queue.size⟩ := by
    unfold run
    rw [himpressions]
    rfl
  rw [hreport, hpipeline, hsent]
  simp [report, Progress.shared]

end Threads

end Simulation

end ClientMetrics
