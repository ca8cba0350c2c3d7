import ClientMetrics.Proofs.Dispatch.Ticks
import Mathlib.Data.List.Sort

/-!
# The timetable of a run

If every send is answered as soon as it starts, a run takes no time but what its script takes. It
then does the same as the plain sequence of its steps and ticks, in which a tick comes after the
steps that are due by then, and one more tick comes at the end.

* `tickTimes`, `timetable` — when the regular ticks start, and all steps and ticks in order;
* `land_of_stop_eq` — a send that is answered at once does not depend on its deadline;
* `prompt_timedTick` — a tick with such a send is a plain tick;
* `Run.Timetabled` — a run that does what some actions do, with ticks at given times;
* `timetabled_loop` — every turn of the loop keeps to the timetable of what is left of the script;
* `timetabled_run` — a run whose sends are answered at once keeps to its timetable.
-/

namespace ClientMetrics

/-- The times of the regular ticks from `due` on, before a run ends at `last`. -/
def tickTimes (period due last : Nat) : List Nat :=
  (List.range last).filter fun t => due ≤ t ∧ period ∣ t

/-- The steps of a script and the ticks from `due` on, in the order of their times. The steps of an
instant come before its tick, and one more tick comes at the end. -/
def timetable (period due : Nat) (script : List TimedSteps) : List Action :=
  let events := script.map fun e => (e.time, e.steps.map Action.step)
  let ticks := (tickTimes period due (latest script)).map fun t => (t, [Action.tick])
  (events.merge ticks fun a b => a.1 ≤ b.1).flatMap (·.2) ++ [.tick]

/-- What a run reports to the outside: measurements and batches, but no log events. -/
def reported (hs : List Happening) : List Happening := hs.filter fun h => h.event?.isNone

@[simp] theorem reported_append (hs hs' : List Happening) :
    reported (hs ++ hs') = reported hs ++ reported hs' := List.filter_append ..

/-! ## The order of steps and ticks -/

/-- A regular tick starts at a multiple of the period, from the first due time on and before the
end. -/
theorem mem_tickTimes {period due last t : Nat} :
    t ∈ tickTimes period due last ↔ t < last ∧ due ≤ t ∧ period ∣ t := by
  simp [tickTimes]

/-- There is none if the first would be due at the end or later. -/
theorem tickTimes_of_le {period due last : Nat} (h : last ≤ due) :
    tickTimes period due last = [] := by
  refine List.eq_nil_iff_forall_not_mem.2 fun t ht => ?_
  obtain ⟨hlast, hdue, -⟩ := mem_tickTimes.1 ht
  omega

/-- After a tick the next one is a period later. -/
theorem tickTimes_of_lt {period due last : Nat} (hp : 0 < period) (hdvd : period ∣ due)
    (h : due < last) :
    tickTimes period due last = due :: tickTimes period (due + period) last := by
  have hsorted : ∀ due', (tickTimes period due' last).Pairwise (· < ·) := fun due' =>
    List.pairwise_lt_range.filter _
  -- both are in order, so it is enough that they have the same members
  refine (hsorted due).eq_of_mem_iff (List.pairwise_cons.2 ⟨fun t ht => ?_, hsorted _⟩) fun t => ?_
  · have := (mem_tickTimes.1 ht).2.1
    omega
  · rw [List.mem_cons, mem_tickTimes, mem_tickTimes]
    constructor
    · rintro ⟨hlast, hdue, ht⟩
      rcases Nat.eq_or_lt_of_le hdue with rfl | hlt
      · exact .inl rfl
      · -- the distance of two multiples of the period is a multiple of it
        have hgap : period ≤ t - due := Nat.le_of_dvd (by omega) (Nat.dvd_sub ht hdvd)
        exact .inr ⟨hlast, by omega, ht⟩
    · rintro (rfl | ⟨hlast, hdue, ht⟩)
      · exact ⟨h, Nat.le_refl _, hdvd⟩
      · exact ⟨hlast, by omega, ht⟩

/-- At the end there is no regular tick. -/
example : tickTimes 2 2 6 = [2, 4] := by decide

/-- What comes before everything in the other list stays at the front of a merge. -/
theorem merge_append_left {α : Type} (le : α → α → Bool) {before : List α} (rest : List α)
    {others : List α} (h : ∀ a ∈ before, ∀ b ∈ others, le a b = true) :
    (before ++ rest).merge others le = before ++ rest.merge others le := by
  -- the induction is on the part that comes first, of which each member goes before all others
  induction before with
  | nil => rfl
  | cons a before ih =>
    have hrest := ih fun a ha => h a (List.mem_cons_of_mem _ ha)
    cases others with
    | nil => simp
    | cons b others =>
      have hab := h a List.mem_cons_self b List.mem_cons_self
      rw [List.cons_append, List.cons_merge_cons_pos _ _ _ hab, hrest]
      rfl

section Timetable

variable {period due : Nat} {before script : List TimedSteps}

/-- The steps that are due before the first tick. -/
theorem timetable_append (hbefore : ∀ e ∈ before, e.time ≤ due)
    (hlast : latest script = latest (before ++ script)) :
    timetable period due (before ++ script) =
      (before.flatMap TimedSteps.steps).map .step ++ timetable period due script := by
  unfold timetable
  rw [← hlast]
  dsimp only
  rw [List.map_append, merge_append_left _ _ fun a ha b hb => ?_]
  · simp [List.flatMap_append, List.flatMap_map, List.map_flatMap]
  · -- an event before the next tick is earlier than all ticks
    obtain ⟨e, he, rfl⟩ := List.mem_map.1 ha
    obtain ⟨t, ht, rfl⟩ := List.mem_map.1 hb
    exact decide_eq_true (Nat.le_trans (hbefore e he) (mem_tickTimes.1 ht).2.1)

/-- Once there is no more time for a regular tick, all the steps and the last tick are left. -/
theorem timetable_of_le (h : latest script ≤ due) :
    timetable period due script = (script.flatMap TimedSteps.steps).map .step ++ [.tick] := by
  unfold timetable
  rw [tickTimes_of_le h]
  simp [List.flatMap_map, List.map_flatMap]

/-- A tick that is due before the next event. -/
theorem timetable_of_lt {e : TimedSteps} (hp : 0 < period) (hdvd : period ∣ due)
    (he : due < e.time) :
    timetable period due (e :: script) =
      .tick :: timetable period (due + period) (e :: script) := by
  have hlast := le_latest e script
  unfold timetable
  rw [tickTimes_of_lt hp hdvd (by omega)]
  dsimp only
  rw [List.map_cons, List.map_cons, List.cons_merge_cons_neg _ _ _ (by simpa using he)]
  rfl

end Timetable

/-! ## Actions one after the other -/

namespace Pipeline

/-- More actions after some that all return. -/
theorem performAll_append {p : Pipeline} {actions : List Action} (h : p.returned actions = actions)
    (actions' : List Action) :
    (p.performAll (actions ++ actions')).2.1 =
        ((p.performAll actions).2.1.performAll actions').2.1 ∧
      (p.performAll (actions ++ actions')).2.2 =
        (p.performAll actions).2.2 ++ ((p.performAll actions).2.1.performAll actions').2.2 ∧
      p.returned (actions ++ actions') =
        actions ++ (p.performAll actions).2.1.returned actions' := by
  induction actions generalizing p with
  | nil => exact ⟨rfl, rfl, rfl⟩
  | cons a actions ih =>
    -- all of `actions` return, so the first one does
    by_cases hreturns : p.returns a
    · rw [returned_cons hreturns] at h
      obtain ⟨hpipeline, hhappened, hreturned⟩ := ih (List.cons.inj h).2
      rw [List.cons_append, performAll_cons hreturns, performAll_cons hreturns,
        returned_cons hreturns]
      refine ⟨hpipeline, ?_, congrArg (a :: ·) hreturned⟩
      exact (congrArg ((p.perform a).2.2 ++ ·) hhappened).trans (List.append_assoc ..).symm
    · rw [returned_of_stuck hreturns] at h
      cases h

/-- A single tick that returns. -/
theorem performAll_tick (p : Pipeline) (h : p.isStuck = false) :
    p.returned [.tick] = [.tick] ∧
      p.performAll [.tick] = ([.outcome p.answeredTick.1], p.answeredTick.2) := by
  have hreturns : p.returns .tick := returns_tick.2 h
  have hperformed : p.performAll [.tick] = ([.outcome p.answeredTick.1], p.answeredTick.2) := by
    rw [performAll_cons hreturns, perform_tick hreturns]
    exact congrArg (fun hs => (_, _, hs)) (List.append_nil _)
  exact ⟨returned_cons hreturns [], hperformed⟩

/-- Steps all return, and do the same as actions. -/
theorem performAll_steps (p : Pipeline) (steps : List Step) :
    p.performAll (steps.map .step) = p.serve steps ∧
      p.returned (steps.map .step) = steps.map .step := by
  induction steps generalizing p with
  | nil => exact ⟨rfl, rfl⟩
  | cons s steps ih =>
    obtain ⟨hserved, hreturned⟩ := ih (p.apply s).2.1
    -- a step always returns
    have hreturns : p.returns (.step s) := rfl
    rw [List.map_cons, performAll_cons hreturns, returned_cons hreturns]
    simp only [perform, serve, hserved, hreturned]
    exact ⟨trivial, trivial⟩

end Pipeline

/-! ## Sends that are answered at once -/

@[simp] theorem History.happenings_empty : ({} : History).happenings = [] := rfl

@[simp] theorem History.happenings_ofSends (sends : List Send) :
    ({ sends } : History).happenings = [] := rfl

namespace Deadline

/-- A send that is answered at once does not depend on its deadline, even if that has expired. -/
theorem land_of_stop_eq (d : Deadline) (p : Pipeline) (timeout now : Nat) :
    d.land p (some now) timeout now = ⟨p, now, true, d.script, d.isLast, {}⟩ := by
  cases d with
  | timeout => simp [land, expire, answerBy, Option.filter, script, isLast]
  | shutdown script => simp [land, answerBy, Option.filter, Deadline.script, isLast]

end Deadline

/-- A send is answered only when the transport stops, if nothing but the timeout limits it. -/
theorem stop_of_answered_expire {p : Pipeline} {stop : Option Nat} {limit : Nat}
    (h : (expire p stop limit).answered = true) : stop = some (expire p stop limit).time := by
  unfold expire at h ⊢
  split
  next t ht => exact (answerBy_eq_some.1 ht).1
  next hnone =>
    rw [hnone] at h
    cases h

/-- A send is answered only when the transport stops, while its deadline polls the shutdown
future. -/
theorem stop_of_answered_await {p : Pipeline} {stop : Option Nat} {timeout now : Nat}
    {script : List TimedSteps} (h : (await p stop timeout now script).answered = true) :
    stop = some (await p stop timeout now script).time := by
  fun_induction await p stop timeout now script with
  | case1 => exact stop_of_answered_expire h
  | case2 p now script polled e rest hp t ht => exact (answerBy_eq_some.1 ht).1
  | case3 p now script polled e rest hp hnone ih => exact ih h

/-- The answer to a send comes when the transport stops. -/
theorem stop_of_answered_land {d : Deadline} {p : Pipeline} {stop : Option Nat} {timeout now : Nat}
    (h : (d.land p stop timeout now).answered = true) :
    stop = some (d.land p stop timeout now).time := by
  unfold Deadline.land at h ⊢
  -- whichever way the send went, it was answered at its end
  split
  next => exact stop_of_answered_expire h
  next script =>
    split
    next t ht => exact (answerBy_eq_some.1 ht).1
    next hnone =>
      simp only [hnone] at h
      exact stop_of_answered_await h

namespace Send

/-- The transport answered as soon as the send started. -/
def IsPrompt (s : Send) : Prop := s.stop = some s.start

end Send

namespace Pipeline

/-- Without a delay a send lands as soon as it starts. -/
theorem flight_of_delay_eq {p : Pipeline} (h : p.transport.delay = some 0) (is : List Impression)
    (d : Deadline) (now : Nat) :
    p.flight is d now = ⟨(p.handOver is).1, now, true, d.script, d.isLast, {}⟩ := by
  unfold flight
  rw [h]
  exact d.land_of_stop_eq ..

/-- Whether a send is answered at once is up to the transport. -/
theorem isPrompt_attempt (p : Pipeline) (is : List Impression) (d : Deadline) (now : Nat) :
    (p.attempt is d now).IsPrompt ↔ p.transport.delay = some 0 := by
  unfold Send.IsPrompt Send.stop
  constructor
  · intro h
    split at h
    next hanswered =>
      -- a send that ends when it starts was answered at once
      have htime : (p.flight is d now).time = now := Option.some.inj h
      have hstop : p.transport.delay.map (now + ·) = some (p.flight is d now).time :=
        stop_of_answered_land hanswered
      rw [htime] at hstop
      obtain ⟨delay, hdelay, hzero⟩ := Option.map_eq_some_iff.1 hstop
      rw [hdelay, show delay = 0 by omega]
    next => cases h
  · intro h
    simp [attempt, flight_of_delay_eq h]

/-- The start of a tick does not change the transport. -/
theorem transport_of_start {p p' : Pipeline} {s : Start} {hs : List Happening}
    (h : p.start = (s, p', hs)) : p'.transport = p.transport := by
  have hstart := p.surroundings_start
  rw [h] at hstart
  exact congrArg Surroundings.transport hstart

/-- Without a delay in the transport the send of a tick is answered at once. -/
theorem isPrompt_timedTick {p : Pipeline} (h : p.transport.delay = some 0) (d : Deadline)
    (now : Nat) : ∀ s ∈ (p.timedTick d now).history.sends, s.IsPrompt := by
  rcases hstart : p.start with ⟨outcome | is, p', hs⟩
  · simp [timedTick, hstart]
  · intro s hs
    rw [sends_timedTick_of_start hstart, List.mem_singleton] at hs
    rw [hs, isPrompt_attempt, transport_of_start hstart, h]

/-- A tick whose send is answered at once does what a tick without any deadline does. -/
theorem prompt_timedTick (p : Pipeline) (d : Deadline) (now : Nat)
    (h : ∀ s ∈ (p.timedTick d now).history.sends, s.IsPrompt) :
    p.isStuck = false ∧ (p.timedTick d now).pipeline = p.answeredTick.2.1 ∧
      (p.timedTick d now).history.happenings = p.answeredTick.2.2 ∧
      (p.timedTick d now).time = now ∧ (p.timedTick d now).script = d.script ∧
      (d.isLast = false → (p.timedTick d now).stopped = false) := by
  -- a tick that sends nothing is the same with time; one that sends is, because its send is prompt
  rcases hstart : p.start with ⟨outcome | is, p', hs⟩
  · simp [timedTick, isStuck, answeredTick, hstart]
  · rw [sends_timedTick_of_start hstart] at h
    have hdelay := (p'.isPrompt_attempt is d now).1 (h _ (List.mem_singleton_self _))
    have htransport := transport_of_start hstart
    have hanswers : p.transport.answers = true := by
      rw [← htransport, Transport.answers, hdelay]
      rfl
    refine ⟨isStuck_of_answers hanswers, ?_⟩
    simp [timedTick, answeredTick, hstart, TickResult.after, timedSend,
      flight_of_delay_eq hdelay, Landing.failure, htransport]

end Pipeline

/-! ## Runs -/

namespace Run

/-- All sends of a run were answered as soon as they started. -/
def Prompt (r : Run) : Prop := ∀ s ∈ r.history.sends, s.IsPrompt

/-- A run that does what some actions do, all of which return, with regular ticks at `times` and the
last tick at `stop`. -/
structure Timetabled (r : Run) (p : Pipeline) (actions : List Action) (times : List Nat)
    (stop : Nat) : Prop where
  returned : p.returned actions = actions
  ticks : r.history.ticks = times.map (·, false) ++ [(stop, true)]
  elapsed : r.elapsed = stop
  pipeline : r.pipeline = (p.performAll actions).2.1
  reported : reported r.history.happenings = reported (p.performAll actions).2.2

/-- Some actions come before a run. -/
theorem Timetabled.after {r : Run} {p p' : Pipeline} {actions actions' : List Action}
    {times times' : List Nat} {stop : Nat} {h : History} (hr : r.Timetabled p' actions' times' stop)
    (hticks : h.ticks = times.map (·, false)) (hreturned : p.returned actions = actions)
    (hpipeline : p' = (p.performAll actions).2.1)
    (hreported : ClientMetrics.reported h.happenings =
      ClientMetrics.reported (p.performAll actions).2.2) :
    (r.after h).Timetabled p (actions ++ actions') (times ++ times') stop := by
  -- the actions before the turn all return, so the others take place after them
  obtain ⟨hleft, hhappened, hall⟩ := Pipeline.performAll_append hreturned actions'
  rw [← hpipeline] at hleft hhappened hall
  exact {
    returned := by rw [hall, hr.returned]
    ticks := by simp [hticks, hr.ticks]
    elapsed := hr.elapsed
    pipeline := hr.pipeline.trans hleft.symm
    reported := by
      rw [hhappened, history_after, History.happenings_append, reported_append, reported_append,
        hreported, hr.reported] }

/-- Notes may come before a run. -/
theorem Timetabled.noted {r : Run} {p : Pipeline} {actions : List Action} {times : List Nat}
    {stop : Nat} (hr : r.Timetabled p actions times stop) (time : Nat) (e : Log.Event) :
    (r.after (.moment time [.noted e])).Timetabled p actions times stop :=
  hr.after (show _ = [].map (·, false) from History.ticks_moment ..)
    (show p.returned [] = [] from rfl) (show p = (p.performAll []).2.1 from rfl)
    (by rw [History.happenings_moment]; rfl)

/-- The end of a run does what one more tick does, at the time at which the loop ends. -/
theorem timetabled_final {p : Pipeline} {now : Nat} (h : (final p now).Prompt) :
    (final p now).Timetabled p [.tick] [] now := by
  obtain ⟨hanswered, hpipeline, hhappened, htime, -⟩ :=
    p.prompt_timedTick .timeout now fun s hs => h s (by simp [final, hs])
  obtain ⟨hreturned, hperformed⟩ := p.performAll_tick hanswered
  refine ⟨hreturned, by simp [final, Deadline.isLast], htime, ?_, ?_⟩
  · rw [hperformed]
    exact hpipeline
  · -- the notes before and after the last tick are not reported
    rw [hperformed]
    simp [final, hhappened, ClientMetrics.reported, Happening.event?]

/-- The poll before a tick or a wait does what the steps that are due do. -/
theorem Timetabled.polled {r : Run} {p : Pipeline} {now : Nat} {script before : List TimedSteps}
    {actions : List Action} {times : List Nat} {stop : Nat}
    (hr : r.Timetabled (p.pollShutdown now script).pipeline actions times stop)
    (hpipeline : (p.pollShutdown now script).pipeline =
      (p.serve (before.flatMap TimedSteps.steps)).2.1)
    (hhappened : (p.pollShutdown now script).history.happenings =
      (p.serve (before.flatMap TimedSteps.steps)).2.2) :
    (r.after (p.pollShutdown now script).history).Timetabled p
      ((before.flatMap TimedSteps.steps).map .step ++ actions) times stop :=
  hr.after (show _ = [].map (·, false) by simp) (p.performAll_steps _).2
    (by rw [(p.performAll_steps _).1]; exact hpipeline)
    (by rw [(p.performAll_steps _).1, hhappened])

/-- The loop keeps to the timetable of what is left of its script, if the next tick is due at a
multiple of the period and not overdue. The cases are those of the loop. -/
theorem timetabled_loop (p : Pipeline) {now due : Nat} {script : List TimedSteps}
    (hdue : now ≤ due) (hdvd : p.settings.period ∣ due) (hn : now ≤ latest script)
    (h : (loop p now due script).Prompt) :
    (loop p now due script).Timetabled p (timetable p.settings.period due script)
      (tickTimes p.settings.period due (latest script)) (latest script) := by
  fun_induction loop p now due script with
  | case1 p now due script polled hp =>
    -- the script ends at this poll, so all its steps come before the final tick
    obtain ⟨before, hscript, hbefore, hpipeline, hhappened⟩ := pollShutdown_serves p now script
    rw [hp, List.append_nil] at hscript
    subst hscript
    have hlast : latest script = now := Nat.le_antisymm (latest_le_of_resolved hp) hn
    have hfinal : (final polled.pipeline now).Prompt := fun s hs => h s (by simp [hs])
    rw [timetable_of_le (by omega), tickTimes_of_le (by omega), hlast]
    exact (timetabled_final hfinal).polled hpipeline hhappened
  | case2 p now due script polled e rest hp hdue' t hstop =>
    -- a tick with a prompt send does not poll its deadline
    have hprompt := polled.pipeline.prompt_timedTick (.shutdown (e :: rest)) now
      fun s hs => h s (by simp [t, hs])
    exact absurd hstop (by simp [t, hprompt.2.2.2.2.2 rfl])
  | case3 p now due script polled e rest hp hdue' t hgo ih =>
    obtain ⟨before, hscript, hbefore, hpipeline, hhappened⟩ := pollShutdown_serves p now script
    rw [hp] at hscript
    subst hscript
    obtain ⟨hanswered, htick, hticked, htime, hrest, -⟩ :=
      polled.pipeline.prompt_timedTick (.shutdown (e :: rest)) now fun s hs => h s (by simp [t, hs])
    have hlast := latest_of_pending hp
    have hnext := lt_of_pollShutdown hp
    have hhead := le_latest e rest
    have hset : t.pipeline.settings = p.settings := (Pipeline.headway_polled hp rfl).2
    -- the tick is in time, so the next one is due a period later
    obtain rfl : now = due := Nat.le_antisymm hdue hdue'
    have hdue'' : nextDue p.settings.period now now = now + p.settings.period :=
      if_pos (Nat.le_add_right now 5)
    have htime' : t.time = now := htime
    have hrest' : t.script = e :: rest := hrest
    rw [htime', hrest', hset, hdue''] at ih
    have hlater := ih (Nat.le_add_right _ _) (Nat.dvd_add hdvd (Nat.dvd_refl _)) (by omega)
      fun s hs => h s (by simp [htime', hrest', hdue'', hs])
    obtain ⟨hreturned, hperformed⟩ := polled.pipeline.performAll_tick hanswered
    have hturn : Timetabled _ polled.pipeline ([.tick] ++ _) ([now] ++ _) _ :=
      hlater.after (show t.history.ticks = _ by simp [t, Deadline.isLast]) hreturned
        (by rw [hperformed]; exact htick)
        (show ClientMetrics.reported t.history.happenings = _ by rw [hperformed, hticked])
    rw [after_append, timetable_append (fun d hd => Nat.le_trans (hbefore d hd) hdue) hlast,
      ← hlast, timetable_of_lt p.settings.period_pos hdvd hnext,
      tickTimes_of_lt p.settings.period_pos hdvd (by omega), htime', hrest', hdue'']
    exact hturn.polled hpipeline hhappened
  | case4 p now due script polled e rest hp hdue' ih =>
    -- no tick is due yet, so the steps of this poll come before the next one
    obtain ⟨before, hscript, hbefore, hpipeline, hhappened⟩ := pollShutdown_serves p now script
    rw [hp] at hscript
    subst hscript
    have hlast := latest_of_pending hp
    have hnext := lt_of_pollShutdown hp
    have hhead := le_latest e rest
    have hset := Pipeline.settings_eq (p.configuration_pollShutdown now (before ++ e :: rest))
    have hlater := ih (by omega) (by rw [hset]; exact hdvd) (by omega)
      fun s hs => h s (by simp [hs])
    rw [hset] at hlater
    rw [timetable_append (fun d hd => Nat.le_trans (hbefore d hd) hdue) hlast, ← hlast]
    exact hlater.polled hpipeline hhappened

end Run

/-- A step after which sends are answered at once, if they were before. -/
def Step.IsPrompt : Step → Prop
  | transport t => t.delay = some 0
  | _ => True

/-- A transport without a delay is left without one by steps that set none. -/
theorem Surroundings.delay_afterAll {s : Surroundings} (h : s.transport.delay = some 0)
    {steps : List Step} (hsteps : ∀ step ∈ steps, step.IsPrompt) :
    (s.afterAll steps).transport.delay = some 0 := by
  induction steps generalizing s with
  | nil => exact h
  | cons step steps ih =>
    refine ih (s := s.after step) ?_ fun step' hs => hsteps step' (List.mem_cons_of_mem _ hs)
    cases step with
    | transport t => exact hsteps _ List.mem_cons_self
    | _ => exact h

namespace Pipeline

/-- Without delays in a transport all sends of a run are answered at once. -/
theorem prompt_run {p : Pipeline} (h : p.transport.delay = some 0) {script : List TimedSteps}
    (hsteps : ∀ step ∈ script.flatMap TimedSteps.steps, step.IsPrompt) : (p.run script).Prompt := by
  intro s hs
  rw [(p.made_run script).sends] at hs
  obtain ⟨t, ht, hs⟩ := List.mem_flatMap.1 hs
  obtain ⟨-, ⟨before, hscript, -, hfound⟩, -⟩ := Run.punctual_ticks _ _ _ _ t ht
  -- the transport that the tick finds is from the steps up to then
  have hdelay : t.found.transport.delay = some 0 := by
    rw [show t.found.transport = _ from congrArg Surroundings.transport hfound]
    refine Surroundings.delay_afterAll (s := p.surroundings) h fun step hstep => hsteps step ?_
    rw [hscript, List.flatMap_append]
    exact List.mem_append_left _ hstep
  exact isPrompt_timedTick hdelay _ _ s hs

/-- A run whose sends are answered at once does what its timetable says, and ends with its script.
That is so whatever the shutdown timeout is, and it is so for every script if no transport in it or
before it has a delay. -/
theorem timetabled_run (queue : QueueSettings) (dispatch : DispatchSettings)
    (privacy : PrivacySettings) (sdk : SdkSettings) (setup : List Step)
    (script : List TimedSteps) :
    let idle := ofSettings queue dispatch privacy sdk
    let (_, p, hs) := idle.serve setup
    let r := p.run script
    ((∀ step ∈ setup ++ script.flatMap TimedSteps.steps, step.IsPrompt) → r.Prompt) ∧
    (r.Prompt → (r.after (.moment 0 hs)).Timetabled idle
      (setup.map .step ++ timetable dispatch.period dispatch.period script)
      (tickTimes dispatch.period dispatch.period (latest script)) (latest script)) := by
  intro idle
  have hset : (idle.serve setup).2.1.settings = dispatch :=
    settings_eq (q := idle) (configuration_serve _ setup)
  refine ⟨fun hsteps => prompt_run ?_ fun step hs => hsteps step (List.mem_append_right _ hs),
    fun h => ?_⟩
  · rw [show (idle.serve setup).2.1.transport = _ from
      congrArg Surroundings.transport (idle.surroundings_serve setup)]
    exact Surroundings.delay_afterAll rfl fun step hs => hsteps step (List.mem_append_left _ hs)
  · -- before the loop starts there is nothing but a note
    have hloop := Run.timetabled_loop (idle.serve setup).2.1 (Nat.zero_le _) (Nat.dvd_refl _)
      (Nat.zero_le (latest script)) fun s hs => h s (by simp [run, hs])
    have hrun : ((idle.serve setup).2.1.run script).Timetabled (idle.serve setup).2.1 _ _ _ :=
      hloop.noted 0 _
    rw [hset] at hrun
    exact hrun.after (show (History.moment 0 _).ticks = [].map (·, false) from
      History.ticks_moment ..) (performAll_steps _ _).2 (by rw [(performAll_steps _ _).1])
      (by rw [(performAll_steps _ _).1, History.happenings_moment])

end Pipeline

end ClientMetrics
