import ClientMetrics.Dispatch.Run

/-!
# What only the surroundings change

The gate and the transport of a pipeline are changed by the steps of the surroundings, and by
nothing that the dispatcher does. So both are known from the steps that were taken.

* `Surroundings.afterAll` — gate and transport after some steps;
* `surroundings_serve`, `surroundings_performAll` — steps change them like that, and ticks do not;
* `pollShutdown_serves` — a poll of the shutdown future takes the steps of the events that are due;
* `Advances` — some events of a script take place, and they alone change gate and transport;
* `advances_await`, `advances_timedTick` — so it is while a send is pending, and in a tick.
-/

namespace ClientMetrics

/-- The part of a pipeline that only its surroundings change. -/
structure Surroundings where
  gate : ConsentGate
  transport : Transport

namespace Surroundings

/-- What a step makes of it. -/
def after (s : Surroundings) : Step → Surroundings
  | .consent value => { s with gate := s.gate.setConsent value }
  | .transport t => { s with transport := t }
  | _ => s

/-- What steps make of it, one after the other. -/
def afterAll (s : Surroundings) (steps : List Step) : Surroundings := steps.foldl after s

@[simp] theorem afterAll_nil (s : Surroundings) : s.afterAll [] = s := rfl

@[simp] theorem afterAll_append (s : Surroundings) (steps steps' : List Step) :
    s.afterAll (steps ++ steps') = (s.afterAll steps).afterAll steps' := List.foldl_append

end Surroundings

/-- The step, if it is one. -/
def Action.step? : Action → Option Step
  | step s => some s
  | tick => none

/-- It does not set a transport that never answers. -/
def Action.answers : Action → Bool
  | step (.transport t) => t.answers
  | _ => true

namespace Pipeline

/-- The part of a pipeline that only its surroundings change. -/
def surroundings (p : Pipeline) : Surroundings where
  gate := p.gate
  transport := p.transport

/-- An offer leaves gate and transport alone. -/
@[simp] theorem surroundings_offer (p : Pipeline) (i : Impression) :
    (p.offer i).2.1.surroundings = p.surroundings := rfl

@[simp] theorem surroundings_offerAll (p : Pipeline) (is : List Impression) :
    (p.offerAll is).2.1.surroundings = p.surroundings := by
  induction is generalizing p with
  | nil => rfl
  | cons i is ih => exact (ih _).trans (p.surroundings_offer i)

/-- Of all steps only two concern the gate or the transport. -/
theorem surroundings_apply (p : Pipeline) (s : Step) :
    (p.apply s).2.1.surroundings = p.surroundings.after s := by
  cases s with
  | fill name count => exact p.surroundings_offerAll _
  | _ => rfl

/-- Steps change gate and transport one after the other. -/
theorem surroundings_serve (p : Pipeline) (steps : List Step) :
    (p.serve steps).2.1.surroundings = p.surroundings.afterAll steps := by
  induction steps generalizing p with
  | nil => rfl
  | cons s steps ih =>
    show ((p.apply s).2.1.serve steps).2.1.surroundings = (p.surroundings.after s).afterAll steps
    rw [ih, surroundings_apply]

/-- Some steps and then more of them. -/
theorem serve_append (p : Pipeline) (steps steps' : List Step) :
    (p.serve (steps ++ steps')).2.1 = ((p.serve steps).2.1.serve steps').2.1 ∧
      (p.serve (steps ++ steps')).2.2 =
        (p.serve steps).2.2 ++ ((p.serve steps).2.1.serve steps').2.2 := by
  induction steps generalizing p with
  | nil => exact ⟨rfl, rfl⟩
  | cons s steps ih =>
    obtain ⟨hpipeline, hhappened⟩ := ih (p.apply s).2.1
    exact ⟨hpipeline, (congrArg ((p.apply s).2.2 ++ ·) hhappened).trans
      (List.append_assoc ..).symm⟩

/-- The start of a tick leaves gate and transport alone. -/
@[simp] theorem surroundings_start (p : Pipeline) : p.start.2.1.surroundings = p.surroundings := by
  unfold start
  split <;> rfl

@[simp] theorem surroundings_handOver (p : Pipeline) (is : List Impression) :
    (p.handOver is).1.surroundings = p.surroundings :=
  p.surroundings_offerAll _

/-- So does a send, however it ends. -/
@[simp] theorem surroundings_settle (p : Pipeline) (is : List Impression)
    (failure : Option TransportError) :
    (p.settle is failure).2.1.surroundings = p.surroundings := by
  cases failure with
  | none => rfl
  | some error => exact p.surroundings_offerAll _

/-- So does a whole tick. -/
@[simp] theorem surroundings_tick (p : Pipeline) :
    p.answeredTick.2.1.surroundings = p.surroundings := by
  have hs := p.surroundings_start
  unfold answeredTick
  split
  next h => rw [h] at hs; exact hs
  next h =>
    rw [h] at hs
    exact (surroundings_settle ..).trans ((surroundings_handOver ..).trans hs)

/-- Ticks leave gate and transport alone, whether they return or not. -/
theorem surroundings_perform (p : Pipeline) (a : Action) :
    (p.perform a).2.1.surroundings = p.surroundings.afterAll a.step?.toList := by
  cases a with
  | step s => exact p.surroundings_apply s
  | tick =>
    unfold perform tick
    cases p.isStuck with
    | true => rfl
    | false => exact p.surroundings_tick

/-- Where the transport answers, every action returns. -/
theorem returns_of_answers {p : Pipeline} (h : p.transport.answers) (a : Action) : p.returns a := by
  cases a with
  | step s => rfl
  | tick =>
    unfold returns
    rw [isStuck_of_answers h]
    rfl

/-- The transport still answers after an action that does not set another one that does not. -/
theorem answers_perform (p : Pipeline) (hp : p.transport.answers) {a : Action} (h : a.answers) :
    (p.perform a).2.1.transport.answers := by
  have hafter := congrArg Surroundings.transport (p.surroundings_perform a)
  have hnext : (p.perform a).2.1.transport = (p.surroundings.afterAll a.step?.toList).transport :=
    hafter
  -- only a step that sets a transport matters, and that one answers
  rw [hnext]
  cases a with
  | tick => exact hp
  | step s =>
    cases s with
    | transport t => exact h
    | _ => exact hp

/-- The actions of a sequence that return: those before the first that does not. -/
def returned (p : Pipeline) (actions : List Action) : List Action :=
  actions.take (p.performAll actions).1.length

theorem returned_cons {p : Pipeline} {a : Action} (h : p.returns a) (actions : List Action) :
    p.returned (a :: actions) = a :: (p.perform a).2.1.returned actions := by
  rw [returned, performAll_cons h, List.length_cons, List.take_succ_cons]
  rfl

/-- After an action that does not return there is none. -/
theorem returned_of_stuck {p : Pipeline} {a : Action} (h : ¬p.returns a) (actions : List Action) :
    p.returned (a :: actions) = [] := by
  rw [returned, performAll_of_stuck h]
  rfl

/-- As long as every transport answers, every action of a sequence returns. -/
theorem returned_of_answers {p : Pipeline} (hp : p.transport.answers) {actions : List Action}
    (h : ∀ a ∈ actions, a.answers) : p.returned actions = actions := by
  induction actions generalizing p with
  | nil => rfl
  | cons a actions ih =>
    have hnext : (p.perform a).2.1.transport.answers :=
      p.answers_perform hp (h a List.mem_cons_self)
    rw [returned_cons (returns_of_answers hp a),
      ih hnext fun b hb => h b (List.mem_cons_of_mem a hb)]

/-- After a sequence of actions gate and transport are what the steps that were taken make of
them. -/
theorem surroundings_performAll (p : Pipeline) (actions : List Action) :
    (p.performAll actions).2.1.surroundings =
      p.surroundings.afterAll ((p.returned actions).filterMap Action.step?) := by
  induction actions generalizing p with
  | nil => rfl
  | cons a actions ih =>
    by_cases h : p.returns a
    · rw [performAll_cons h, returned_cons h]
      refine (ih (p.perform a).2.1).trans ?_
      rw [surroundings_perform, ← Surroundings.afterAll_append]
      cases a <;> rfl
    · -- neither this action nor any after it is taken
      rw [performAll_of_stuck h, returned_of_stuck h]
      rfl

end Pipeline

/-! ## Parts of a run -/

/-- A poll of the shutdown future takes the steps of the events that are due. -/
theorem pollShutdown_serves (p : Pipeline) (now : Nat) (script : List TimedSteps) :
    ∃ before, script = before ++ (p.pollShutdown now script).script ∧
      (∀ e ∈ before, e.time ≤ now) ∧
      (p.pollShutdown now script).pipeline = (p.serve (before.flatMap TimedSteps.steps)).2.1 ∧
      (p.pollShutdown now script).history.happenings =
        (p.serve (before.flatMap TimedSteps.steps)).2.2 := by
  induction script generalizing p with
  | nil => exact ⟨[], rfl, by simp, rfl, rfl⟩
  | cons e script ih =>
    unfold Pipeline.pollShutdown
    split
    next hle =>
      -- the steps of this event come before those that the rest of the poll takes
      obtain ⟨before, hscript, hbefore, hpipeline, hhappened⟩ := ih (p.serve e.steps).2.1
      obtain ⟨hserved, hserved'⟩ := p.serve_append e.steps (before.flatMap TimedSteps.steps)
      refine ⟨e :: before, congrArg (e :: ·) hscript, fun d hd => ?_, ?_, ?_⟩
      · rcases List.mem_cons.1 hd with rfl | hd
        · exact hle
        · exact hbefore d hd
      · rw [List.flatMap_cons, hserved]
        exact hpipeline
      · rw [List.flatMap_cons, hserved', ← hhappened, History.happenings_append,
          History.happenings_append, History.happenings_moment]
        rfl
    next => exact ⟨[], rfl, by simp, rfl, rfl⟩

/-- From one pipeline to another, some events of a script take place, none of them after `time`, and
`rest` is left. -/
def Advances (p : Pipeline) (script : List TimedSteps) (p' : Pipeline) (rest : List TimedSteps)
    (time : Nat) : Prop :=
  ∃ before, script = before ++ rest ∧ (∀ e ∈ before, e.time ≤ time) ∧
    p'.surroundings = p.surroundings.afterAll (before.flatMap TimedSteps.steps)

namespace Advances

variable {p p' p'' : Pipeline} {script rest rest' : List TimedSteps} {time time' : Nat}

theorem refl (p : Pipeline) (script : List TimedSteps) (time : Nat) :
    Advances p script p script time := ⟨[], rfl, by simp, rfl⟩

/-- Two parts of a script that take place one after the other are one. -/
theorem trans (first : Advances p script p' rest time) (second : Advances p' rest p'' rest' time')
    (ht : time ≤ time') : Advances p script p'' rest' time' := by
  obtain ⟨before, rfl, hbefore, hs⟩ := first
  obtain ⟨before', rfl, hbefore', hs'⟩ := second
  refine ⟨before ++ before', by simp, fun e he => ?_, ?_⟩
  · rcases List.mem_append.1 he with he | he
    · exact Nat.le_trans (hbefore e he) ht
    · exact hbefore' e he
  · rw [hs', hs, List.flatMap_append, Surroundings.afterAll_append]

/-- What leaves gate and transport alone may follow. -/
theorem of_surroundings_eq (h : Advances p script p' rest time)
    (hs : p''.surroundings = p'.surroundings) : Advances p script p'' rest time := by
  obtain ⟨before, hscript, hbefore, heq⟩ := h
  exact ⟨before, hscript, hbefore, hs.trans heq⟩

end Advances

/-- A poll of the shutdown future changes gate and transport by the events that are due. -/
theorem advances_pollShutdown (p : Pipeline) (now : Nat) (script : List TimedSteps) :
    Advances p script (p.pollShutdown now script).pipeline (p.pollShutdown now script).script
      now := by
  obtain ⟨before, hscript, hbefore, hpipeline, -⟩ := pollShutdown_serves p now script
  exact ⟨before, hscript, hbefore, hpipeline ▸ p.surroundings_serve _⟩

/-- While a send is pending, only the events that take place until it ends change them. -/
theorem advances_await (p : Pipeline) {stop : Option Nat} (timeout : Nat) {now : Nat}
    (script : List TimedSteps) (hstop : ∀ t, stop = some t → now ≤ t) :
    Advances p script (await p stop timeout now script).pipeline
      (await p stop timeout now script).script (await p stop timeout now script).time := by
  fun_induction await p stop timeout now script with
  | case1 p now script polled hp =>
    have h := advances_pollShutdown p now script
    rw [hp] at h
    -- the script is over, so nothing changes while the timeout runs
    have hnow := le_time_expire hstop polled.pipeline (Nat.le_add_right now timeout)
    refine h.trans ?_ hnow
    simpa using Advances.refl polled.pipeline [] _
  | case2 p now script polled e rest hp t ht =>
    have h := advances_pollShutdown p now script
    rw [hp] at h
    exact h.trans (.refl _ _ t) (hstop t (answerBy_eq_some.1 ht).1)
  | case3 p now script polled e rest hp hnone ih =>
    have h := advances_pollShutdown p now script
    rw [hp] at h
    -- the answer comes after the next event, and the send is awaited from then on
    have hlater : ∀ t, stop = some t → e.time ≤ t :=
      fun t ht => Nat.le_of_lt (answerBy_eq_none.1 hnone t ht)
    have hlt := lt_of_pollShutdown hp
    have hle : e.time ≤ (await polled.pipeline stop timeout e.time (e :: rest)).time :=
      le_time_await hlater _ timeout (Nat.le_refl _) _
    exact h.trans (ih hlater) (by rw [Landing.time_after]; omega)

namespace Pipeline

/-- So it is from the moment a batch is handed over until its send ends. -/
theorem advances_flight (p : Pipeline) (is : List Impression) (d : Deadline) (now : Nat) :
    Advances (p.handOver is).1 d.script (p.flight is d now).pipeline (p.flight is d now).script
      (p.flight is d now).time := by
  -- no transport answers before it was given the batch
  have hstop : ∀ t, p.transport.delay.map (now + ·) = some t → now ≤ t := by
    intro t ht
    obtain ⟨delay, -, rfl⟩ := Option.map_eq_some_iff.1 ht
    exact Nat.le_add_right _ _
  unfold flight Deadline.land
  -- only the send of a regular tick that is not answered at once waits for events
  cases d with
  | timeout => simpa [Deadline.script] using Advances.refl (p.handOver is).1 [] _
  | shutdown script =>
    dsimp only [Deadline.script]
    split
    next => exact .refl _ _ _
    next => exact advances_await _ _ _ hstop

/-- So it is in a tick. -/
theorem advances_timedTick (p : Pipeline) (d : Deadline) (now : Nat) :
    Advances p d.script (p.timedTick d now).pipeline (p.timedTick d now).script
      (p.timedTick d now).time := by
  have hs := p.surroundings_start
  unfold timedTick
  split
  next heq =>
    rw [heq] at hs
    exact (Advances.refl p d.script now).of_surroundings_eq hs
  next is p' _ heq =>
    rw [heq] at hs
    -- neither handing over nor settling is a step of the surroundings
    have hstart : Advances p d.script (p'.handOver is).1 d.script now :=
      (Advances.refl p d.script now).of_surroundings_eq ((p'.surroundings_handOver is).trans hs)
    have hflown := hstart.trans (p'.advances_flight is d now) (p'.le_time_flight is d now)
    exact hflown.of_surroundings_eq (surroundings_settle ..)

end Pipeline

end ClientMetrics
