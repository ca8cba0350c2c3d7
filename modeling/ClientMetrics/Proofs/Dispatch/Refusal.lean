import ClientMetrics.Proofs.Consent.History
import ClientMetrics.Proofs.Dispatch.Reports
import ClientMetrics.Proofs.Dispatch.Ticks

/-!
# Nothing is sent against a refusal

The gate is asked at the start of every tick, after all events that are due by then. So no send
starts while the consent string in force refuses the vendor, and a tick that starts then leaves the
queue alone.

* `consentAfter`, `consentAt` — the consent string in force after some steps, or at a time of a run;
* `isDisallowed_afterAll` — the gate is closed exactly if that string refuses its vendor;
* `Blocked` — a tick that hands nothing over and leaves the queue as it found it;
* `respectful_run` — no send of a run starts against a refusal, and ticks against one are blocked.
-/

namespace ClientMetrics

/-- The consent string in force after a step. -/
def Step.consentFrom (value : Option String) : Step → Option String
  | consent value' => value'
  | _ => value

/-- The consent string in force after some steps. At first there is none. -/
def consentAfter (steps : List Step) : Option String := steps.foldl Step.consentFrom none

/-- The events of a script that have taken place by a time. An event waits for those before it. -/
def eventsBy (time : Nat) (script : List TimedSteps) : List TimedSteps :=
  script.takeWhile fun e => e.time ≤ time

/-- The consent string in force at a time, after some steps before the start. -/
def consentAt (setup : List Step) (script : List TimedSteps) (time : Nat) : Option String :=
  consentAfter (setup ++ (eventsBy time script).flatMap TimedSteps.steps)

/-- If the events come in order, those that have taken place are those of earlier times. -/
theorem eventsBy_of_sorted {script : List TimedSteps}
    (hsorted : script.Pairwise fun d e => d.time ≤ e.time) (time : Nat) :
    eventsBy time script = script.filter fun e => e.time ≤ time := by
  unfold eventsBy
  -- the induction is on the script; once an event is too late, so are all after it
  induction script with
  | nil => rfl
  | cons e script ih =>
    obtain ⟨hhead, htail⟩ := List.pairwise_cons.1 hsorted
    by_cases he : e.time ≤ time
    · simp [he, ih htail]
    · -- the events after `e` are as late as `e`
      have hlate : ∀ d ∈ script, ¬d.time ≤ time := fun d hd => by
        have := hhead d hd
        omega
      have hnone : script.filter (fun d => d.time ≤ time) = [] :=
        List.filter_eq_nil_iff.2 fun d hd => by simpa using hlate d hd
      simp [he, hnone]

/-- Of what is left of a script nothing is due. -/
theorem eventsBy_append {before rest : List TimedSteps} {time : Nat}
    (hbefore : ∀ e ∈ before, e.time ≤ time) (hrest : ∀ e ∈ rest.head?, time < e.time) :
    eventsBy time (before ++ rest) = before := by
  unfold eventsBy
  rw [List.takeWhile_append_of_pos fun e he => by simpa using hbefore e he]
  cases rest with
  | nil => simp
  | cons e rest =>
    have hlt : time < e.time := hrest e rfl
    simp [Nat.not_le.2 hlt]

/-! ## The gate -/

namespace Surroundings

/-- A step changes the stored string only if it sets consent. -/
theorem stored_after (s : Surroundings) (step : Step) :
    (s.after step).gate.stored = step.consentFrom s.gate.stored := by
  cases step with
  | consent value => exact s.gate.stored_setConsent value
  | _ => rfl

/-- No step changes the vendor. -/
theorem vendorId_after (s : Surroundings) (step : Step) :
    (s.after step).gate.vendorId = s.gate.vendorId := by
  cases step with
  | consent value => exact s.gate.vendorId_setConsent value
  | _ => rfl

/-- After many steps the last string that was set is stored. -/
theorem gate_afterAll (s : Surroundings) (steps : List Step) :
    (s.afterAll steps).gate.stored = steps.foldl Step.consentFrom s.gate.stored ∧
      (s.afterAll steps).gate.vendorId = s.gate.vendorId := by
  -- each step hands its string on to the next
  induction steps generalizing s with
  | nil => exact ⟨rfl, rfl⟩
  | cons step steps ih =>
    obtain ⟨hstored, hvendor⟩ := ih (s.after step)
    refine ⟨?_, hvendor.trans (s.vendorId_after step)⟩
    rw [List.foldl_cons, ← stored_after]
    exact hstored

/-- If nothing is stored at first, the gate is closed exactly while the string in force refuses. -/
theorem isDisallowed_afterAll {s : Surroundings} (h : s.gate.stored = none) (steps : List Step) :
    (s.afterAll steps).gate.isDisallowed = true ↔
      Refuses (consentAfter steps) s.gate.vendorId := by
  obtain ⟨hstored, hvendor⟩ := s.gate_afterAll steps
  rw [ConsentGate.isDisallowed_iff_refuses, hstored, hvendor, h]
  rfl

end Surroundings

/-! ## Ticks -/

/-- A tick that hands nothing over and leaves the queue as it found it. -/
structure Blocked (found : Pipeline) (outcome : Outcome) (left : Pipeline) (hs : List Happening) :
    Prop where
  outcome : outcome = .consentBlocked
  batches : batchesOf hs = []
  items : left.queue.items = found.queue.items
  dropped : left.queue.dropped = found.queue.dropped

/-- A tick that finds the gate closed is blocked. It returns, whatever the transport is like. -/
theorem Pipeline.blocked_tick {p : Pipeline} (h : p.gate.isDisallowed = true) :
    ∃ outcome left hs, p.tick = some (outcome, left, hs) ∧ Blocked p outcome left hs := by
  have hreturns : p.isStuck = false := by
    rw [Bool.eq_false_iff, Ne, isStuck_iff, h]
    simp
  exact ⟨_, _, _, tick_eq_some.2 ⟨hreturns, answeredTick_of_disallowed h⟩,
    ⟨rfl, p.batchesOf_start, rfl, rfl⟩⟩

/-- A tick of a run that finds the gate closed is blocked too. -/
theorem Tick.blocked_result {t : Tick} (h : t.found.gate.isDisallowed = true) :
    Blocked t.found t.result.outcome t.result.pipeline t.result.history.happenings := by
  obtain ⟨houtcome, hleft, hbatches, -⟩ := t.result_of_isDisallowed h
  exact ⟨houtcome, hbatches, by rw [hleft], by rw [hleft]⟩

/-! ## Runs -/

/-- A run that respects the refusals of a vendor, where `consent` is the string in force at a
time. -/
structure Run.Respectful (r : Run) (vendor : UInt16) (consent : Nat → Option String)
    (ticks : List Tick) : Prop where
  made : r.Made ticks
  /-- No send starts against a refusal. -/
  sends : ∀ s ∈ r.history.sends, ¬Refuses (consent s.start) vendor
  /-- A tick that starts against a refusal makes no send and leaves the queue alone. -/
  blocked : ∀ t ∈ ticks, Refuses (consent t.start) vendor →
    t.result.history.sends = [] ∧
      Blocked t.found t.result.outcome t.result.pipeline t.result.history.happenings

/-- The gate that a tick of a run finds is closed exactly if the string in force at its start
refuses. -/
theorem Pipeline.isDisallowed_found {p : Pipeline} {setup : List Step} {script : List TimedSteps}
    (h : p.gate.stored = none) {t : Tick} (ht : t ∈ (p.serve setup).2.1.ticks script) :
    t.found.gate.isDisallowed = true ↔
      Refuses (consentAt setup script t.start) p.gate.vendorId := by
  obtain ⟨-, ⟨before, hscript, hbefore, hfound⟩, hnext⟩ := Run.punctual_ticks _ _ _ script t ht
  -- the events that were served by then are those that are due
  have hdue : eventsBy t.start script = before := by
    rw [hscript]
    exact eventsBy_append hbefore hnext
  rw [surroundings_serve, ← Surroundings.afterAll_append] at hfound
  have hgate : t.found.gate = _ := congrArg Surroundings.gate hfound
  rw [hgate, consentAt, hdue]
  exact Surroundings.isDisallowed_afterAll (s := p.surroundings) h _

/-- No run sends anything against a refusal, and neither does a single tick after any steps and
ticks that have returned. -/
theorem Pipeline.respectful_run (queue : QueueSettings) (dispatch : DispatchSettings)
    (privacy : PrivacySettings) (sdk : SdkSettings) (setup : List Step)
    (script : List TimedSteps) :
    let idle := ofSettings queue dispatch privacy sdk
    let p := (idle.serve setup).2.1
    (p.run script).Respectful privacy.vendorId (consentAt setup script) (p.ticks script) ∧
    ((script.Pairwise fun d e => d.time ≤ e.time) →
      ∀ time, eventsBy time script = script.filter fun e => e.time ≤ time) ∧
    ∀ actions,
      (Refuses (consentAfter ((idle.returned actions).filterMap Action.step?)) privacy.vendorId →
        let q := (idle.performAll actions).2.1
        ∃ outcome left hs, q.tick = some (outcome, left, hs) ∧ Blocked q outcome left hs) ∧
      ((∀ a ∈ actions, a.answers) → idle.returned actions = actions) := by
  intro idle p
  have hfound : ∀ t ∈ p.ticks script, t.found.gate.isDisallowed = true ↔
      Refuses (consentAt setup script t.start) privacy.vendorId :=
    fun t ht => isDisallowed_found (p := idle) rfl ht
  have hmade := p.made_run script
  refine ⟨⟨hmade, fun s hs => ?_, fun t ht hrefused => ?_⟩, eventsBy_of_sorted,
    fun actions => ⟨fun h => ?_, returned_of_answers rfl⟩⟩
  · -- the send belongs to a tick, which found the gate open
    rw [hmade.sends] at hs
    obtain ⟨t, ht, hs⟩ := List.mem_flatMap.1 hs
    obtain ⟨hstart, -, hopen⟩ := Tick.of_mem_sends hs
    rw [hstart, ← hfound t ht, hopen]
    exact Bool.false_ne_true
  · have hclosed := (hfound t ht).2 hrefused
    exact ⟨(t.result_of_isDisallowed hclosed).2.2.2, t.blocked_result hclosed⟩
  · have hgate : (idle.performAll actions).2.1.gate = _ :=
      congrArg Surroundings.gate (idle.surroundings_performAll actions)
    refine blocked_tick ?_
    rw [hgate]
    exact (Surroundings.isDisallowed_afterAll (s := idle.surroundings) rfl _).2 h

end ClientMetrics
