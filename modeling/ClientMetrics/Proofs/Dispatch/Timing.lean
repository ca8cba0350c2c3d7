import ClientMetrics.Proofs.Dispatch.Frame

/-!
# How long a run takes

A run ends, at the earliest, when its shutdown future resolves: with the last event of the script,
at `latest script`. From then on a send may take the shutdown timeout, and the final tick may take
it again.

* `Headway` — how far a send or a tick gets with the script;
* `headway_await`, `headway_timedTick` — a send is given up no later than the timeout after
  the last event, and a tick that is not stopped ends before the next event;
* `Run.Timely` — the bounds on the end of a run, which every turn of the loop preserves;
* `timely_run` — all runs are timely.
-/

namespace ClientMetrics

namespace Send

/-- The send had started and had not ended at some time. -/
def inFlightAt (s : Send) (time : Nat) : Prop := s.start < time ∧ time < s.finish

end Send

/-- How far something that ends at `time` gets with a script, of which `rest` is left then. -/
structure Headway (script : List TimedSteps) (timeout time : Nat) (stopped : Bool)
    (rest : List TimedSteps) : Prop where
  /-- The next event is not in the past, and the last event is still to come. -/
  pending : stopped = false →
    ∃ e tail, rest = e :: tail ∧ time ≤ e.time ∧ latest rest = latest script
  /-- After the last event it took no longer than the timeout. -/
  resolved : stopped = true →
    rest = [] ∧ latest script ≤ time ∧ time ≤ latest script + timeout

/-- Only the last event of the script matters. -/
theorem Headway.of_latest_eq {script script' rest : List TimedSteps} {timeout time : Nat}
    {stopped : Bool} (h : Headway script timeout time stopped rest)
    (hl : latest script = latest script') : Headway script' timeout time stopped rest :=
  ⟨fun hs => hl ▸ h.pending hs, fun hs => hl ▸ h.resolved hs⟩

/-! ## Sends and ticks -/

/-- A send that is pending is answered later, and given up at the limit. -/
theorem time_expire_le (p : Pipeline) {stop : Option Nat} {now limit : Nat} (hl : now ≤ limit)
    (hstop : answerBy stop now = none) :
    now ≤ (expire p stop limit).time ∧ (expire p stop limit).time ≤ limit := by
  unfold expire
  split
  next t ht =>
    obtain ⟨hsome, hle⟩ := answerBy_eq_some.1 ht
    have hlt := answerBy_eq_none.1 hstop t hsome
    exact ⟨Nat.le_of_lt hlt, hle⟩
  next => exact ⟨hl, Nat.le_refl _⟩

/-- A send that is awaited with the shutdown future gets as far with the script as it takes. -/
theorem headway_await (p : Pipeline) {stop : Option Nat} (timeout : Nat) {now : Nat}
    {script : List TimedSteps} (hstop : answerBy stop now = none) (hn : now ≤ latest script) :
    Headway script timeout (await p stop timeout now script).time
      (await p stop timeout now script).stopped (await p stop timeout now script).script := by
  fun_induction await p stop timeout now script with
  | case1 p now script polled hp =>
    -- the future resolves at this very poll, which is therefore at the time of the last event
    have hlast : latest script = now := Nat.le_antisymm (latest_le_of_resolved hp) hn
    have hbounds := time_expire_le polled.pipeline (Nat.le_add_right now timeout) hstop
    refine ⟨fun h => ?_, fun _ => ⟨script_expire .., ?_⟩⟩
    · simp at h
    · rw [hlast]; exact hbounds
  | case2 p now script polled e rest hp t ht =>
    -- the answer comes before the next event
    refine ⟨fun _ => ⟨e, rest, rfl, (answerBy_eq_some.1 ht).2, latest_of_pending hp⟩, fun h => ?_⟩
    cases h
  | case3 p now script polled e rest hp hnone ih =>
    exact (ih hnone (le_latest e rest)).of_latest_eq (latest_of_pending hp)

namespace Deadline

/-- So does any send of a regular tick, whether it is answered at once or awaited. -/
theorem headway_land (p : Pipeline) (stop : Option Nat) (timeout : Nat) {now : Nat}
    {e : TimedSteps} {rest : List TimedSteps} (hn : now ≤ e.time) :
    Headway (e :: rest) timeout ((shutdown (e :: rest)).land p stop timeout now).time
      ((shutdown (e :: rest)).land p stop timeout now).stopped
      ((shutdown (e :: rest)).land p stop timeout now).script := by
  simp only [land]
  split
  next t ht =>
    -- answered at once: the deadline has not been polled
    have hle := (answerBy_eq_some.1 ht).2
    refine ⟨fun _ => ⟨e, rest, rfl, Nat.le_trans hle hn, rfl⟩, fun h => ?_⟩
    cases h
  next hnone => exact headway_await p timeout hnone (Nat.le_trans hn (le_latest e rest))

/-- A send of the final tick is given up after the timeout. -/
theorem time_land_timeout_le (p : Pipeline) (stop : Option Nat) (limit now : Nat) :
    (timeout.land p stop limit now).time ≤ now + limit := by
  show (expire p stop (now + limit)).time ≤ now + limit
  unfold expire
  split
  next t ht => exact (answerBy_eq_some.1 ht).2
  next => exact Nat.le_refl _

end Deadline

namespace Pipeline

/-- A regular tick gets as far as its send does, and nowhere without one. -/
theorem headway_timedTick (p : Pipeline) {now : Nat} {e : TimedSteps} {rest : List TimedSteps}
    (hn : now ≤ e.time) :
    Headway (e :: rest) p.settings.timeout (p.timedTick (.shutdown (e :: rest)) now).time
      (p.timedTick (.shutdown (e :: rest)) now).stopped
      (p.timedTick (.shutdown (e :: rest)) now).script := by
  have hs := settings_eq p.configuration_start
  unfold timedTick
  -- a tick that sends nothing ends at once, before the next event
  split
  next =>
    refine ⟨fun _ => ⟨e, rest, rfl, hn, rfl⟩, fun h => ?_⟩
    cases h
  next impressions p' _ heq =>
    rw [heq] at hs
    rw [← show p'.settings = p.settings from hs]
    exact Deadline.headway_land _ _ _ hn

/-- A tick ends when it starts, or when its send ends. -/
theorem time_timedTick_cases (p : Pipeline) (deadline : Deadline) (now : Nat) :
    ((p.timedTick deadline now).time = now ∧ (p.timedTick deadline now).stopped = false) ∨
    ∃ s ∈ (p.timedTick deadline now).history.sends,
      s.start = now ∧ s.finish = (p.timedTick deadline now).time := by
  unfold timedTick
  split
  next => exact .inl ⟨rfl, rfl⟩
  next impressions p' _ _ =>
    -- the send is the last thing that its tick records
    exact .inr ⟨_, List.mem_append_right _ (List.mem_append_right _ (List.mem_singleton_self _)),
      rfl, rfl⟩

/-- The final tick takes no longer than the timeout. -/
theorem time_timedTick_timeout_le (p : Pipeline) (now : Nat) :
    (p.timedTick .timeout now).time ≤ now + p.settings.timeout := by
  have hs := settings_eq p.configuration_start
  unfold timedTick
  -- without a send it takes no time at all
  split
  next => exact Nat.le_add_right _ _
  next impressions p' _ heq =>
    rw [heq] at hs
    rw [← show p'.settings = p.settings from hs]
    exact Deadline.time_land_timeout_le ..

/-- A tick right after a poll that left `e` for later. -/
theorem headway_polled {p : Pipeline} {now : Nat} {script rest : List TimedSteps} {e : TimedSteps}
    {t : TickResult} (hp : (p.pollShutdown now script).script = e :: rest)
    (ht : t = (p.pollShutdown now script).pipeline.timedTick (.shutdown (e :: rest)) now) :
    Headway script p.settings.timeout t.time t.stopped t.script ∧
      t.pipeline.settings = p.settings := by
  subst ht
  have hset := settings_eq (p.configuration_pollShutdown now script)
  have hway : Headway (e :: rest) _ _ _ _ :=
    (p.pollShutdown now script).pipeline.headway_timedTick (Nat.le_of_lt (lt_of_pollShutdown hp))
  rw [hset] at hway
  exact ⟨hway.of_latest_eq (latest_of_pending hp),
    (settings_eq (configuration_timedTick ..)).trans hset⟩

end Pipeline

/-! ## Runs -/

open Pipeline

namespace Run

/-- The run ends within bounds after the time at which its shutdown future resolves. -/
structure Timely (r : Run) (resolved timeout : Nat) : Prop where
  resolved_le : resolved ≤ r.elapsed
  /-- One timeout for a send under way, and one for the final tick. -/
  bounded : r.elapsed ≤ resolved + 2 * timeout
  /-- Without a send under way there is only the final tick. -/
  idle : (∀ s ∈ r.history.sends, ¬s.inFlightAt resolved) → r.elapsed ≤ resolved + timeout

/-- What was before a run does not change when it ends. -/
theorem Timely.after {r : Run} {resolved timeout : Nat} (h : r.Timely resolved timeout)
    (before : History) : (r.after before).Timely resolved timeout where
  resolved_le := h.resolved_le
  bounded := h.bounded
  idle := fun hs => h.idle fun s hmem => hs s (List.mem_append_right _ hmem)

/-- The final tick starts where the loop ends, and takes no longer than the timeout. -/
theorem elapsed_final (p : Pipeline) (now : Nat) :
    now ≤ (final p now).elapsed ∧ (final p now).elapsed ≤ now + p.settings.timeout :=
  ⟨p.le_time_timedTick .timeout now, p.time_timedTick_timeout_le now⟩

/-- A loop ends no earlier than it starts. -/
theorem le_elapsed_loop (p : Pipeline) (now due : Nat) (script : List TimedSteps) :
    now ≤ (loop p now due script).elapsed := by
  -- the four ways in which a turn goes on: it ends, its send is stopped, its tick ends, or it waits
  fun_induction loop p now due script with
  | case1 p now due script polled hp => exact (elapsed_final polled.pipeline now).1
  | case2 p now due script polled e rest hp hdue t hstop =>
    have ht : now ≤ t.time := polled.pipeline.le_time_timedTick _ now
    rw [elapsed_after]
    exact Nat.le_trans ht (elapsed_final t.pipeline t.time).1
  | case3 p now due script polled e rest hp hdue t hgo ih =>
    have ht : now ≤ t.time := polled.pipeline.le_time_timedTick _ now
    exact Nat.le_trans ht ih
  | case4 p now due script polled e rest hp hdue ih =>
    have hlt := lt_of_pollShutdown hp
    exact Nat.le_trans (by omega) ih

/-- From any turn on, as long as the last event is still to come, the loop ends within the
bounds. -/
theorem timely_loop (p : Pipeline) {now : Nat} (due : Nat) {script : List TimedSteps}
    (hn : now ≤ latest script) :
    (loop p now due script).Timely (latest script) p.settings.timeout := by
  -- the clock never runs past the last event as long as that is still to come
  fun_induction loop p now due script with
  | case1 p now due script polled hp =>
    have hlast : latest script = now := Nat.le_antisymm (latest_le_of_resolved hp) hn
    obtain ⟨hge, hle⟩ := elapsed_final polled.pipeline now
    rw [settings_eq (p.configuration_pollShutdown now script)] at hle
    refine Timely.after ⟨?_, ?_, fun _ => ?_⟩ _ <;> omega
  | case2 p now due script polled e rest hp hdue t hstop =>
    have hlt := lt_of_pollShutdown hp
    have hlast := latest_of_pending hp
    have hhead := le_latest e rest
    obtain ⟨hway, hset⟩ := headway_polled (t := t) hp rfl
    obtain ⟨-, hge, hle⟩ := hway.resolved hstop
    -- one timeout for the send of this tick, and one for the final tick
    obtain ⟨hge', hle'⟩ := elapsed_final t.pipeline t.time
    rw [hset] at hle'
    refine ⟨?_, ?_, fun hidle => ?_⟩ <;> rw [elapsed_after]
    · omega
    · omega
    · rcases polled.pipeline.time_timedTick_cases (.shutdown (e :: rest)) now with ⟨-, hgo⟩ |
        ⟨s, hmem, hstart, hfinish⟩
      · exact absurd hstop (by simp [t, hgo])
      · -- the send of this tick is not under way, so it ended with the last event
        have hnot := hidle s (by simp [t, hmem])
        have hend : s.finish = t.time := hfinish
        unfold Send.inFlightAt at hnot
        omega
  | case3 p now due script polled e rest hp hdue t hgo ih =>
    obtain ⟨hway, hset⟩ := headway_polled (t := t) hp rfl
    obtain ⟨d, tail, hd, hle, hl⟩ := hway.pending (by simpa using hgo)
    -- the tick ended before the next event, so the last event is still to come
    have hhead : d.time ≤ latest t.script := hd ▸ le_latest d tail
    have h := ih (by omega)
    rw [hset, hl] at h
    exact h.after _
  | case4 p now due script polled e rest hp hdue ih =>
    have hset := settings_eq (p.configuration_pollShutdown now script)
    have hhead := le_latest e rest
    have h := ih (by omega)
    rw [show polled.pipeline.settings = p.settings from hset, latest_of_pending hp] at h
    exact h.after _

end Run

/-- Every run ends between the last event of its script and two timeouts later, and within one
timeout if no send is under way at the last event. -/
theorem Pipeline.timely_run (p : Pipeline) (script : List TimedSteps) :
    (p.run script).Timely (latest script) p.settings.timeout :=
  (Run.timely_loop p p.settings.period (Nat.zero_le _)).after _

end ClientMetrics
