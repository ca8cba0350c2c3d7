import ClientMetrics.Proofs.Dispatch.Timing
import ClientMetrics.Proofs.Dispatch.Trace

/-!
# The shutdown future in a run

The shutdown future is polled by the loop and, while a send is pending, by the deadline of the send.
Between them the two drive it through its script exactly once.

* `dueTimes` — the times at which the events of a script are due, one after the other;
* `events_pollShutdown` — a poll takes the events of the script in order, each at the time at which
  it is due;
* `Steady` — up to the poll that finds the future resolved there are only regular ticks, polls
  that are not ready and events;
* `Follows` — a part of a run that works through a part of the script like that;
* `Run.Driven` — the poll that finds the future resolved is the last, and the final tick alone comes
  after it. Each event is served by the pipeline as everything before it has left it (`Trace`);
* `driven_run` — so it is in every run.
-/

namespace ClientMetrics

/-- The times at which events are due that wait for each other, the first one no earlier than
`now`. -/
def dueTimes (now : Nat) : List TimedSteps → List (Nat × TimedSteps)
  | [] => []
  | e :: script => (max now e.time, e) :: dueTimes (max now e.time) script

/-- Events that come in order are due at their own times. -/
theorem dueTimes_of_sorted {now : Nat} {script : List TimedSteps}
    (hsorted : script.Pairwise fun d e => d.time ≤ e.time) (hn : ∀ e ∈ script, now ≤ e.time) :
    dueTimes now script = script.map fun e => (e.time, e) := by
  induction script generalizing now with
  | nil => rfl
  | cons e script ih =>
    obtain ⟨hhead, htail⟩ := List.pairwise_cons.1 hsorted
    have he : max now e.time = e.time := Nat.max_eq_right (hn e List.mem_cons_self)
    rw [List.map_cons, ← ih htail hhead, dueTimes, he]

/-- Waiting for the next event does not put it off. -/
theorem dueTimes_of_le {now time : Nat} {e : TimedSteps} {script : List TimedSteps}
    (hn : now ≤ e.time) (ht : time ≤ e.time) :
    dueTimes time (e :: script) = dueTimes now (e :: script) := by
  simp only [dueTimes, Nat.max_eq_right hn, Nat.max_eq_right ht]

namespace RunEntry

/-- The event, if one took place. -/
def event? : RunEntry → Option TimedSteps
  | event e _ => some e
  | _ => none

/-- Something that happened within a step or a tick. -/
def isHappening : RunEntry → Bool
  | happened _ => true
  | _ => false

end RunEntry

namespace History

/-- The events of a history, each with the time at which it took place. -/
def events (h : History) : List (Nat × TimedSteps) :=
  h.entries.filterMap fun x => x.2.event?.map (x.1, ·)

/-- The ticks, polls and events of a history. -/
def control (h : History) : List (Nat × RunEntry) := h.entries.filter fun x => !x.2.isHappening

@[simp] theorem events_append (h₁ h₂ : History) : (h₁ ++ h₂).events = h₁.events ++ h₂.events :=
  List.filterMap_append

@[simp] theorem control_append (h₁ h₂ : History) : (h₁ ++ h₂).control = h₁.control ++ h₂.control :=
  List.filter_append ..

/-- Happenings are no events of the script. -/
@[simp] theorem events_moment (time : Nat) (hs : List Happening) :
    (moment time hs).events = [] := by
  induction hs with
  | nil => rfl
  | cons x hs ih => exact ih

@[simp] theorem control_moment (time : Nat) (hs : List Happening) :
    (moment time hs).control = [] := by
  induction hs with
  | nil => rfl
  | cons x hs ih => exact ih

/-- A history without entries has no events. -/
@[simp] theorem events_empty : ({} : History).events = [] := rfl

@[simp] theorem control_empty : ({} : History).control = [] := rfl

/-- Sends are kept beside the entries, and add no event to them. -/
@[simp] theorem events_ofSends (sends : List Send) : ({ sends } : History).events = [] := rfl

@[simp] theorem control_ofSends (sends : List Send) : ({ sends } : History).control = [] := rfl

/-- The start of a tick is no event of the script. -/
@[simp] theorem events_tick (time : Nat) (last : Bool) :
    (single time (.tick last)).events = [] :=
  rfl

@[simp] theorem control_tick (time : Nat) (last : Bool) :
    (single time (.tick last)).control = [(time, .tick last)] := rfl

/-- A poll of the shutdown future is no event of the script itself. -/
@[simp] theorem events_polled (time : Nat) (ready : Bool) :
    (single time (.polled ready)).events = [] := rfl

@[simp] theorem control_polled (time : Nat) (ready : Bool) :
    (single time (.polled ready)).control = [(time, .polled ready)] := rfl

/-- An event is recorded with its time. -/
@[simp] theorem events_event (time : Nat) (e : TimedSteps) (replies : List Reply) :
    (single time (.event e replies)).events = [(time, e)] := rfl

@[simp] theorem control_event (time : Nat) (e : TimedSteps) (replies : List Reply) :
    (single time (.event e replies)).control = [(time, .event e replies)] := rfl

end History

/-! ## Parts of a run -/

/-- An entry that may stand before the shutdown future resolves: a regular tick, a poll that is not
ready, or an event with an answer to each of its steps. -/
def Underway (resolved : Nat) : Nat × RunEntry → Prop
  | (time, .tick last) => last = false ∧ time < resolved
  | (_, .polled ready) => ready = false
  | (_, .event e replies) => replies.length = e.steps.length
  | (_, .happened _) => True

/-- The entries of a part of a run, at the end of which the shutdown future may resolve. -/
def Steady (resolved : Nat) (stopped : Bool) (entries : List (Nat × RunEntry)) : Prop :=
  ∃ before, (∀ x ∈ before, Underway resolved x) ∧
    entries = before ++ if stopped then [(resolved, .polled true)] else []

/-- A part of a run works through a script from `now` on, and at `time` there is `rest` left. -/
structure Follows (script : List TimedSteps) (now : Nat) (h : History) (rest : List TimedSteps)
    (time : Nat) : Prop where
  events : h.events ++ dueTimes time rest = dueTimes now script
  steady : Steady (latest script) rest.isEmpty h.control

/-- What may stand before the future resolves may be the first of it. -/
theorem Steady.cons {resolved time : Nat} {stopped : Bool} {entry : RunEntry}
    {entries : List (Nat × RunEntry)} (h : Steady resolved stopped entries)
    (hentry : Underway resolved (time, entry)) :
    Steady resolved stopped ((time, entry) :: entries) := by
  obtain ⟨before, hbefore, rfl⟩ := h
  refine ⟨(time, entry) :: before, fun x hx => ?_, rfl⟩
  rcases List.mem_cons.1 hx with rfl | hx
  · exact hentry
  · exact hbefore x hx

/-- A part with nothing but ticks and polls that are not ready may come before. -/
theorem Steady.append {resolved : Nat} {stopped : Bool} {entries entries' : List (Nat × RunEntry)}
    (h : Steady resolved false entries) (h' : Steady resolved stopped entries') :
    Steady resolved stopped (entries ++ entries') := by
  obtain ⟨before, hbefore, rfl⟩ := h
  obtain ⟨before', hbefore', rfl⟩ := h'
  refine ⟨before ++ before', fun x hx => ?_, by simp⟩
  rcases List.mem_append.1 hx with hx | hx
  · exact hbefore x hx
  · exact hbefore' x hx

/-- One part after another, with time to wait in between. -/
theorem Follows.trans {script rest rest' : List TimedSteps} {now time now' time' : Nat}
    {e : TimedSteps} {h h' : History} (first : Follows script now h (e :: rest) time)
    (hlast : latest (e :: rest) = latest script) (ht : time ≤ e.time) (hn : now' ≤ e.time)
    (second : Follows (e :: rest) now' h' rest' time') :
    Follows script now (h ++ h') rest' time' where
  events := by
    rw [← first.events, ← dueTimes_of_le ht hn, ← second.events, History.events_append,
      List.append_assoc]
  steady := by
    rw [History.control_append]
    exact first.steady.append (hlast ▸ second.steady)

/-! ## Polls and sends -/

/-- A poll takes the events that are due by now from the front of the script, each at the time at
which it is due. -/
theorem events_pollShutdown (p : Pipeline) (now : Nat) (script : List TimedSteps) :
    (p.pollShutdown now script).history.events ++
      dueTimes now (p.pollShutdown now script).script = dueTimes now script := by
  induction script generalizing p with
  | nil => rfl
  | cons e script ih =>
    unfold Pipeline.pollShutdown
    split
    next hle =>
      -- an event that is overdue takes place now
      have he : max now e.time = now := Nat.max_eq_left hle
      simp only [History.events_append, History.events_event, History.events_moment,
        List.append_nil, List.cons_append, List.nil_append, dueTimes, he]
      rw [ih]
    next => rfl

/-- Every step is answered. -/
theorem Pipeline.length_serve (p : Pipeline) (steps : List Step) :
    (p.serve steps).1.length = steps.length := by
  induction steps generalizing p with
  | nil => rfl
  | cons s steps ih => exact congrArg (· + 1) (ih _)

/-- A poll is ready exactly if it leaves no event. Then it is the moment at which the future
resolves. -/
theorem steady_pollShutdown (p : Pipeline) {now resolved : Nat} {script : List TimedSteps}
    (h : (p.pollShutdown now script).script = [] → resolved = now) :
    Steady resolved (p.pollShutdown now script).script.isEmpty
      (p.pollShutdown now script).history.control := by
  induction script generalizing p with
  | nil => exact ⟨[], by simp, by rw [h rfl]; rfl⟩
  | cons e script ih =>
    unfold Pipeline.pollShutdown at h ⊢
    split
    next hle =>
      -- the event takes place now, and the poll goes on
      rw [if_pos hle] at h
      simp only [History.control_append, History.control_event, History.control_moment,
        List.append_nil, List.singleton_append]
      exact (ih _ h).cons (p.length_serve e.steps)
    next => exact ⟨[(now, .polled false)], by simp [Underway], rfl⟩

/-- A poll that does not come after the last event works through the script. -/
theorem follows_pollShutdown (p : Pipeline) {now : Nat} {script : List TimedSteps}
    (hn : now ≤ latest script) :
    Follows script now (p.pollShutdown now script).history (p.pollShutdown now script).script
      now where
  events := events_pollShutdown p now script
  steady := steady_pollShutdown p fun h => Nat.le_antisymm (latest_le_of_resolved h) hn

/-- So does a pending send, up to the event at which it is answered or the end of the script. -/
theorem follows_await (p : Pipeline) {stop : Option Nat} (timeout : Nat) {now : Nat}
    {script : List TimedSteps} (hstop : answerBy stop now = none) (hn : now ≤ latest script) :
    Follows script now (await p stop timeout now script).history
      (await p stop timeout now script).script (await p stop timeout now script).time := by
  fun_induction await p stop timeout now script with
  | case1 p now script polled hp =>
    have h := follows_pollShutdown p hn
    rw [hp] at h
    -- the script ends with this poll, and waiting for the timeout polls nothing more
    refine ⟨?_, ?_⟩
    · simpa [dueTimes] using h.events
    · simpa using h.steady
  | case2 p now script polled e rest hp t ht =>
    have h := follows_pollShutdown p hn
    rw [hp] at h
    -- the answer comes after this poll and no later than the next event
    refine ⟨?_, h.steady⟩
    rw [← h.events, dueTimes_of_le (Nat.le_of_lt (lt_of_pollShutdown hp)) (answerBy_eq_some.1 ht).2]
  | case3 p now script polled e rest hp hnone ih =>
    have h := follows_pollShutdown p hn
    rw [hp] at h
    -- the next poll is at the time of the event that this one left for later
    exact h.trans (latest_of_pending hp) (Nat.le_of_lt (lt_of_pollShutdown hp)) (Nat.le_refl _)
      (ih hnone (le_latest e rest))

namespace Deadline

/-- A send works through the script from its start on, or not at all if it is answered at once. -/
theorem follows_land (p : Pipeline) (stop : Option Nat) (timeout : Nat) {now : Nat}
    {e : TimedSteps} {rest : List TimedSteps} (hn : now ≤ e.time) :
    Follows (e :: rest) now ((shutdown (e :: rest)).land p stop timeout now).history
      ((shutdown (e :: rest)).land p stop timeout now).script
      ((shutdown (e :: rest)).land p stop timeout now).time := by
  simp only [land]
  split
  next t ht =>
    refine ⟨?_, ⟨[], by simp, rfl⟩⟩
    exact dueTimes_of_le hn (Nat.le_trans (answerBy_eq_some.1 ht).2 hn)
  next hnone => exact follows_await p timeout hnone (Nat.le_trans hn (le_latest e rest))

end Deadline

/-! ## Ticks and runs -/

namespace Pipeline

/-- So does the send of a tick. -/
theorem follows_flight (p : Pipeline) (is : List Impression) {now : Nat} {e : TimedSteps}
    {rest : List TimedSteps} (hn : now ≤ e.time) :
    Follows (e :: rest) now (p.flight is (.shutdown (e :: rest)) now).history
      (p.flight is (.shutdown (e :: rest)) now).script
      (p.flight is (.shutdown (e :: rest)) now).time :=
  Deadline.follows_land _ _ _ hn

/-- So does a whole tick that starts before the next event. It is a regular one, and it starts
before the future resolves. -/
theorem follows_timedTick (p : Pipeline) {now : Nat} {e : TimedSteps} {rest : List TimedSteps}
    (hn : now < e.time) :
    Follows (e :: rest) now (p.timedTick (.shutdown (e :: rest)) now).history
      (p.timedTick (.shutdown (e :: rest)) now).script
      (p.timedTick (.shutdown (e :: rest)) now).time := by
  have hentry : Underway (latest (e :: rest)) (now, .tick false) :=
    ⟨rfl, Nat.lt_of_lt_of_le hn (le_latest e rest)⟩
  unfold timedTick
  split
  next =>
    -- nothing is sent, so the tick is over as soon as it has started
    refine ⟨?_, [(now, .tick false)], by simpa using hentry, ?_⟩
    · simp [Deadline.script]
    · simp [Deadline.script, Deadline.isLast]
  next impressions p' _ heq =>
    have h : Follows (e :: rest) now _ _ _ := p'.follows_flight impressions (Nat.le_of_lt hn)
    refine ⟨?_, ?_⟩
    · simpa [timedSend, TickResult.after] using h.events
    · simpa [timedSend, TickResult.after, Deadline.isLast] using h.steady.cons hentry

/-- A poll that leaves `e` for later, and a tick right after it. -/
theorem follows_polled {p : Pipeline} {now : Nat} {script rest : List TimedSteps} {e : TimedSteps}
    (hn : now ≤ latest script) (hp : (p.pollShutdown now script).script = e :: rest) :
    let polled := p.pollShutdown now script
    let t := polled.pipeline.timedTick (.shutdown (e :: rest)) now
    Follows script now (polled.history ++ t.history) t.script t.time := by
  intro polled t
  have hpoll := follows_pollShutdown p hn
  have hlt := lt_of_pollShutdown hp
  -- the poll leaves `e` for later, so the tick starts before it
  rw [hp] at hpoll
  exact hpoll.trans (latest_of_pending hp) (Nat.le_of_lt hlt) (Nat.le_of_lt hlt)
    (polled.pipeline.follows_timedTick hlt)

/-- The final tick does not poll the shutdown future. -/
theorem control_timedTick_timeout (p : Pipeline) (now : Nat) :
    (p.timedTick .timeout now).history.events = [] ∧
    (p.timedTick .timeout now).history.control = [(now, .tick true)] := by
  unfold timedTick
  split
  next => exact ⟨by simp, by simp [Deadline.isLast]⟩
  next =>
    refine ⟨?_, ?_⟩
    · simp [timedSend, TickResult.after, flight, Deadline.land]
    · simp [timedSend, TickResult.after, flight, Deadline.land, Deadline.isLast]

end Pipeline

namespace Run

/-- The shutdown future of a run that starts with the pipeline `p` works through its script from
`now` on. -/
structure Driven (r : Run) (p : Pipeline) (script : List TimedSteps) (now : Nat) : Prop where
  /-- Every event takes place once, in order, at the time at which it is due. -/
  events : r.history.events = dueTimes now script
  /-- The future resolves at its last event and is not polled again. No regular tick starts then or
  later; there is only the final tick, and the run ends with it. -/
  closes : ∃ before closing,
    r.history.control =
      before ++ [(latest script, .polled true), (closing, .tick true)] ∧
    (∀ x ∈ before, Underway (latest script) x) ∧
    latest script ≤ closing ∧
    (r.elapsed = closing ∨ ∃ s ∈ r.history.sends, s.start = closing ∧ s.finish = r.elapsed)
  /-- The run goes from moment to moment, and each takes the pipeline as the one before has left it.
  So the steps of an event are answered by the pipeline as it is then. -/
  trace : Trace ⟨p, .idle⟩ r.history.entries ⟨r.pipeline, .idle⟩

/-- A run goes on after a part at the end of which its shutdown future has not resolved. -/
theorem Driven.after {r : Run} {p p' : Pipeline} {script rest tail : List TimedSteps}
    {now time now' : Nat} {e : TimedSteps} {h : History} (first : Follows script now h rest time)
    (htrace : Trace ⟨p, .idle⟩ h.entries ⟨p', .idle⟩)
    (hrest : rest = e :: tail) (hlast : latest rest = latest script) (ht : time ≤ e.time)
    (hn : now' ≤ e.time) (hr : r.Driven p' rest now') : (r.after h).Driven p script now where
  events := by
    subst hrest
    rw [← first.events, ← dueTimes_of_le ht hn, ← hr.events, history_after, History.events_append]
  closes := by
    subst hrest
    -- what comes before the end of the rest is preceded by the first part
    obtain ⟨before, hbefore, hcontrol⟩ := first.steady
    obtain ⟨before', closing, hcontrol', hbefore', hclosing, hend⟩ := hr.closes
    refine ⟨before ++ before', closing, ?_, fun x hx => ?_, hlast ▸ hclosing, ?_⟩
    · simp [hcontrol, hcontrol', hlast]
    · rcases List.mem_append.1 hx with hx | hx
      · exact hbefore x hx
      · exact hlast ▸ hbefore' x hx
    · exact hend.imp_right fun ⟨s, hs, h⟩ => ⟨s, List.mem_append_right _ hs, h⟩
  trace := htrace.trans hr.trace

/-- The end of a run after a part at the end of which its shutdown future has resolved. -/
theorem Driven.final {p p' : Pipeline} {script : List TimedSteps} {now time : Nat} {h : History}
    (first : Follows script now h [] time) (htrace : Trace ⟨p, .idle⟩ h.entries ⟨p', .idle⟩)
    (ht : latest script ≤ time) : ((final p' time).after h).Driven p script now where
  events := by
    obtain ⟨hevents, -⟩ := p'.control_timedTick_timeout time
    rw [← first.events]
    simp [Run.final, hevents, dueTimes]
  closes := by
    obtain ⟨-, hcontrol⟩ := p'.control_timedTick_timeout time
    obtain ⟨before, hbefore, hc⟩ := first.steady
    refine ⟨before, time, ?_, hbefore, ht, ?_⟩
    · simp [Run.final, hcontrol, hc]
    · -- the run ends with this tick
      rcases p'.time_timedTick_cases .timeout time with ⟨hnow, -⟩ | ⟨s, hs, hstart, hfinish⟩
      · exact .inl hnow
      · exact .inr ⟨s, by simp [Run.final, hs], hstart, hfinish⟩
  trace := htrace.trans (trace_final p' time)

/-- The loop drives the shutdown future to its end, wherever it finds that it has resolved. The
cases are those of the loop. -/
theorem driven_loop (p : Pipeline) {now : Nat} (due : Nat) {script : List TimedSteps}
    (hn : now ≤ latest script) : (loop p now due script).Driven p script now := by
  fun_induction loop p now due script with
  | case1 p now due script polled hp =>
    -- the loop finds that the future has resolved
    have h := follows_pollShutdown p hn
    rw [hp] at h
    exact Driven.final h (trace_pollShutdown p .idle now script) (latest_le_of_resolved hp)
  | case2 p now due script polled e rest hp hdue t hstop =>
    -- the deadline of a send finds it
    obtain ⟨hway, -⟩ := Pipeline.headway_polled (t := t) hp rfl
    obtain ⟨hrest, hge, -⟩ := hway.resolved hstop
    exact Driven.final (hrest ▸ Pipeline.follows_polled hn hp)
      (Pipeline.trace_polled p now script (.shutdown (e :: rest))) hge
  | case3 p now due script polled e rest hp hdue t hgo ih =>
    obtain ⟨hway, -⟩ := Pipeline.headway_polled (t := t) hp rfl
    obtain ⟨d, tail, hd, hle, hl⟩ := hway.pending (by simpa using hgo)
    -- the next event, `d`, is not in the past when the loop goes on
    have hnow : t.time ≤ latest t.script := Nat.le_trans hle (hd ▸ le_latest d tail)
    exact Driven.after (Pipeline.follows_polled hn hp)
      (Pipeline.trace_polled p now script (.shutdown (e :: rest))) hd hl hle hle (ih hnow)
  | case4 p now due script polled e rest hp hdue ih =>
    -- nothing is due before the next tick or event, and the loop waits for the first of them
    have h := follows_pollShutdown p hn
    rw [hp] at h
    have hlt := lt_of_pollShutdown hp
    have hhead := le_latest e rest
    exact Driven.after h (trace_pollShutdown p .idle now script) rfl (latest_of_pending hp)
      (by omega) (by omega) (ih (by omega))

end Run

/-- Every run drives its shutdown future to its end. Each event is served by the pipeline that all
before it has left, its answers are those of its steps, what they do follows it in the history, and
the run goes on with the pipeline that they leave. If the events of the script come in order, each
of them takes place at its own time. -/
theorem Pipeline.driven_run (p : Pipeline) (script : List TimedSteps) :
    (p.run script).Driven p script 0 ∧
      (∀ before time e replies after,
        (p.run script).history.entries = before ++ (time, .event e replies) :: after →
        ∃ (q : Pipeline) (phase : Phase) (rest : List (Nat × RunEntry)),
          Trace ⟨p, .idle⟩ before ⟨q, phase⟩ ∧ replies = (q.serve e.steps).1 ∧
          after = (History.moment time (q.serve e.steps).2.2).entries ++ rest ∧
          Trace ⟨(q.serve e.steps).2.1, phase⟩ rest ⟨(p.run script).pipeline, .idle⟩) ∧
      ((script.Pairwise fun d e => d.time ≤ e.time) →
        (p.run script).history.events = script.map fun e => (e.time, e)) := by
  have hloop := Run.driven_loop p p.settings.period (Nat.zero_le (latest script))
  have hevents : (p.run script).history.events = dueTimes 0 script := by
    rw [← hloop.events]
    simp [run]
  have htrace := p.trace_run script
  refine ⟨⟨hevents, ?_, htrace⟩, fun _ _ _ _ _ => htrace.served, fun hsorted => ?_⟩
  · -- the note that a run has started is neither a tick nor a poll
    obtain ⟨before, closing, hcontrol, hrest⟩ := hloop.closes
    refine ⟨before, closing, ?_, ?_⟩
    · rw [← hcontrol]
      simp [run]
    · simpa [run, History.moment] using hrest
  · rw [hevents]
    exact dueTimes_of_sorted hsorted fun e _ => Nat.zero_le e.time

end ClientMetrics
