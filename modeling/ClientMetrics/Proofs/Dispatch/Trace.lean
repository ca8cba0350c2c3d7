import ClientMetrics.Dispatch.Run

/-!
# The moments of a run

A run goes from moment to moment: the shutdown future is polled, an event of its script takes place,
a tick starts, a send is settled. Each moment takes the pipeline as the one before has left it, and
the history has an entry for all that it answers and does. So the history of a run tells which
pipeline served an event, and how the run went on from there.

* `Moment` — what can happen at one moment;
* `Trace` — moments one after the other, with what the history says of them;
* `trace_run` — every run is such a sequence, from the pipeline it starts with to the one it leaves;
* `Trace.served` — an event was served by the pipeline that everything before it had left.
-/

namespace ClientMetrics

/-- What a run is in the middle of. -/
inductive Phase where
  /-- No tick is under way. -/
  | idle
  /-- A batch of these impressions was handed to this transport, and it has not answered yet. -/
  | sending (impressions : List Impression) (transport : Transport)

/-- A pipeline in the course of a run. -/
structure Snapshot where
  pipeline : Pipeline
  phase : Phase

/-- What can happen at one moment, and what the history says of it. -/
inductive Moment : Snapshot → List (Nat × RunEntry) → Snapshot → Prop where
  /-- The loop notes how far it is. -/
  | noted (p : Pipeline) (time : Nat) (note : Log.Event) :
    Moment ⟨p, .idle⟩ [(time, .happened (.noted note))] ⟨p, .idle⟩
  | polled (p : Pipeline) (phase : Phase) (time : Nat) (ready : Bool) :
    Moment ⟨p, phase⟩ [(time, .polled ready)] ⟨p, phase⟩
  /-- The steps of an event are served, and their answers are those of the pipeline as it is. -/
  | event (p : Pipeline) (phase : Phase) (time : Nat) (e : TimedSteps) :
    Moment ⟨p, phase⟩
      ((time, .event e (p.serve e.steps).1) :: (History.moment time (p.serve e.steps).2.2).entries)
      ⟨(p.serve e.steps).2.1, phase⟩
  /-- A tick ends as it starts. -/
  | done {p p' : Pipeline} {outcome : Outcome} {hs : List Happening}
      (start : p.start = (.done outcome, p', hs)) (time : Nat) (last : Bool) :
    Moment ⟨p, .idle⟩ ((time, .tick last) :: (History.moment time hs).entries) ⟨p', .idle⟩
  /-- A tick starts and hands its batch over. -/
  | handed {p p' : Pipeline} {is : List Impression} {hs : List Happening}
      (start : p.start = (.sending is, p', hs)) (time : Nat) (last : Bool) :
    Moment ⟨p, .idle⟩
      ((time, .tick last) :: (History.moment time (hs ++ (p'.handOver is).2)).entries)
      ⟨(p'.handOver is).1, .sending is p'.transport⟩
  /-- The transport has answered, or the send is given up. -/
  | settled (p : Pipeline) (is : List Impression) (t : Transport)
      {failure : Option TransportError} (h : failure = t.failure ∨ failure = some .timedOut)
      (time : Nat) :
    Moment ⟨p, .sending is t⟩ (History.moment time (p.settle is failure).2.2).entries
      ⟨(p.settle is failure).2.1, .idle⟩

/-- Moments one after the other. -/
inductive Trace : Snapshot → List (Nat × RunEntry) → Snapshot → Prop where
  | nil (s : Snapshot) : Trace s [] s
  | cons {s s' s'' : Snapshot} {entries entries' : List (Nat × RunEntry)}
      (first : Moment s entries s') (rest : Trace s' entries' s'') :
    Trace s (entries ++ entries') s''

namespace Trace

variable {s s' s'' : Snapshot} {entries entries' : List (Nat × RunEntry)}

theorem single (h : Moment s entries s') : Trace s entries s' :=
  List.append_nil entries ▸ cons h (nil s')

/-- What goes on from where a trace ends is one trace with it. -/
theorem trans (first : Trace s entries s') (second : Trace s' entries' s'') :
    Trace s (entries ++ entries') s'' := by
  induction first with
  | nil => exact second
  | cons first _ ih =>
    rw [List.append_assoc]
    exact cons first (ih second)

end Trace

/-! ## What an event leaves in the history -/

/-- No entry of a happening is that of an event. -/
theorem event_not_mem_moment {time time' : Nat} {e : TimedSteps} {replies : List Reply}
    (hs : List Happening) : (time, .event e replies) ∉ (History.moment time' hs).entries := by
  simp [History.moment]

/-- Only an event leaves the entry of one, and that comes first. -/
theorem Moment.eq_event {s s' : Snapshot} {entries before after : List (Nat × RunEntry)}
    {time : Nat} {e : TimedSteps} {replies : List Reply} (h : Moment s entries s')
    (hentries : entries = before ++ (time, .event e replies) :: after) :
    before = [] ∧ replies = (s.pipeline.serve e.steps).1 ∧
      after = (History.moment time (s.pipeline.serve e.steps).2.2).entries ∧
      s' = ⟨(s.pipeline.serve e.steps).2.1, s.phase⟩ := by
  have hmem : (time, .event e replies) ∈ entries := by simp [hentries]
  cases h with
  | noted p time' note => simp at hmem
  | polled p phase time' ready => simp at hmem
  | event p phase time' e' =>
    cases before with
    | nil =>
      obtain ⟨hhead, rfl⟩ := List.cons.inj hentries
      cases hhead
      exact ⟨rfl, rfl, rfl, rfl⟩
    | cons x before =>
      -- what follows the entry of an event are the happenings of its steps
      have htail := (List.cons.inj hentries).2
      have hinside : (time, .event e replies) ∈
          (History.moment time' (p.serve e'.steps).2.2).entries := by
        rw [htail]
        exact List.mem_append_right _ List.mem_cons_self
      exact absurd hinside (event_not_mem_moment _)
  | done start time' last => simp [History.moment] at hmem
  | handed start time' last => simp [History.moment] at hmem
  | settled p is t hfailure time' => exact absurd hmem (event_not_mem_moment _)

/-- An event was served by the pipeline that everything before it had left, and the run went on with
the one that the event left. -/
theorem Trace.served {s s' : Snapshot} {entries before after : List (Nat × RunEntry)} {time : Nat}
    {e : TimedSteps} {replies : List Reply} (h : Trace s entries s')
    (hentries : entries = before ++ (time, .event e replies) :: after) :
    ∃ (p : Pipeline) (phase : Phase) (rest : List (Nat × RunEntry)),
      Trace s before ⟨p, phase⟩ ∧ replies = (p.serve e.steps).1 ∧
      after = (History.moment time (p.serve e.steps).2.2).entries ++ rest ∧
      Trace ⟨(p.serve e.steps).2.1, phase⟩ rest s' := by
  induction h generalizing before with
  | nil s => simp at hentries
  | @cons s s' s'' entries entries' first rest ih =>
    rcases List.append_eq_append_iff.1 hentries with ⟨more, hbefore, hrest⟩ | ⟨more, hfirst, hrest⟩
    · -- the event comes later
      obtain ⟨p, phase, rest', hto, hreplies, hafter, hfrom⟩ := ih hrest
      exact ⟨p, phase, rest', hbefore ▸ cons first hto, hreplies, hafter, hfrom⟩
    · cases more with
      | nil =>
        -- the event comes right after this moment
        rw [List.nil_append] at hrest
        rw [List.append_nil] at hfirst
        have hlater : entries' = [] ++ (time, .event e replies) :: after := hrest.symm
        obtain ⟨p, phase, rest', hto, hreplies, hafter, hfrom⟩ := ih hlater
        exact ⟨p, phase, rest', hfirst ▸ List.append_nil entries ▸ cons first hto, hreplies,
          hafter, hfrom⟩
      | cons x more =>
        -- this is the moment of the event
        obtain ⟨rfl, hafter⟩ := List.cons.inj hrest
        obtain ⟨rfl, hreplies, hmore, rfl⟩ := first.eq_event hfirst
        exact ⟨s.pipeline, s.phase, entries', nil s, hreplies, hmore ▸ hafter, rest⟩

/-! ## Every run is a trace -/

/-- A poll of the shutdown future serves the events that are due, whatever is under way. -/
theorem trace_pollShutdown (p : Pipeline) (phase : Phase) (now : Nat) (script : List TimedSteps) :
    Trace ⟨p, phase⟩ (p.pollShutdown now script).history.entries
      ⟨(p.pollShutdown now script).pipeline, phase⟩ := by
  induction script generalizing p with
  | nil => exact .single (.polled p phase now true)
  | cons e script ih =>
    unfold Pipeline.pollShutdown
    -- an event that is due is one moment, and the poll goes on to the next
    split
    · have hrest := ih (p.serve e.steps).2.1
      simp only [History.entries_append, History.entries_single]
      exact .cons (.event p phase now e) hrest
    · exact .single (.polled p phase now false)

/-- A send that is awaited is a row of polls, with the events that they serve. -/
theorem trace_await (p : Pipeline) (phase : Phase) (stop : Option Nat) (timeout now : Nat)
    (script : List TimedSteps) :
    Trace ⟨p, phase⟩ (await p stop timeout now script).history.entries
      ⟨(await p stop timeout now script).pipeline, phase⟩ := by
  -- the future may be ready, the answer may come first, or the next event does
  fun_induction await p stop timeout now script with
  | case1 p now script polled hp =>
    have h := trace_pollShutdown p phase now script
    simpa using h
  | case2 p now script polled e rest hp t ht => exact trace_pollShutdown p phase now script
  | case3 p now script polled e rest hp hnone ih =>
    exact (trace_pollShutdown p phase now script).trans ih

namespace Pipeline

/-- While a send is under way nothing but events and polls takes place. -/
theorem trace_flight (p : Pipeline) (phase : Phase) (is : List Impression) (d : Deadline)
    (now : Nat) :
    Trace ⟨(p.handOver is).1, phase⟩ (p.flight is d now).history.entries
      ⟨(p.flight is d now).pipeline, phase⟩ := by
  unfold flight Deadline.land
  -- the final tick polls no future; a regular one polls it only if the answer does not come at once
  split
  next => simpa using Trace.nil _
  next script =>
    split
    next => exact .nil _
    next => exact trace_await ..

/-- A tick starts, and if it sends something, that is settled in the end. -/
theorem trace_timedTick (p : Pipeline) (d : Deadline) (now : Nat) :
    Trace ⟨p, .idle⟩ (p.timedTick d now).history.entries ⟨(p.timedTick d now).pipeline, .idle⟩ := by
  unfold timedTick
  split
  next outcome p' hs hstart => exact .single (.done hstart now d.isLast)
  next is p' hs hstart =>
    have hway := p'.trace_flight (.sending is p'.transport) is d now
    -- the transport answers with its failure, or it is given up
    have hend : (p'.flight is d now).failure p'.transport = p'.transport.failure ∨
        (p'.flight is d now).failure p'.transport = some .timedOut := by
      unfold Landing.failure
      split
      · exact .inl rfl
      · exact .inr rfl
    have h := (Trace.cons (.handed hstart now d.isLast) hway).trans
      (.single (.settled (p'.flight is d now).pipeline is p'.transport hend
        (p'.flight is d now).time))
    simpa [timedSend, TickResult.after, History.moment] using h

/-- A poll and the tick right after it. -/
theorem trace_polled (p : Pipeline) (now : Nat) (script : List TimedSteps) (d : Deadline) :
    let polled := p.pollShutdown now script
    let t := polled.pipeline.timedTick d now
    Trace ⟨p, .idle⟩ (polled.history ++ t.history).entries ⟨t.pipeline, .idle⟩ :=
  (trace_pollShutdown p .idle now script).trans (trace_timedTick _ d now)

end Pipeline

namespace Run

/-- The final tick stands between two notes. -/
theorem trace_final (p : Pipeline) (now : Nat) :
    Trace ⟨p, .idle⟩ (final p now).history.entries ⟨(final p now).pipeline, .idle⟩ := by
  have htick := p.trace_timedTick .timeout now
  exact ((Trace.single (.noted p now _)).trans htick).trans (.single (.noted _ _ _))

/-- The loop goes on from where the moments before have left the pipeline. -/
theorem trace_loop (p : Pipeline) (now due : Nat) (script : List TimedSteps) :
    Trace ⟨p, .idle⟩ (loop p now due script).history.entries
      ⟨(loop p now due script).pipeline, .idle⟩ := by
  -- each turn is a poll, and a tick if one is due
  fun_induction loop p now due script with
  | case1 p now due script polled hp =>
    exact (trace_pollShutdown p .idle now script).trans (trace_final _ now)
  | case2 p now due script polled e rest hp hdue t hstop =>
    exact (p.trace_polled now script (.shutdown (e :: rest))).trans (trace_final _ _)
  | case3 p now due script polled e rest hp hdue t hgo ih =>
    exact (p.trace_polled now script (.shutdown (e :: rest))).trans ih
  | case4 p now due script polled e rest hp hdue ih =>
    exact (trace_pollShutdown p .idle now script).trans ih

end Run

/-- Every run is a sequence of moments, from the pipeline it starts with to the one it leaves. -/
theorem Pipeline.trace_run (p : Pipeline) (script : List TimedSteps) :
    Trace ⟨p, .idle⟩ (p.run script).history.entries ⟨(p.run script).pipeline, .idle⟩ :=
  (Trace.single (.noted p 0 _)).trans (Run.trace_loop p 0 p.settings.period script)

end ClientMetrics
