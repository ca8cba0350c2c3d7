import ClientMetrics.Proofs.Dispatch.Conservation
import ClientMetrics.Proofs.Dispatch.Surroundings

/-!
# The ticks of a run

A run is a sequence of ticks, with polls of its shutdown future before and between them.
`Run.ticks` lists them: when each of them starts, what limits its send, and the pipeline that it
finds. What a tick does follows from these (`Tick.result`).

* `Run.Made` — a history that has the starts and the sends of such a list and ends with its last
  tick;
* `made_run` — the history of a run is made of the ticks of the run;
* `Tick.sends_cases`, `Tick.of_mem_sends` — a tick sends nothing and takes no time, or it makes one
  send and ends with it;
* `punctual_ticks` — a tick finds what the events that are due by then have left.
-/

namespace ClientMetrics

/-- A tick of a run. -/
structure Tick where
  start : Nat
  deadline : Deadline
  /-- The pipeline when it starts. -/
  found : Pipeline

namespace Tick

/-- What becomes of it. -/
def result (t : Tick) : TickResult := t.found.timedTick t.deadline t.start

end Tick

/-- The ticks of the loop, one after the other. -/
def Run.ticks (p : Pipeline) (now due : Nat) (script : List TimedSteps) : List Tick :=
  let polled := p.pollShutdown now script
  match _h : polled.script with
  | [] => [⟨now, .timeout, polled.pipeline⟩]
  | e :: rest =>
    if due ≤ now then
      let t : Tick := ⟨now, .shutdown (e :: rest), polled.pipeline⟩
      if t.result.stopped then [t, ⟨t.result.time, .timeout, t.result.pipeline⟩]
      else
        t :: ticks t.result.pipeline t.result.time (nextDue p.settings.period due now)
          t.result.script
    else ticks polled.pipeline (min due e.time) due (e :: rest)
termination_by (latest script - now) + (latest script - due)
decreasing_by
  -- as for the loop itself
  · have hs := (p.pollShutdown now script).pipeline.timedTick_suffix (.shutdown (e :: rest)) now
    have ht := (p.pollShutdown now script).pipeline.le_time_timedTick (.shutdown (e :: rest)) now
    have hd := nextDue_gt p.settings.period_pos ‹due ≤ now›
    have hn := lt_of_pollShutdown _h
    have hl := latest_of_pending _h
    have he := le_latest e rest
    have hr := latest_le_of_suffix hs
    simp only [Deadline.script] at hr
    simp only [Tick.result]
    omega
  · have hn := lt_of_pollShutdown _h
    have hl := latest_of_pending _h
    have he := le_latest e rest
    omega

/-- The ticks of a run from its start. -/
def Pipeline.ticks (p : Pipeline) (script : List TimedSteps) : List Tick :=
  Run.ticks p 0 p.settings.period script

namespace RunEntry

/-- Whether a tick is the last one, if it is a tick. -/
def tick? : RunEntry → Option Bool
  | tick last => some last
  | _ => none

end RunEntry

namespace History

/-- When the ticks of a history start, and whether they are the last ones. -/
def ticks (h : History) : List (Nat × Bool) := h.entries.filterMap fun x => x.2.tick?.map (x.1, ·)

@[simp] theorem ticks_append (h₁ h₂ : History) : (h₁ ++ h₂).ticks = h₁.ticks ++ h₂.ticks :=
  List.filterMap_append

/-- Happenings are no ticks. -/
@[simp] theorem ticks_moment (time : Nat) (hs : List Happening) : (moment time hs).ticks = [] := by
  induction hs with
  | nil => rfl
  | cons x hs ih => exact ih

/-- A history without entries has no ticks. -/
@[simp] theorem ticks_empty : ({} : History).ticks = [] := rfl

/-- Sends are kept beside the entries, and are no ticks themselves. -/
@[simp] theorem ticks_ofSends (sends : List Send) : ({ sends } : History).ticks = [] := rfl

/-- A tick is recorded with its start. -/
@[simp] theorem ticks_tick (time : Nat) (last : Bool) :
    (single time (.tick last)).ticks = [(time, last)] := rfl

/-- A poll of the shutdown future is no tick. -/
@[simp] theorem ticks_polled (time : Nat) (ready : Bool) :
    (single time (.polled ready)).ticks = [] := rfl

@[simp] theorem ticks_event (time : Nat) (e : TimedSteps) (replies : List Reply) :
    (single time (.event e replies)).ticks = [] := rfl

end History

/-! ## No ticks but those of the loop -/

/-- No tick starts while the shutdown future is polled. -/
@[simp] theorem ticks_pollShutdown (p : Pipeline) (now : Nat) (script : List TimedSteps) :
    (p.pollShutdown now script).history.ticks = [] := by
  induction script generalizing p with
  | nil => rfl
  | cons e script ih =>
    unfold Pipeline.pollShutdown
    split
    · simp [ih]
    · rfl

@[simp] theorem sends_pollShutdown (p : Pipeline) (now : Nat) (script : List TimedSteps) :
    (p.pollShutdown now script).history.sends = [] := (waits_pollShutdown p now script).sends

/-- No tick starts while a send is pending. -/
theorem ticks_await (p : Pipeline) (stop : Option Nat) (timeout now : Nat)
    (script : List TimedSteps) : (await p stop timeout now script).history.ticks = [] := by
  fun_induction await p stop timeout now script with
  | case1 p now script polled => simp [polled]
  | case2 p now script => exact ticks_pollShutdown p now script
  | case3 p now script polled e rest hp hnone ih => simp [ih, polled]

namespace Pipeline

/-- No tick starts between the start of a send and its end. -/
theorem ticks_flight (p : Pipeline) (is : List Impression) (d : Deadline) (now : Nat) :
    (p.flight is d now).history.ticks = [] := by
  unfold flight Deadline.land
  split
  · simp
  · split
    · rfl
    · exact ticks_await ..

/-- So a tick is the only one in its history. -/
@[simp] theorem ticks_timedTick (p : Pipeline) (d : Deadline) (now : Nat) :
    (p.timedTick d now).history.ticks = [(now, d.isLast)] := by
  unfold timedTick
  split
  next => simp
  next => simp [timedSend, TickResult.after, ticks_flight]

end Pipeline

/-! ## Single ticks -/

namespace Pipeline

/-- The send that a tick makes of some impressions. -/
def attempt (p : Pipeline) (is : List Impression) (d : Deadline) (now : Nat) : Send where
  start := now
  impressions := is
  batch := .ofImpressions is p.sdk
  late := p.transport.late
  finish := (p.flight is d now).time
  answered := (p.flight is d now).answered
  failure := (p.flight is d now).failure p.transport

/-- A send is recorded once, with what became of it. -/
theorem sends_timedSend_eq (p : Pipeline) (is : List Impression) (d : Deadline) (now : Nat) :
    (p.timedSend is d now).history.sends = [p.attempt is d now] := by
  simp only [timedSend, History.sends_append, History.sends_moment, (waits_flight p is d now).sends,
    List.nil_append]
  rfl

/-- A tick that has something to send records that send and no other. -/
theorem sends_timedTick_of_start {p p' : Pipeline} {is : List Impression} {hs : List Happening}
    (h : p.start = (.sending is, p', hs)) (d : Deadline) (now : Nat) :
    (p.timedTick d now).history.sends = [p'.attempt is d now] := by
  simp [timedTick, h, TickResult.after, sends_timedSend_eq]

end Pipeline

namespace Tick

/-- A tick that asks the gate in vain hands nothing over and leaves everything as it is. -/
theorem result_of_isDisallowed {t : Tick} (h : t.found.gate.isDisallowed = true) :
    t.result.outcome = .consentBlocked ∧ t.result.pipeline = t.found ∧
      batchesOf t.result.history.happenings = [] ∧ t.result.history.sends = [] := by
  unfold result Pipeline.timedTick Pipeline.start
  rw [if_pos h]
  exact ⟨rfl, rfl, rfl, rfl⟩

/-- All that a tick can be: it sends nothing and takes no time, or the gate is open, and it makes
one send and ends with it. -/
theorem sends_cases (t : Tick) :
    (t.result.history.sends = [] ∧ t.result.time = t.start ∧ t.result.stopped = false) ∨
    ∃ s, t.result.history.sends = [s] ∧ s.start = t.start ∧ s.finish = t.result.time ∧
      t.found.gate.isDisallowed = false := by
  by_cases hgate : t.found.gate.isDisallowed = true
  · refine .inl ?_
    unfold result Pipeline.timedTick Pipeline.start
    rw [if_pos hgate]
    exact ⟨rfl, rfl, rfl⟩
  · -- the gate is open, so what is left to decide is whether anything is due
    rcases hstart : t.found.start with ⟨outcome | is, p', hs⟩
    · exact .inl (by simp [result, Pipeline.timedTick, hstart])
    · refine .inr ⟨p'.attempt is t.deadline t.start, Pipeline.sends_timedTick_of_start hstart _ _,
        rfl, ?_, Bool.eq_false_iff.2 hgate⟩
      unfold result Pipeline.timedTick
      rw [hstart]
      rfl

/-- A send starts and ends with its tick, which found the gate open. -/
theorem of_mem_sends {t : Tick} {s : Send} (hs : s ∈ t.result.history.sends) :
    s.start = t.start ∧ s.finish = t.result.time ∧ t.found.gate.isDisallowed = false := by
  rcases t.sends_cases with ⟨hnone, -⟩ | ⟨s', hone, hstart, hfinish, hopen⟩
  · rw [hnone] at hs
    cases hs
  · rw [hone] at hs
    obtain rfl := List.mem_singleton.1 hs
    exact ⟨hstart, hfinish, hopen⟩

/-- A tick does not end before it starts. -/
theorem start_le_time (t : Tick) : t.start ≤ t.result.time :=
  t.found.le_time_timedTick t.deadline t.start

end Tick

/-- A tick that starts no earlier than `now` and finds what the events of the script that are due by
then have left of a pipeline. No other event is due when it starts. -/
structure Tick.Punctual (t : Tick) (p : Pipeline) (now : Nat) (script : List TimedSteps) :
    Prop where
  now_le : now ≤ t.start
  advances : Advances p script t.found t.deadline.script t.start
  next : ∀ e ∈ t.deadline.script.head?, t.start < e.time

/-- A tick that is punctual after a part of a run is so from the start of that part. -/
theorem Tick.Punctual.after {t : Tick} {p p' : Pipeline} {script rest : List TimedSteps}
    {now now' time : Nat} (h : t.Punctual p' now' rest) (first : Advances p script p' rest time)
    (ht : time ≤ now') (hn : now ≤ now') : t.Punctual p now script where
  now_le := Nat.le_trans hn h.now_le
  advances := first.trans h.advances (Nat.le_trans ht h.now_le)
  next := h.next

/-! ## Runs -/

namespace Run

/-- A run with the starts and the sends of these ticks, the last of which ends it. -/
structure Made (r : Run) (ticks : List Tick) : Prop where
  starts : r.history.ticks = ticks.map fun t => (t.start, t.deadline.isLast)
  sends : r.history.sends = ticks.flatMap fun t => t.result.history.sends
  ends : ∃ regular last, ticks = regular ++ [last] ∧ (∀ t ∈ regular, t.deadline.isLast = false) ∧
    last.deadline.isLast = true ∧ r.pipeline = last.result.pipeline ∧ r.elapsed = last.result.time

namespace Made

variable {r : Run} {ticks : List Tick}

/-- What comes before may be anything without a tick. -/
theorem after {h : History} (hr : r.Made ticks) (hticks : h.ticks = []) (hsends : h.sends = []) :
    (r.after h).Made ticks where
  starts := by simp [hticks, hr.starts]
  sends := by simp [hsends, hr.sends]
  ends := hr.ends

/-- One more tick before the others. -/
theorem cons (hr : r.Made ticks) {t : Tick} (ht : t.deadline.isLast = false) :
    (r.after t.result.history).Made (t :: ticks) where
  starts := by
    rw [history_after, History.ticks_append, hr.starts, Tick.result, Pipeline.ticks_timedTick]
    rfl
  sends := by
    rw [history_after, History.sends_append, hr.sends, List.flatMap_cons]
  ends := by
    -- the first tick is regular, so that the last one is still the only one that is not
    obtain ⟨regular, last, rfl, hregular, hends⟩ := hr.ends
    refine ⟨t :: regular, last, rfl, fun x hx => ?_, hends⟩
    rcases List.mem_cons.1 hx with rfl | hx
    · exact ht
    · exact hregular x hx

end Made

/-- The end of a run is made of the final tick. -/
theorem made_final (p : Pipeline) (now : Nat) : (final p now).Made [⟨now, .timeout, p⟩] where
  starts := by simp [final, Deadline.isLast]
  sends := by simp [final, Tick.result]
  ends := ⟨[], _, rfl, by simp, rfl, rfl, rfl⟩

/-- Two histories may be put before a run one after the other. -/
theorem after_append (r : Run) (h h' : History) : r.after (h ++ h') = (r.after h').after h := by
  simp only [after, Run.mk.injEq, true_and]
  show History.mk _ _ = History.mk _ _
  simp

/-! ### The turns of the loop -/

section Turns

variable {p : Pipeline} {now due : Nat} {script rest : List TimedSteps} {e : TimedSteps}

/-- Once the future has resolved, only the final tick is left. -/
theorem ticks_of_resolved (hp : (p.pollShutdown now script).script = []) :
    ticks p now due script = [⟨now, .timeout, (p.pollShutdown now script).pipeline⟩] := by
  rw [ticks]
  split
  next => rfl
  next h => exact absurd (h.symm.trans hp) (List.cons_ne_nil _ _)

/-- As long as it has not, a turn of the loop is a tick if one is due, and otherwise only waits. -/
theorem ticks_of_pending (hp : (p.pollShutdown now script).script = e :: rest) :
    ticks p now due script =
      let polled := p.pollShutdown now script
      if due ≤ now then
        let t : Tick := ⟨now, .shutdown (e :: rest), polled.pipeline⟩
        if t.result.stopped then [t, ⟨t.result.time, .timeout, t.result.pipeline⟩]
        else
          t :: ticks t.result.pipeline t.result.time (nextDue p.settings.period due now)
            t.result.script
      else ticks polled.pipeline (min due e.time) due (e :: rest) := by
  rw [ticks]
  -- of the two branches only the one of a future that is pending agrees with `hp`
  split
  next h => exact absurd (h.symm.trans hp).symm (List.cons_ne_nil _ _)
  next h =>
    obtain ⟨rfl, rfl⟩ := List.cons.inj (h.symm.trans hp)
    rfl

end Turns

/-- The loop is made of its ticks. The cases are those of the loop. -/
theorem made_loop (p : Pipeline) (now due : Nat) (script : List TimedSteps) :
    (loop p now due script).Made (ticks p now due script) := by
  fun_induction loop p now due script with
  | case1 p now due script polled hp =>
    -- the future has resolved, and only the final tick is left
    rw [ticks_of_resolved hp]
    exact (made_final _ now).after (by simp [polled]) (by simp [polled])
  | case2 p now due script polled e rest hp hdue t hstop =>
    -- the future resolves during the tick, so the final one comes next
    rw [ticks_of_pending hp]
    simp only [if_pos hdue]
    rw [if_pos (by exact hstop), after_append]
    have hlast := (made_final t.pipeline t.time).cons
      (t := ⟨now, .shutdown (e :: rest), polled.pipeline⟩) rfl
    exact hlast.after (by simp [polled]) (by simp [polled])
  | case3 p now due script polled e rest hp hdue t hgo ih =>
    -- the tick leaves the future pending, and the loop goes on behind it
    rw [ticks_of_pending hp]
    simp only [if_pos hdue]
    rw [if_neg (by exact hgo), after_append]
    have hlater := ih.cons (t := ⟨now, .shutdown (e :: rest), polled.pipeline⟩) rfl
    exact hlater.after (by simp [polled]) (by simp [polled])
  | case4 p now due script polled e rest hp hdue ih =>
    -- no tick is due, so this turn adds nothing
    rw [ticks_of_pending hp]
    simp only [if_neg hdue]
    exact ih.after (by simp [polled]) (by simp [polled])

/-- A poll that leaves `e` for later, and the tick right after it. -/
theorem advances_polled {p : Pipeline} {now : Nat} {script rest : List TimedSteps} {e : TimedSteps}
    (hp : (p.pollShutdown now script).script = e :: rest) :
    let t : Tick := ⟨now, .shutdown (e :: rest), (p.pollShutdown now script).pipeline⟩
    t.Punctual p now script ∧
      Advances p script t.result.pipeline t.result.script t.result.time := by
  intro t
  have hpoll := advances_pollShutdown p now script
  rw [hp] at hpoll
  refine ⟨⟨Nat.le_refl _, hpoll, fun d hd => ?_⟩, ?_⟩
  · -- the event that the poll left for later is the next one, and it lies ahead
    obtain rfl : e = d := by simpa [t, Deadline.script] using hd
    exact lt_of_pollShutdown hp
  · exact hpoll.trans (t.found.advances_timedTick t.deadline t.start) t.start_le_time

/-- Every tick of the loop finds what the events that are due by its start have left. -/
theorem punctual_ticks (p : Pipeline) (now due : Nat) (script : List TimedSteps) :
    ∀ t ∈ ticks p now due script, t.Punctual p now script := by
  fun_induction ticks p now due script with
  | case1 p now due script polled hp =>
    have hpoll := advances_pollShutdown p now script
    rw [hp] at hpoll
    intro t ht
    rw [List.mem_singleton.1 ht]
    exact ⟨Nat.le_refl _, hpoll, by simp [Deadline.script]⟩
  | case2 p now due script polled e rest hp hdue t hstop =>
    obtain ⟨hfirst, hresult⟩ := advances_polled hp
    intro k hk
    rcases List.mem_cons.1 hk with rfl | hk
    · exact hfirst
    · -- the last event took place during this tick, and the final tick is the next
      obtain ⟨hway, -⟩ := Pipeline.headway_polled (t := t.result) hp rfl
      rw [show (Tick.result ⟨now, .shutdown (e :: rest), _⟩).script = [] from
        (hway.resolved hstop).1] at hresult
      rw [List.mem_singleton.1 hk]
      exact ⟨t.start_le_time, hresult, by simp [Deadline.script]⟩
  | case3 p now due script polled e rest hp hdue t hgo ih =>
    -- later ticks start from what this one leaves, and not before it has ended
    obtain ⟨hfirst, hresult⟩ := advances_polled hp
    intro k hk
    rcases List.mem_cons.1 hk with rfl | hk
    · exact hfirst
    · exact (ih k hk).after hresult (Nat.le_refl _) t.start_le_time
  | case4 p now due script polled e rest hp hdue ih =>
    have hpoll := advances_pollShutdown p now script
    have hlt := lt_of_pollShutdown hp
    rw [hp] at hpoll
    intro k hk
    exact (ih k hk).after hpoll (by omega) (by omega)

end Run

/-- The history of a run is made of the ticks of the run. -/
theorem Pipeline.made_run (p : Pipeline) (script : List TimedSteps) :
    (p.run script).Made (p.ticks script) :=
  (Run.made_loop p 0 p.settings.period script).after (by simp) (by simp)

end ClientMetrics
