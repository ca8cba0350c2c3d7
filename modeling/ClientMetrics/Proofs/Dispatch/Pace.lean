import ClientMetrics.Proofs.Dispatch.Ticks

/-!
# The pace of the ticks

A tick starts when it is due or later, and only after the tick before it has ended. When the next
one is due depends on how late it started: up to five milliseconds are made up for, and with more
than that the ticks start anew from there (`nextDue`).

* `KeepsPace` — starts that follow each other like that;
* `KeepsPace.grid`, `KeepsPace.spaced` — how early they can be, and how close together;
* `keepsPace_ticks`, `inTurn_ticks` — the loop starts its regular ticks at that pace, one at a time;
* `Run.Paced` — the bounds on the starts and the sends of a run;
* `paced_run` — all runs keep them.
-/

namespace ClientMetrics

/-- Starts of regular ticks, each no earlier than it is due, the first one at `due`. -/
def KeepsPace (period due : Nat) : List Nat → Prop
  | [] => True
  | start :: starts => due ≤ start ∧ KeepsPace period (nextDue period due start) starts

/-- The next tick is due at least a period after this one was. -/
theorem add_period_le_nextDue (period due start : Nat) :
    due + period ≤ nextDue period due start := by
  unfold nextDue
  split <;> omega

/-- It is due at least a period after this one started, up to the five milliseconds that are made
up. -/
theorem start_add_period_le_nextDue (period due start : Nat) :
    start + period ≤ nextDue period due start + 5 := by
  unfold nextDue
  split <;> omega

namespace KeepsPace

variable {period due : Nat} {starts : List Nat}

/-- Late ticks never bring later ones forward. -/
theorem grid (h : KeepsPace period due starts) (i : Nat) (hi : i < starts.length) :
    due + i * period ≤ starts[i] := by
  -- the induction is on the starts, each of which moves the next due time by a period or more
  induction starts generalizing due i with
  | nil => exact absurd hi (Nat.not_lt_zero i)
  | cons start starts ih =>
    obtain ⟨hstart, hlater⟩ := h
    cases i with
    | zero => simpa using hstart
    | succ i =>
      have hnext := add_period_le_nextDue period due start
      have hrest := ih hlater i (Nat.lt_of_succ_lt_succ hi)
      rw [List.getElem_cons_succ, Nat.succ_mul]
      omega

/-- Two ticks are closer than the period only by what the first of them was late. -/
theorem spaced (h : KeepsPace period due starts) (i : Nat) (hi : i + 1 < starts.length) :
    starts[i] + period ≤ starts[i + 1] + 5 := by
  induction starts generalizing due i with
  | nil => exact absurd hi (Nat.not_lt_zero _)
  | cons start starts ih =>
    obtain ⟨-, hlater⟩ := h
    have hi' : i < starts.length := Nat.lt_of_succ_lt_succ hi
    -- the first two starts, or two that follow later
    cases i with
    | zero =>
      have hgap := start_add_period_le_nextDue period due start
      have hnext := hlater.grid 0 hi'
      simp only [List.getElem_cons_zero, List.getElem_cons_succ]
      omega
    | succ i => exact ih hlater i hi'

end KeepsPace

/-! ## The ticks of the loop -/

/-- When the regular ones among some ticks start. -/
def Tick.regularStarts (ticks : List Tick) : List Nat :=
  (ticks.filter fun t => !t.deadline.isLast).map Tick.start

/-- A tick makes one send at most. -/
theorem Tick.length_sends_le (ticks : List Tick) :
    (ticks.flatMap fun t => t.result.history.sends).length ≤ ticks.length := by
  induction ticks with
  | nil => exact Nat.le_refl 0
  | cons t ticks ih =>
    rw [List.flatMap_cons, List.length_append, List.length_cons]
    -- a tick makes no send, or one
    rcases t.sends_cases with ⟨hnone, -⟩ | ⟨s, hone, -⟩
    · rw [hnone, List.length_nil]
      omega
    · rw [hone, List.length_singleton]
      omega

namespace Run

/-- A turn of the loop that takes a tick takes it no earlier than it is due. -/
theorem keepsPace_ticks (p : Pipeline) (now due : Nat) (script : List TimedSteps) :
    KeepsPace p.settings.period due (Tick.regularStarts (ticks p now due script)) := by
  -- only two of the four turns take a regular tick, and the first of these is the last one
  fun_induction ticks p now due script with
  | case1 => exact trivial
  | case2 p now due script polled e rest hp hdue t hstop => exact ⟨hdue, trivial⟩
  | case3 p now due script polled e rest hp hdue t hgo ih =>
    have hset : t.result.pipeline.settings = p.settings :=
      (Pipeline.headway_polled (t := t.result) hp rfl).2
    rw [hset] at ih
    exact ⟨hdue, ih⟩
  | case4 p now due script polled e rest hp hdue ih =>
    rwa [show polled.pipeline.settings = p.settings from
      Pipeline.settings_eq (p.configuration_pollShutdown now script)] at ih

/-- No tick starts before those ahead of it have ended. -/
theorem inTurn_ticks (p : Pipeline) (now due : Nat) (script : List TimedSteps) :
    (ticks p now due script).Pairwise fun t t' => t.result.time ≤ t'.start := by
  -- the ticks that follow start when the loop goes on, which is when this one has ended
  fun_induction ticks p now due script with
  | case1 => exact List.pairwise_singleton _ _
  | case2 p now due script polled e rest hp hdue t hstop => simp
  | case3 p now due script polled e rest hp hdue t hgo ih =>
    exact List.pairwise_cons.2 ⟨fun t' ht' => (punctual_ticks _ _ _ _ t' ht').now_le, ih⟩
  | case4 p now due script polled e rest hp hdue ih => exact ih

end Run

/-! ## Runs -/

/-- When the regular ticks of a history start. -/
def History.regularStarts (h : History) : List Nat := (h.ticks.filter fun x => !x.2).map (·.1)

namespace Run

/-- A run whose sends do not overlap and whose ticks are no faster than the period allows. -/
structure Paced (r : Run) (period : Nat) (ticks : List Tick) : Prop where
  made : r.Made ticks
  /-- A tick starts after the sends of all ticks before it have ended. -/
  inTurn : ticks.Pairwise fun t t' => ∀ s ∈ t.result.history.sends, s.finish ≤ t'.start
  /-- No tick starts while a send is under way. -/
  alone : ∀ s ∈ r.history.sends, ∀ x ∈ r.history.ticks, ¬s.inFlightAt x.1
  /-- Counted from one, the `i`-th regular tick starts after `i` periods. -/
  grid : ∀ i, ∀ hi : i < r.history.regularStarts.length,
    (i + 1) * period ≤ r.history.regularStarts[i]
  spaced : ∀ i, ∀ hi : i + 1 < r.history.regularStarts.length,
    r.history.regularStarts[i] + period ≤ r.history.regularStarts[i + 1] + 5
  attempts : r.history.sends.length ≤ r.elapsed / period + 1

namespace Made

variable {r : Run} {ticks : List Tick}

/-- The regular ticks of a run start when they are recorded. -/
theorem regularStarts_eq (h : r.Made ticks) :
    r.history.regularStarts = Tick.regularStarts ticks := by
  unfold History.regularStarts Tick.regularStarts
  rw [h.starts, List.filter_map, List.map_map]
  rfl

/-- There is one tick that is not regular. -/
theorem length_regularStarts (h : r.Made ticks) :
    r.history.regularStarts.length + 1 = ticks.length := by
  obtain ⟨regular, last, hticks, hregular, hlast, -⟩ := h.ends
  have hall : regular.filter (fun t => !t.deadline.isLast) = regular :=
    List.filter_eq_self.2 fun t ht => by rw [hregular t ht]; rfl
  rw [h.regularStarts_eq, hticks, Tick.regularStarts]
  simp [hall, hlast]

/-- A run makes one send for each of its ticks at most. -/
theorem length_sends_le (h : r.Made ticks) : r.history.sends.length ≤ ticks.length := by
  rw [h.sends]
  exact Tick.length_sends_le ticks

/-- A tick starts before the run ends. -/
theorem start_le_elapsed (h : r.Made ticks)
    (hturn : ticks.Pairwise fun t t' => t.result.time ≤ t'.start) {t : Tick} (ht : t ∈ ticks) :
    t.start ≤ r.elapsed := by
  obtain ⟨regular, last, rfl, -, -, -, hend⟩ := h.ends
  have hstart := t.start_le_time
  -- the run ends with the final tick, and all regular ones have ended before it
  rcases List.mem_append.1 ht with ht | ht
  · have hbefore := (List.pairwise_append.1 hturn).2.2 t ht last (List.mem_singleton_self _)
    have hlast := last.start_le_time
    omega
  · obtain rfl := List.mem_singleton.1 ht
    omega

/-- A tick starts before a send, or with it, or after its end. -/
theorem not_inFlightAt (h : r.Made ticks)
    (hturn : ticks.Pairwise fun t t' => t.result.time ≤ t'.start) {s : Send}
    (hs : s ∈ r.history.sends) {t : Tick} (ht : t ∈ ticks) : ¬s.inFlightAt t.start := by
  rw [h.sends] at hs
  obtain ⟨t', ht', hs⟩ := List.mem_flatMap.1 hs
  obtain ⟨hstart, hfinish, -⟩ := Tick.of_mem_sends hs
  unfold Send.inFlightAt
  -- one of the two ticks comes first, or they are the same
  have hsides : t = t' ∨ t.result.time ≤ t'.start ∨ t'.result.time ≤ t.start := by
    obtain ⟨i, hi, rfl⟩ := List.mem_iff_getElem.1 ht
    obtain ⟨j, hj, rfl⟩ := List.mem_iff_getElem.1 ht'
    rcases Nat.lt_trichotomy i j with hlt | rfl | hlt
    · exact .inr (.inl (List.pairwise_iff_getElem.1 hturn i j hi hj hlt))
    · exact .inl rfl
    · exact .inr (.inr (List.pairwise_iff_getElem.1 hturn j i hj hi hlt))
  rcases hsides with rfl | hfirst | hlater
  · omega
  · have := t.start_le_time
    omega
  · omega

end Made

end Run

/-- In every run, sends do not overlap, and the ticks and the attempts to send keep to the pace. -/
theorem Pipeline.paced_run (p : Pipeline) (script : List TimedSteps) :
    (p.run script).Paced p.settings.period (p.ticks script) := by
  have hmade := p.made_run script
  have hturn : (p.ticks script).Pairwise fun t t' => t.result.time ≤ t'.start :=
    Run.inTurn_ticks p 0 p.settings.period script
  have hpace : KeepsPace p.settings.period p.settings.period
      (p.run script).history.regularStarts :=
    hmade.regularStarts_eq ▸ Run.keepsPace_ticks p 0 p.settings.period script
  have hgrid : ∀ i, ∀ hi : i < (p.run script).history.regularStarts.length,
      (i + 1) * p.settings.period ≤ (p.run script).history.regularStarts[i] := fun i hi => by
    have := hpace.grid i hi
    rw [Nat.succ_mul]
    omega
  refine ⟨hmade, hturn.imp fun {t t'} h s hs => ?_, fun s hs x hx => ?_, hgrid, hpace.spaced, ?_⟩
  · rw [(Tick.of_mem_sends hs).2.1]
    exact h
  · rw [hmade.starts] at hx
    obtain ⟨t, ht, rfl⟩ := List.mem_map.1 hx
    exact hmade.not_inFlightAt hturn hs ht
  · -- the regular ticks fit into the run, and the final tick is one more
    have hsends := hmade.length_sends_le
    have hlength := hmade.length_regularStarts
    suffices (p.run script).history.regularStarts.length ≤
        (p.run script).elapsed / p.settings.period by omega
    rw [Nat.le_div_iff_mul_le p.settings.period_pos]
    by_cases hnone : (p.run script).history.regularStarts.length = 0
    · simp [hnone]
    · obtain ⟨n, hn⟩ := Nat.exists_eq_succ_of_ne_zero hnone
      have hlast := hgrid n (by omega)
      have hmem : (p.run script).history.regularStarts[n] ∈ Tick.regularStarts (p.ticks script) :=
        hmade.regularStarts_eq ▸ List.getElem_mem _
      obtain ⟨t, ht, hstart⟩ := List.mem_map.1 hmem
      have hbound := hmade.start_le_elapsed hturn (List.mem_filter.1 ht).1
      rw [hn, Nat.succ_eq_add_one]
      omega

end ClientMetrics
