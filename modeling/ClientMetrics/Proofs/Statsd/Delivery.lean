import ClientMetrics.Statsd.Client

/-!
# What a measurement hands on

A measurement is worth a line or it is not, which its reading decides. If it is, the client in
effect writes the line and hands it to its sink; without a client there is nobody to write one.

Key results:
- `isTold_iff`: the readings that are worth a line are those that are not silent and can be written.
- `handed_emit`, `length_delivery_le`: a measurement hands on its delivery, one line at most.
- `mem_delivery`, `lines_delivery_self`: it goes to the sink of the client in effect.
- `linesOf_eq`: a collector received what was handed to it.
-/

namespace ClientMetrics

namespace Statsd

/-! ## Readings that are worth a line -/

/-- A reading is worth a line: a counter that changed, every gauge, and a duration whose
milliseconds fit into 64 bits. One taken from the clock is never longer. -/
def Reading.IsTold : Reading → Prop
  | .counter change => change ≠ 0
  | .gauge _ => True
  | .timer micros => micros / 1000 < UInt64.size
  | .stopwatch => True

instance : DecidablePred Reading.IsTold
  | .counter change => inferInstanceAs (Decidable (change ≠ 0))
  | .gauge _ => inferInstanceAs (Decidable True)
  | .timer micros => inferInstanceAs (Decidable (micros / 1000 < UInt64.size))
  | .stopwatch => inferInstanceAs (Decidable True)

/-- A counter is silent exactly if it did not change. -/
theorem Reading.isSilent_counter (change : Int) :
    (counter change).isSilent = true ↔ change = 0 := by
  unfold isSilent
  split
  · next h => exact iff_of_true rfl (counter.inj h)
  · next h => exact iff_of_false Bool.false_ne_true fun heq => h (congrArg counter heq)

/-- A reading is worth a line if it is not silent and the line can be written. -/
theorem Reading.isTold_iff (x : Reading) :
    x.IsTold ↔ x.isSilent = false ∧ x.isWritable = true := by
  -- only a counter may be silent, and only a duration may be too long
  cases x with
  | counter change =>
    rw [← Bool.not_eq_true, isSilent_counter]
    exact (and_iff_left rfl).symm
  | gauge value => exact iff_of_true trivial ⟨rfl, rfl⟩
  | timer micros =>
    have hwritable : (timer micros).isWritable = true ↔ micros / 1000 ≤ maxMillis :=
      decide_eq_true_iff
    rw [hwritable]
    exact ⟨fun h => ⟨rfl, Nat.le_of_lt_succ h⟩, fun h => Nat.lt_succ_of_le h.2⟩
  | stopwatch => exact iff_of_true trivial ⟨rfl, rfl⟩

/-- The measurements that are worth a line. -/
def told (ms : List Measurement) : List Measurement := ms.filter (·.reading.IsTold)

/-- What is worth a line of several measurements does not depend on the others. -/
theorem told_append (ms ms' : List Measurement) : told (ms ++ ms') = told ms ++ told ms' :=
  List.filter_append ms ms'

/-! ## One measurement -/

/-- What a measurement hands on, and to whom, with a client in effect or without one. -/
def delivery (c : Option Client) (m : Measurement) : List (Sink × String) :=
  if m.reading.IsTold then c.toList.map fun c => (c.sink, c.line m) else []

/-- A measurement is worth at most one line. -/
theorem length_delivery_le (c : Option Client) (m : Measurement) : (delivery c m).length ≤ 1 := by
  unfold delivery
  split
  · cases c <;> simp
  · exact Nat.zero_le 1

/-- What is handed on goes to the sink of the client in effect. -/
theorem mem_delivery {c : Option Client} {m : Measurement} {e : Sink × String}
    (h : e ∈ delivery c m) : ∃ d, c = some d ∧ e = (d.sink, d.line m) := by
  unfold delivery at h
  split at h
  · obtain ⟨d, hd, rfl⟩ := List.mem_map.1 h
    exact ⟨d, Option.mem_toList.1 hd, rfl⟩
  · exact nomatch h

namespace Reporter

/-- A measurement hands on its delivery. -/
theorem handed_emit (r : Reporter) (m : Measurement) :
    (r.emit m).handed = r.handed ++ delivery r.current m := by
  unfold emit delivery
  by_cases h : m.reading.IsTold
  · obtain ⟨hsilent, hwritable⟩ := m.reading.isTold_iff.1 h
    cases r.current with
    | none => simp [hsilent]
    | some c => simp [hsilent, h, send, hwritable]
  · rw [if_neg h, List.append_nil]
    split
    · rfl
    · next hsilent =>
      -- the reading is not silent, so it is one that cannot be written
      have hwritable : m.reading.isWritable = false := Bool.eq_false_iff.2 fun hw =>
        h (m.reading.isTold_iff.2 ⟨Bool.eq_false_iff.2 hsilent, hw⟩)
      split
      · simp [send, hwritable]
      · rfl

end Reporter

/-! ## What reaches a sink -/

/-- The lines that went to a sink, among those that were handed on. -/
def Sink.lines (s : Sink) (handed : List (Sink × String)) : List String :=
  (handed.filter (·.1 = s)).map Prod.snd

namespace Sink

theorem lines_append (s : Sink) (handed handed' : List (Sink × String)) :
    s.lines (handed ++ handed') = s.lines handed ++ s.lines handed' := by
  rw [lines, List.filter_append, List.map_append]
  rfl

/-- A sink to which nothing was handed gets no lines. -/
theorem lines_eq_nil {s : Sink} {handed : List (Sink × String)} (h : ∀ e ∈ handed, e.1 ≠ s) :
    s.lines handed = [] := by
  rw [lines, List.filter_eq_nil_iff.2 fun e he => by simpa using h e he]
  rfl

/-- All that a client writes reaches its own sink. -/
theorem lines_delivery_self (c : Client) (m : Measurement) :
    c.sink.lines (delivery (some c) m) = (told [m]).map c.line := by
  unfold delivery told
  by_cases h : m.reading.IsTold <;> simp [h, lines]

end Sink

/-- A collector received what was handed to it. -/
theorem Reporter.linesOf_eq (r : Reporter) (id : Nat) :
    r.linesOf id = (Sink.collector id).lines r.handed := by
  unfold linesOf received
  -- each line that was handed on counts if it went to this collector, and for nothing otherwise
  induction r.handed with
  | nil => rfl
  | cons e handed ih =>
    obtain ⟨s, line⟩ := e
    rw [Sink.lines] at ih ⊢
    cases s with
    | collector n => by_cases h : n = id <;> simp [h, ih]
    | network host => simpa using ih
    | refusing => simpa using ih

end Statsd

end ClientMetrics
