import ClientMetrics.Proofs.Statsd.Delivery

/-!
# Capturing scopes nest

Measurements and capturing scopes form a tree. The client in effect is a variable, which a scope
sets when it opens and sets back when it closes, around whatever happens in between. What comes of
this is said here by the tree alone: each measurement has a place, which is the innermost scope
around it or outside all scopes, and its line goes to the client of that place.

Key results:
- `handed_performAll`: the lines that are handed on, in order, by the places of the measurements.
- `lines_placedAll`: what reaches the client of a place are the measurements directly in it.
- `results_performAll`: what each scope gives back, at any depth.
- `isFresh_after`: the collector of a scope is one that nothing was handed to before.
- `Nested`, `nested_after`: what scopes promise after any history.
-/

namespace ClientMetrics

namespace Statsd

/-! ## Places in a tree -/

/-- The innermost scope around a measurement, by the number of its collector. There is none outside
all scopes. -/
abbrev Place := Option Nat

namespace Activity

/-- The measurements directly in an activity, and not in a scope of it. -/
def direct : Activity → List Measurement
  | .emit m => [m]
  | .capture _ => []

/-- The measurements directly in some activities, in order. -/
def directAll (as : List Activity) : List Measurement := as.flatMap direct

theorem directAll_cons (a : Activity) (as : List Activity) :
    directAll (a :: as) = a.direct ++ directAll as := List.flatMap_cons

mutual

/-- The number of scopes in an activity. -/
def scopeCount : Activity → Nat
  | .emit _ => 0
  | .capture body => scopeCountAll body + 1

/-- The number of scopes in some activities. -/
def scopeCountAll : List Activity → Nat
  | [] => 0
  | a :: as => a.scopeCount + scopeCountAll as

end

mutual

/-- The measurements of an activity that stands at a place, each with its own place, in order. The
scopes are numbered in the order in which they open, starting from `n`. -/
def placed (place : Place) (n : Nat) : Activity → List (Place × Measurement)
  | .emit m => [(place, m)]
  | .capture body => placedAll (some n) (n + 1) body

/-- The measurements of some activities that stand at a place, one after the other. -/
def placedAll (place : Place) (n : Nat) : List Activity → List (Place × Measurement)
  | [] => []
  | a :: as => a.placed place n ++ placedAll place (n + a.scopeCount) as

end

mutual

/-- What comes of an activity: a scope gives back the lines of the measurements directly in it. -/
def outcome : Activity → ActivityResult
  | .emit _ => .emitted
  | .capture body => .captured ((told (directAll body)).map Measurement.bareLine) (outcomeAll body)

/-- What comes of some activities. -/
def outcomeAll : List Activity → List ActivityResult
  | [] => []
  | a :: as => a.outcome :: outcomeAll as

end

mutual

/-- A measurement is where the activity stands, or in a scope of the activity. -/
theorem mem_placed (place : Place) (n : Nat) {e : Place × Measurement} :
    ∀ a : Activity, e ∈ a.placed place n →
      e.1 = place ∨ ∃ id, e.1 = some id ∧ n ≤ id ∧ id < n + a.scopeCount
  | .emit m, h => .inl (congrArg Prod.fst (List.mem_singleton.1 h))
  | .capture body, h => by
    -- directly in the scope, whose number is `n`, or in one further inside
    rcases mem_placedAll (some n) (n + 1) body h with heq | ⟨id, heq, hle, hlt⟩
    · exact .inr ⟨n, heq, n.le_refl, by simp [scopeCount]⟩
    · exact .inr ⟨id, heq, by omega, by rw [scopeCount]; omega⟩

/-- A measurement is where the activities stand, or in a scope of one of them. -/
theorem mem_placedAll (place : Place) (n : Nat) {e : Place × Measurement} :
    ∀ as : List Activity, e ∈ placedAll place n as →
      e.1 = place ∨ ∃ id, e.1 = some id ∧ n ≤ id ∧ id < n + scopeCountAll as
  | [], h => nomatch h
  | a :: as, h => by
    rw [scopeCountAll]
    -- a measurement belongs to the first activity, or to one whose scopes are numbered from there
    -- on
    rcases List.mem_append.1 h with h | h
    · rcases mem_placed place n a h with heq | ⟨id, heq, hle, hlt⟩
      · exact .inl heq
      · exact .inr ⟨id, heq, hle, by omega⟩
    · rcases mem_placedAll place (n + a.scopeCount) as h with heq | ⟨id, heq, hle, hlt⟩
      · exact .inl heq
      · exact .inr ⟨id, heq, by omega, by omega⟩

end

end Activity

open Activity

/-! ## The clients of places -/

/-- The client of a scope: it has no prefix and no tags, and keeps its lines. -/
def scopeClient (id : Nat) : Client := { sink := .collector id }

/-- The client of a place, where `outer` is the one outside all scopes. -/
def clientAt (outer : Option Client) : Place → Option Client
  | none => outer
  | some id => some (scopeClient id)

/-- What measurements hand on, each to the client of its place. -/
def deliveries (outer : Option Client) (placed : List (Place × Measurement)) :
    List (Sink × String) :=
  placed.flatMap fun (place, m) => delivery (clientAt outer place) m

theorem deliveries_append (outer : Option Client) (ps qs : List (Place × Measurement)) :
    deliveries outer (ps ++ qs) = deliveries outer ps ++ deliveries outer qs :=
  List.flatMap_append

/-- A single measurement hands on what its client writes for it. -/
theorem deliveries_singleton (outer : Option Client) (place : Place) (m : Measurement) :
    deliveries outer [(place, m)] = delivery (clientAt outer place) m :=
  List.flatMap_singleton _ _

/-- What activities hand on goes to the client of the place where they stand, or to a collector of
one of the scopes in them. -/
theorem mem_deliveries {outer : Option Client} {place : Place} {n : Nat} {as : List Activity}
    {e : Sink × String} (h : e ∈ deliveries outer (placedAll place n as)) :
    (∃ c, clientAt outer place = some c ∧ e.1 = c.sink) ∨
      ∃ id, e.1 = .collector id ∧ n ≤ id ∧ id < n + scopeCountAll as := by
  obtain ⟨⟨p, m⟩, hp, he⟩ := List.mem_flatMap.1 h
  obtain ⟨c, hc, rfl⟩ := mem_delivery he
  rcases mem_placedAll place n as hp with rfl | ⟨id, rfl, hle, hlt⟩
  · exact .inl ⟨c, hc, rfl⟩
  · obtain rfl : scopeClient id = c := Option.some.inj hc
    exact .inr ⟨id, rfl, hle, hlt⟩

/-- The client of the place where an activity stands gets the lines of the measurements directly in
the activity. It is none of the clients of the scopes in it, whose numbers start from `n`. -/
theorem lines_placed {outer : Option Client} {place : Place} {c : Client} {n : Nat}
    (hc : clientAt outer place = some c) (hnew : ∀ id, c.sink = .collector id → id < n)
    (a : Activity) :
    c.sink.lines (deliveries outer (a.placed place n)) = (told a.direct).map c.line := by
  cases a with
  | emit m =>
    rw [placed, deliveries_singleton, hc]
    exact Sink.lines_delivery_self c m
  | capture body =>
    -- all that happens in the scope goes to collectors from `n` on
    refine Sink.lines_eq_nil fun e he hsink => ?_
    rcases mem_deliveries he with ⟨d, hd, heq⟩ | ⟨id, heq, hle, -⟩
    · obtain rfl : scopeClient n = d := Option.some.inj hd
      exact absurd (hnew n (hsink.symm.trans heq)) (Nat.lt_irrefl n)
    · have := hnew id (hsink.symm.trans heq)
      omega

/-- The client of the place where activities stand gets the lines of the measurements directly in
them. -/
theorem lines_placedAll {outer : Option Client} {place : Place} {c : Client} {n : Nat}
    (hc : clientAt outer place = some c) (hnew : ∀ id, c.sink = .collector id → id < n)
    (as : List Activity) :
    c.sink.lines (deliveries outer (placedAll place n as)) = (told (directAll as)).map c.line := by
  induction as generalizing n with
  | nil => rfl
  | cons a as ih =>
    -- the client was there before the scopes of the first activity, so it is none of theirs
    have hlater : ∀ id, c.sink = .collector id → id < n + a.scopeCount := by
      intro id hid
      have := hnew id hid
      omega
    rw [placedAll, deliveries_append, Sink.lines_append, lines_placed hc hnew a, ih hlater,
      directAll_cons, told_append, List.map_append]

namespace Reporter

/-! ## What is handed on -/

mutual

/-- An activity takes as many numbers as there are scopes in it. -/
theorem next_perform : ∀ (a : Activity) (r : Reporter),
    (r.perform a).1.next = r.next + a.scopeCount
  | .emit m, r => next_emit r m
  | .capture body, r => by
    -- the scope itself takes the first number
    have h : (r.perform (.capture body)).1.next = r.next + 1 + scopeCountAll body :=
      next_performAll body (r.collect "" .empty)
    rw [h, scopeCount]
    omega

/-- So do activities together. -/
theorem next_performAll : ∀ (as : List Activity) (r : Reporter),
    (r.performAll as).1.next = r.next + scopeCountAll as
  | [], _ => rfl
  | a :: as, r => by
    have h : (r.performAll (a :: as)).1.next = (r.perform a).1.next + scopeCountAll as :=
      next_performAll as (r.perform a).1
    rw [h, next_perform a r, scopeCountAll]
    omega

end

mutual

/-- An activity hands on what its measurements do, each to the client of its place. -/
theorem handed_perform (outer : Option Client) : ∀ (a : Activity) (r : Reporter) (place : Place),
    r.current = clientAt outer place →
      (r.perform a).1.handed = r.handed ++ deliveries outer (a.placed place r.next)
  | .emit m, r, place, h => by
    rw [placed, deliveries_singleton, ← h]
    exact handed_emit r m
  | .capture body, r, _, _ =>
    -- inside, the client in effect is that of the scope, whatever it was before
    handed_performAll outer body (r.collect "" .empty) (some r.next) rfl

/-- Activities hand on what their measurements do, each to the client of its place. -/
theorem handed_performAll (outer : Option Client) :
    ∀ (as : List Activity) (r : Reporter) (place : Place), r.current = clientAt outer place →
      (r.performAll as).1.handed = r.handed ++ deliveries outer (placedAll place r.next as)
  | [], r, _, _ => (List.append_nil r.handed).symm
  | a :: as, r, place, h => by
    -- the activities that follow find the client that was in effect before
    have hrest := handed_performAll outer as (r.perform a).1 place ((current_perform r a).trans h)
    rw [handed_perform outer a r place h, next_perform, List.append_assoc] at hrest
    rw [placedAll, deliveries_append]
    exact hrest

end

/-! ## New collectors are new -/

/-- The numbers from the next one on are not in use: nothing was handed to a collector with such a
number, and the client in effect has none. -/
structure IsFresh (r : Reporter) : Prop where
  handed : ∀ e ∈ r.handed, ∀ id, e.1 = .collector id → id < r.next
  current : ∀ c ∈ r.current, ∀ id, c.sink = .collector id → id < r.next

namespace IsFresh

variable {r : Reporter}

/-- A new collector takes the next number, which nothing has used. -/
theorem collect (h : r.IsFresh) (pre : String) (defaultTags : SortedTags) :
    (r.collect pre defaultTags).IsFresh where
  handed e he id hid := Nat.lt_succ_of_lt (h.handed e he id hid)
  current := by
    rintro c ⟨⟩ id hid
    obtain rfl : r.next = id := Sink.collector.inj hid
    exact Nat.lt_succ_self r.next

/-- Without a client nothing is in use. -/
theorem disable (h : r.IsFresh) : r.disable.IsFresh where
  handed := h.handed
  current _ hc := nomatch hc

/-- A client that keeps its lines gets a new collector, and any other has none. -/
theorem install (h : r.IsFresh) (c : Client) : (r.install c).IsFresh := by
  unfold Reporter.install
  split
  · exact h.collect c.pre c.defaultTags
  · next hsink =>
    refine ⟨h.handed, ?_⟩
    rintro d ⟨⟩ id hid
    exact absurd hid (hsink id)

/-- What is noted in the log does not matter. -/
theorem noted (h : r.IsFresh) (events : List Log.Event) : IsFresh { r with events } :=
  ⟨h.handed, h.current⟩

/-- The client of a host has no collector. -/
theorem connect (h : r.IsFresh) {host pre : String} {defaultTags : SortedTags} {r' : Reporter}
    (hr : r.connect host pre defaultTags = .ok r') : r'.IsFresh := by
  unfold Reporter.connect at hr
  split at hr
  · exact nomatch hr
  · obtain rfl := Except.ok.inj hr
    exact (h.noted _).install _

/-- Activities leave the numbers unused that come after those of their scopes. -/
theorem performAll (h : r.IsFresh) (as : List Activity) : (r.performAll as).1.IsFresh := by
  -- numbers that were in use stay below the next one, which only grows
  have hnext := next_performAll as r
  refine ⟨fun e he id hid => ?_, fun c hc id hid => ?_⟩
  · rw [handed_performAll r.current as r none rfl] at he
    rcases List.mem_append.1 he with he | he
    · have := h.handed e he id hid
      omega
    · rcases mem_deliveries he with ⟨c, hc, heq⟩ | ⟨k, heq, -, hlt⟩
      · have := h.current c hc id (heq.symm.trans hid)
        omega
      · obtain rfl : k = id := Sink.collector.inj (heq.symm.trans hid)
        omega
  · rw [current_performAll] at hc
    have := h.current c hc id hid
    omega

theorem perform (h : r.IsFresh) (a : Activity) : (r.perform a).1.IsFresh := h.performAll [a]

end IsFresh

/-! ## What scopes give back -/

/-- A scope receives the lines of the measurements directly in it. -/
theorem linesOf_scope {r : Reporter} (h : r.IsFresh) (body : List Activity) :
    ((r.collect "" .empty).performAll body).1.linesOf r.next =
      (told (directAll body)).map Measurement.bareLine := by
  have hhanded := handed_performAll r.current body (r.collect "" .empty) (some r.next) rfl
  -- nothing was handed to the collector before the scope opened
  have hbefore : (Sink.collector r.next).lines (r.collect "" .empty).handed = [] :=
    Sink.lines_eq_nil fun e he hid => absurd (h.handed e he r.next hid) (Nat.lt_irrefl _)
  rw [linesOf_eq, hhanded, Sink.lines_append, hbefore, List.nil_append]
  refine lines_placedAll (c := scopeClient r.next) rfl (fun id hid => ?_) body
  obtain rfl : r.next = id := Sink.collector.inj hid
  exact Nat.lt_succ_self r.next

mutual

/-- A scope gives back what its tree says, whatever was handed on before. -/
theorem result_perform : ∀ (a : Activity) (r : Reporter), r.IsFresh →
    (r.perform a).2 = a.outcome
  | .emit _, _, _ => rfl
  | .capture body, r, h => by
    have hlines := linesOf_scope h body
    have hresults := results_performAll body _ (h.collect "" .empty)
    rw [outcome, ← hlines, ← hresults]
    rfl

/-- So do the scopes among some activities. -/
theorem results_performAll : ∀ (as : List Activity) (r : Reporter), r.IsFresh →
    (r.performAll as).2 = outcomeAll as
  | [], _, _ => rfl
  | a :: as, r, h => by
    have hresult := result_perform a r h
    have hresults := results_performAll as _ (h.perform a)
    rw [outcomeAll, ← hresult, ← hresults]
    rfl

end

example :
    (performAll {} [.capture [
      .emit { name := "a", reading := .gauge 1 },
      .capture [
        .emit { name := "b", reading := .counter 0 },
        .emit { name := "c", reading := .counter 2 }],
      .emit { name := "d", reading := .timer 3999 }]]).2 =
    [.captured ["a:1|g", "d:3|ms"] [
      .emitted,
      .captured ["c:2|c"] [.emitted, .emitted],
      .emitted]] := rfl

/-! ## Histories -/

/-- What may have happened before: clients were put into effect and out of it, and there were
activities. -/
inductive Call where
  | install (c : Client)
  | connect (host pre : String) (defaultTags : SortedTags)
  | disable
  | perform (a : Activity)

/-- What a call does. The former client stays if nothing can be sent to a host. -/
def call (r : Reporter) : Call → Reporter
  | .install c => r.install c
  | .connect host pre defaultTags => (r.connect host pre defaultTags).toOption.getD r
  | .disable => r.disable
  | .perform a => (r.perform a).1

/-- The state of reporting after some calls. -/
def after (history : List Call) : Reporter := history.foldl call {}

/-- No call takes a number that comes after the next one. -/
theorem IsFresh.call {r : Reporter} (h : r.IsFresh) (x : Call) : (r.call x).IsFresh := by
  cases x with
  | install c => exact h.install c
  | connect host pre defaultTags =>
    show ((r.connect host pre defaultTags).toOption.getD r).IsFresh
    -- a host that is refused leaves the reporter as it was
    cases hr : r.connect host pre defaultTags with
    | error fault => exact h
    | ok r' => exact h.connect hr
  | disable => exact h.disable
  | perform a => exact h.perform a

/-- After any history a new collector is new. -/
theorem isFresh_after (history : List Call) : (after history).IsFresh := by
  have hrun : ∀ r : Reporter, r.IsFresh → (history.foldl call r).IsFresh := by
    induction history with
    | nil => exact fun _ h => h
    | cons x history ih => exact fun r h => ih _ (h.call x)
  -- at first nothing is handed on and no client is in effect
  have hstart : ({} : Reporter).IsFresh :=
    { handed := fun _ he => (List.not_mem_nil he).elim, current := fun _ hc => nomatch hc }
  exact hrun {} hstart

/-! ## What scopes promise -/

/-- What holds of the measurements and scopes among some activities. -/
structure Nested (r : Reporter) (as : List Activity) : Prop where
  /-- A measurement hands on one line at most, which the client in effect writes. -/
  single : ∀ (s : Reporter) (m : Measurement),
    (s.emit m).handed = s.handed ++ delivery s.current m ∧ (delivery s.current m).length ≤ 1
  /-- In effect is the client of the innermost scope around a measurement, or outside all scopes
  the one before. -/
  handed : (r.performAll as).1.handed =
    r.handed ++ deliveries r.current (placedAll none r.next as)
  /-- A scope gives back the lines of the measurements directly in it, at any depth. -/
  results : (r.performAll as).2 = outcomeAll as
  /-- The client before receives the lines of the measurements outside all scopes. -/
  around : ∀ c ∈ r.current, c.sink.lines (r.performAll as).1.handed =
    c.sink.lines r.handed ++ (told (directAll as)).map c.line
  /-- When a scope closes, the client is in effect that was before it opened. -/
  restored : ∀ (s : Reporter) (body : List Activity),
    (s.perform (.capture body)).1.current = s.current
  /-- In the end the client is in effect that was before. -/
  current : (r.performAll as).1.current = r.current
  /-- The tags of a line are those of the measurement, and then the default tags by key. -/
  tags : ∀ (c : Client) (m : Measurement),
    c.line m = prefixText c.pre ++ m.name ++ ":" ++ m.reading.text ++ "|" ++ m.reading.kind
      ++ tagText (m.tags ++ c.defaultTags.toList) ∧
    c.defaultTags.toList.Pairwise fun a b => a.1 < b.1

/-- Capturing scopes nest, whatever happened before. -/
theorem nested_after (history : List Call) (as : List Activity) : Nested (after history) as where
  single s m := ⟨handed_emit s m, length_delivery_le s.current m⟩
  handed := handed_performAll (after history).current as _ none rfl
  results := results_performAll as _ (isFresh_after history)
  around c hc := by
    have hplace : clientAt (after history).current none = some c := hc
    have hnew := (isFresh_after history).current c hc
    rw [handed_performAll (after history).current as _ none rfl, Sink.lines_append,
      lines_placedAll hplace hnew]
  restored s body := current_perform s (.capture body)
  current := current_performAll (after history) as
  tags c _ := ⟨rfl, c.defaultTags.sorted⟩

end Reporter

end Statsd

end ClientMetrics
