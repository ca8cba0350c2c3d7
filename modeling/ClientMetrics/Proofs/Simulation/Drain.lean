import ClientMetrics.Proofs.Dispatch.Delivery
import ClientMetrics.Proofs.Simulation.Sequential

/-!
# Draining

After the loop of a simulation, ticks follow each other for as long as each of them sends a batch.
Nothing bounds their number from outside: the queue gets shorter with every batch, so they end when
it is empty. Then the batches that were sent are the queue cut into parts of the size of a batch.

Key results:
- `chunked_chunks`: the parts of a list, how many they are and how long.
- `Pipeline.Drains`: ticks until nothing is sent, with `unique`.
- `drain_eq_of_drains`: the loop of a simulation takes these ticks.
- `drained_of_accepts`: how the ticks end and what they leave behind (`Drained`).
-/

namespace ClientMetrics

/-! ## Parts of a list -/

/-- The consecutive parts of a list that have `n` elements each. What is left over is the last. -/
def chunks {α : Type} (n : Nat) (as : List α) : List (List α) :=
  (List.range ((as.length + n - 1) / n)).map fun k => (as.drop (k * n)).take n

section Chunks

variable {α : Type} {n : Nat}

/-- So many parts it takes, the last of which may be short. -/
theorem length_chunks (n : Nat) (as : List α) :
    (chunks n as).length = (as.length + n - 1) / n := by
  rw [chunks, List.length_map, List.length_range]

@[simp] theorem chunks_nil (hn : 0 < n) : chunks n ([] : List α) = [] := by
  have hnone : (0 + n - 1) / n = 0 := Nat.div_eq_of_lt (by omega)
  rw [chunks, List.length_nil, hnone]
  rfl

/-- The first part is cut off, and the others are the parts of what is left. -/
theorem chunks_of_ne_nil (hn : 0 < n) {as : List α} (has : as ≠ []) :
    chunks n as = as.take n :: chunks n (as.drop n) := by
  have hpos : 0 < as.length := List.length_pos_iff.2 has
  have hcount : (as.length + n - 1) / n = ((as.drop n).length + n - 1) / n + 1 := by
    rw [List.length_drop, ← Nat.add_div_right _ hn]
    by_cases hle : as.length ≤ n
    · -- nothing is left, and the first part may be short
      have hone : (as.length + n - 1) / n = 1 := Nat.div_eq_of_lt_le (by omega) (by omega)
      have hone' : (as.length - n + n - 1 + n) / n = 1 := Nat.div_eq_of_lt_le (by omega) (by omega)
      rw [hone, hone']
    · have hsame : as.length + n - 1 = as.length - n + n - 1 + n := by omega
      rw [hsame]
  rw [chunks, hcount, List.range_succ_eq_map, List.map_cons, List.map_map, Nat.zero_mul,
    List.drop_zero]
  refine congrArg (as.take n :: ·) (List.map_congr_left fun k _ => ?_)
  show (as.drop ((k + 1) * n)).take n = ((as.drop n).drop (k * n)).take n
  rw [List.drop_drop, Nat.succ_mul, Nat.add_comm]

/-- Nothing is lost between the parts, and nothing is in two of them. -/
theorem flatten_chunks (hn : 0 < n) (as : List α) : (chunks n as).flatten = as := by
  generalize hparts : chunks n as = parts
  -- the induction is on the parts, since the list is cut from the front
  induction parts generalizing as with
  | nil =>
    by_cases has : as = []
    · exact has.symm
    · rw [chunks_of_ne_nil hn has] at hparts
      cases hparts
  | cons part parts ih =>
    by_cases has : as = []
    · rw [has, chunks_nil hn] at hparts
      cases hparts
    · rw [chunks_of_ne_nil hn has, List.cons.injEq] at hparts
      obtain ⟨rfl, hrest⟩ := hparts
      rw [List.flatten_cons, ih _ hrest, List.take_append_drop]

/-- Every part has something in it, and none has too much. -/
theorem length_of_mem_chunks (hn : 0 < n) {as part : List α} (h : part ∈ chunks n as) :
    1 ≤ part.length ∧ part.length ≤ n := by
  obtain ⟨k, hk, rfl⟩ := List.mem_map.1 h
  rw [List.mem_range, Nat.lt_iff_add_one_le, Nat.le_div_iff_mul_le hn, Nat.succ_mul] at hk
  rw [List.length_take, List.length_drop]
  omega

/-- All parts but the last are full. -/
theorem length_of_mem_dropLast_chunks (hn : 0 < n) {as part : List α}
    (h : part ∈ (chunks n as).dropLast) : part.length = n := by
  have hcount := length_chunks n as
  obtain ⟨k, hk, rfl⟩ := List.mem_iff_getElem.1 h
  -- a part that is not the last has another one after it
  have hnext : k + 1 < (as.length + n - 1) / n := by
    rw [List.length_dropLast] at hk
    omega
  have hroom : (k + 1 + 1) * n ≤ as.length + n - 1 := (Nat.le_div_iff_mul_le hn).1 hnext
  rw [Nat.succ_mul, Nat.succ_mul] at hroom
  simp only [chunks, List.getElem_dropLast, List.getElem_map, List.getElem_range, List.length_take,
    List.length_drop]
  omega

end Chunks

/-- Parts of a list that are as long as they may be, in their order. -/
structure Chunked {α : Type} (n : Nat) (as : List α) (parts : List (List α)) : Prop where
  /-- There are as many as it takes. -/
  length_eq : parts.length = (as.length + n - 1) / n
  /-- Every element is in one of them. -/
  flatten_eq : parts.flatten = as
  size : ∀ part ∈ parts, 1 ≤ part.length ∧ part.length ≤ n
  /-- Only the last may be shorter. -/
  full : ∀ part ∈ parts.dropLast, part.length = n

/-- The parts are as long as they may be, and in their order. -/
theorem chunked_chunks {α : Type} {n : Nat} (hn : 0 < n) (as : List α) :
    Chunked n as (chunks n as) where
  length_eq := length_chunks n as
  flatten_eq := flatten_chunks hn as
  size := fun _ => length_of_mem_chunks hn
  full := fun _ => length_of_mem_dropLast_chunks hn

/-! ## Ticks until nothing is sent -/

/-- A transport that accepts every batch. So it answers, and never with an error. -/
structure Transport.Accepts (t : Transport) : Prop where
  answers : t.answers
  failure : t.failure = none

/-- A tick returns if the transport accepts what it sends. -/
theorem Transport.Accepts.tick_eq {p : Pipeline} (h : p.transport.Accepts) :
    p.tick = some p.answeredTick :=
  Pipeline.tick_eq_some.2 ⟨Pipeline.isStuck_of_answers h.answers, rfl⟩

/-- Ticks one after the other, all of which return and each of which but the last sends a batch: how
they end, and what they leave behind. -/
inductive Pipeline.Drains : Pipeline → List Outcome → Pipeline → List Happening → Prop where
  | again {p p' left : Pipeline} {n : Nat} {outcomes : List Outcome} {hs hs' : List Happening}
      (sent : p.tick = some (.sent n, p', hs)) (more : p'.Drains outcomes left hs') :
    Drains p (.sent n :: outcomes) left (hs ++ hs')
  | last {p left : Pipeline} {outcome : Outcome} {hs : List Happening}
      (tick : p.tick = some (outcome, left, hs)) (ends : outcome.isSent = false) :
    Drains p [outcome] left hs

namespace Pipeline.Drains

variable {p left left' : Pipeline} {outcomes outcomes' : List Outcome} {hs hs' : List Happening}

/-- Where the ticks come to an end, there is one way only. -/
theorem unique (h : p.Drains outcomes left hs) (h' : p.Drains outcomes' left' hs') :
    outcomes' = outcomes ∧ left' = left ∧ hs' = hs := by
  -- each tick has one result, so that both ways go on, or both come to an end
  induction h generalizing outcomes' left' hs' with
  | again sent more ih =>
    cases h' with
    | again sent' more' =>
      rw [sent] at sent'
      cases sent'
      obtain ⟨rfl, rfl, rfl⟩ := ih more'
      exact ⟨rfl, rfl, rfl⟩
    | last tick ends =>
      rw [sent] at tick
      cases tick
      cases ends
  | last tick ends =>
    cases h' with
    | again sent' more' =>
      rw [tick] at sent'
      cases sent'
      cases ends
    | last tick' ends' =>
      rw [tick] at tick'
      cases tick'
      exact ⟨rfl, rfl, rfl⟩

end Pipeline.Drains

namespace Simulation

/-- The loop of a simulation stops nowhere else, since every batch that is sent makes the queue
shorter. -/
theorem drain_eq_of_drains {p left : Pipeline} {outcomes : List Outcome} {hs : List Happening}
    (accepts : p.transport.Accepts) (quiet : p.transport.late = [])
    (h : p.Drains outcomes left hs) : drain p = ((outcomes.map sentBy).sum, left, hs) := by
  induction h with
  | @again p p' left n outcomes hs hs' sent more ih =>
    have hticks := Ticks.of_tick accepts.failure quiet sent
    -- a tick does not change the transport, which accepts the next batch too
    have hsame : p'.transport = p.transport := by cases hticks; rfl
    rw [drain, sent]
    dsimp only
    rw [if_pos hticks.size_lt, ih (hsame ▸ accepts) (hsame ▸ quiet)]
    rfl
  | @last p left outcome hs tick ends =>
    rw [drain, tick]
    cases outcome with
    | sent n => cases ends
    | _ => rfl

end Simulation

/-- What draining a pipeline comes to: how the ticks end, and what they leave behind. -/
structure Drained (p : Pipeline) (outcomes : List Outcome) (left : Pipeline) (hs : List Happening) :
    Prop where
  /-- Where collection is refused, the first tick is the last, and the queue is as it was. -/
  refused : p.gate.isDisallowed = true →
    outcomes = [.consentBlocked] ∧ batchesOf hs = [] ∧ left.queue = p.queue
  /-- So it is where a batch has room for nothing. -/
  idle : p.gate.isDisallowed = false → p.settings.batchSize = 0 →
    outcomes = [.empty] ∧ batchesOf hs = [] ∧ left.queue = p.queue
  /-- Otherwise the queue is sent part by part, and one more tick finds it empty. -/
  emptied : p.gate.isDisallowed = false → 0 < p.settings.batchSize →
    ∃ parts, Chunked p.settings.batchSize.toNat p.queue.items parts ∧
      outcomes = parts.map (fun part => .sent part.length) ++ [.empty] ∧
      batchesOf hs = parts.map (Batch.ofImpressions · p.sdk) ∧
      left.queue.items = [] ∧ left.queue.losses = p.queue.losses

namespace Pipeline

/-- Each tick takes the next part. The induction is on the parts that are still to be sent. -/
theorem drains_chunks {p : Pipeline} (isOpen : p.gate.isDisallowed = false)
    (hsize : 0 < p.settings.batchSize.toNat) (accepts : p.transport.Accepts)
    (quiet : p.transport.late = []) {parts : List (List Impression)}
    (hparts : chunks p.settings.batchSize.toNat p.queue.items = parts) :
    ∃ left hs, p.Drains (parts.map (fun part => .sent part.length) ++ [.empty]) left hs ∧
      batchesOf hs = parts.map (Batch.ofImpressions · p.sdk) ∧
      left.queue.items = [] ∧ left.queue.losses = p.queue.losses := by
  induction parts generalizing p with
  | nil =>
    have hnone : p.queue.items = [] := by
      rw [← flatten_chunks hsize p.queue.items, hparts]
      rfl
    have hdue : p.due = [] := by rw [due, hnone, List.take_nil]
    have htick := answeredTick_of_none_due isOpen hdue
    have hlast := accepts.tick_eq.trans (congrArg some htick)
    refine ⟨_, _, .last hlast rfl, p.batchesOf_start, ?_, rfl⟩
    show p.queue.items.drop p.settings.batchSize.toNat = []
    rw [hnone, List.drop_nil]
  | cons part parts ih =>
    have hsome : p.queue.items ≠ [] := by
      intro hnone
      rw [hnone, chunks_nil hsize] at hparts
      cases hparts
    rw [chunks_of_ne_nil hsize hsome, List.cons.injEq] at hparts
    obtain ⟨rfl, hrest⟩ := hparts
    have hdue : p.due ≠ [] := by
      rw [due, Ne, List.take_eq_nil_iff]
      exact not_or.2 ⟨by omega, hsome⟩
    have hbatch : batchesOf p.answeredTick.2.2 = [.ofImpressions p.due p.sdk] := by
      rw [batchesOf_tick, if_neg (not_or.2 ⟨by rw [isOpen]; exact Bool.false_ne_true, hdue⟩)]
    have hreturns := accepts.tick_eq
    rcases htick : p.answeredTick with ⟨o, p', h⟩
    rw [htick] at hbatch hreturns
    cases Simulation.Ticks.of_tick accepts.failure quiet hreturns with
    | blocked closed => rw [isOpen] at closed; cases closed
    | empty _ hpoll => exact absurd hpoll hdue
    | sent _ hpoll =>
      -- the others are sent after it
      obtain ⟨left, hs, hmore, hbatches, hitems, hlosses⟩ :=
        ih (p := p.polled) isOpen hsize accepts quiet hrest
      refine ⟨left, h ++ hs, .again hreturns hmore, ?_, hitems, hlosses⟩
      rw [batchesOf_append, hbatch, hbatches]
      rfl

/-- Draining a pipeline whose transport accepts every batch, while nothing is offered, comes to an
end. Everything that waits is sent, once and in its order, unless collection is refused or a batch
has room for nothing. The loop of a simulation does the same. -/
theorem drained_of_accepts (p : Pipeline) (accepts : p.transport.Accepts)
    (quiet : p.transport.late = []) :
    ∃ outcomes left hs, p.Drains outcomes left hs ∧
      (∀ outcomes' left' hs', p.Drains outcomes' left' hs' →
        outcomes' = outcomes ∧ left' = left ∧ hs' = hs) ∧
      Simulation.drain p = ((outcomes.map Simulation.sentBy).sum, left, hs) ∧
      Drained p outcomes left hs := by
  suffices h : ∃ outcomes left hs, p.Drains outcomes left hs ∧ Drained p outcomes left hs by
    obtain ⟨outcomes, left, hs, hdrains, hdrained⟩ := h
    exact ⟨outcomes, left, hs, hdrains, fun _ _ _ h' => hdrains.unique h',
      Simulation.drain_eq_of_drains accepts quiet hdrains, hdrained⟩
  -- the two ways in which the first tick is the last, and then the parts of the queue
  cases hgate : p.gate.isDisallowed with
  | true =>
    have htick := answeredTick_of_disallowed hgate
    refine ⟨_, _, _, .last (accepts.tick_eq.trans (congrArg some htick)) rfl, ?_⟩
    exact {
      refused := fun _ => ⟨rfl, p.batchesOf_start, rfl⟩
      idle := fun isOpen => by rw [hgate] at isOpen; cases isOpen
      emptied := fun isOpen => by rw [hgate] at isOpen; cases isOpen }
  | false =>
    by_cases hsize : p.settings.batchSize = 0
    · have hzero : p.settings.batchSize.toNat = 0 := by rw [hsize]; rfl
      have hdue : p.due = [] := by rw [due, hzero, List.take_zero]
      have hpoll : (p.queue.poll p.settings.batchSize.toNat).2 = p.queue := by rw [hzero]; rfl
      have htick := answeredTick_of_none_due hgate hdue
      refine ⟨_, _, _, .last (accepts.tick_eq.trans (congrArg some htick)) rfl, ?_⟩
      exact {
        refused := fun closed => by rw [hgate] at closed; cases closed
        idle := fun _ _ => ⟨rfl, p.batchesOf_start, hpoll⟩
        emptied := fun _ hpos => by rw [hsize] at hpos; exact absurd hpos (by decide) }
    · have hpos : 0 < p.settings.batchSize.toNat := by
        have hne : p.settings.batchSize.toNat ≠ 0 := fun h => hsize (UInt64.toNat_inj.1 h)
        omega
      obtain ⟨left, hs, hdrains, hbatches, hitems, hlosses⟩ :=
        drains_chunks hgate hpos accepts quiet rfl
      refine ⟨_, left, hs, hdrains, ?_⟩
      exact {
        refused := fun closed => by rw [hgate] at closed; cases closed
        idle := fun _ hidle => absurd hidle hsize
        emptied := fun _ _ =>
          ⟨_, chunked_chunks hpos p.queue.items, rfl, hbatches, hitems, hlosses⟩ }

/-- Five impressions that are sent two at a time. -/
def backlog : Pipeline where
  queue := {
    capacity := 6
    overflow := .reject
    items := [{ id := "a" }, { id := "b" }, { id := "c" }, { id := "d" }, { id := "e" }]
    losses := 3 }
  settings := { batchSize := 2 }

/-- Three batches are sent, the last with one impression only. -/
theorem drained_backlog :
    backlog.transport.Accepts ∧ backlog.transport.late = [] ∧
    ∃ outcomes left hs, backlog.Drains outcomes left hs ∧ Drained backlog outcomes left hs ∧
      outcomes = [.sent 2, .sent 2, .sent 1, .empty] ∧
      Simulation.drain backlog = (5, left, hs) := by
  obtain ⟨outcomes, left, hs, hdrains, -, hloop, hdrained⟩ :=
    drained_of_accepts backlog ⟨rfl, rfl⟩ rfl
  obtain ⟨parts, hparts, houtcomes, -⟩ := hdrained.emptied (by decide +kernel) (by decide)
  have hfive : parts.flatten.length = 5 := by rw [hparts.flatten_eq]; rfl
  -- there are three parts, and the first two are full
  obtain ⟨x, y, z, rfl⟩ := List.length_eq_three.1 hparts.length_eq
  have hx : x.length = 2 := hparts.full x (by simp)
  have hy : y.length = 2 := hparts.full y (by simp)
  have hz : z.length = 1 := by
    simp only [List.flatten_cons, List.flatten_nil, List.length_append, List.length_nil] at hfive
    omega
  have hall : outcomes = [.sent 2, .sent 2, .sent 1, .empty] := by
    rw [houtcomes]
    simp [hx, hy, hz]
  rw [hall] at hloop
  exact ⟨⟨rfl, rfl⟩, rfl, outcomes, left, hs, hdrains, hdrained, hall, hloop⟩

end Pipeline

end ClientMetrics
