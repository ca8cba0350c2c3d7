import ClientMetrics.Queue.Basic

/-!
# Bursts of offers

Items are offered one after the other, with nothing in between. What such a burst leaves behind
depends only on the items in a row, those that waited before it and then those of the burst: the
queue keeps as many of them as it has room for, at the front or at the end (`Overflow.kept`).

Key results:
- `kept_kept_append`: what was lost earlier makes no difference to what is kept later.
- `items_burst`, `losses_burst`: what is kept, and how many are lost.
- `answers_burst`, `count_answers_burst`: which offers are taken, and how many.
- `survivors_burst`: all of this together, and that only the items in a row matter, not how they are
  cut into bursts (`bursts_eq`).
-/

namespace ClientMetrics

variable {α : Type}

/-- Of some items in a row, those that a queue of a given capacity keeps: the first ones where new
items are refused, the last ones where the oldest make room. -/
def Overflow.kept (policy : Overflow) (capacity : Nat) (items : List α) : List α :=
  match policy with
  | reject => items.take capacity
  | dropOldest => items.drop (items.length - capacity)

namespace Overflow

/-- Nothing is lost of what fits. -/
theorem kept_of_le (policy : Overflow) {capacity : Nat} {items : List α}
    (h : items.length ≤ capacity) : policy.kept capacity items = items := by
  cases policy with
  | reject => exact List.take_of_length_le h
  | dropOldest =>
    have hnone : items.length - capacity = 0 := by omega
    rw [kept, hnone, List.drop_zero]

/-- As many are kept as there are, or as there is room for. -/
@[simp] theorem length_kept (policy : Overflow) (capacity : Nat) (items : List α) :
    (policy.kept capacity items).length = min capacity items.length := by
  cases policy with
  | reject => exact List.length_take
  | dropOldest =>
    rw [kept, List.length_drop]
    omega

/-- What was lost of the items before does not matter to what is kept of all. -/
theorem kept_kept_append (policy : Overflow) (capacity : Nat) (items more : List α) :
    policy.kept capacity (policy.kept capacity items ++ more) =
      policy.kept capacity (items ++ more) := by
  by_cases hfits : items.length ≤ capacity
  · rw [policy.kept_of_le hfits]
  cases policy with
  | reject =>
    -- the queue is full of the first items, and nothing of what comes later is taken
    have hfull : (items.take capacity).length = capacity := by
      rw [List.length_take]
      omega
    show (items.take capacity ++ more).take capacity = (items ++ more).take capacity
    rw [List.take_append_of_le_length (by omega), List.take_append_of_le_length (by omega),
      List.take_take, Nat.min_self]
  | dropOldest =>
    -- as many make room as come later
    have hfull : (items.drop (items.length - capacity)).length = capacity := by
      rw [List.length_drop]
      omega
    show (items.drop (items.length - capacity) ++ more).drop
        ((items.drop (items.length - capacity) ++ more).length - capacity) =
      (items ++ more).drop ((items ++ more).length - capacity)
    have hroom : items.length - capacity + (capacity + more.length - capacity) =
        items.length + more.length - capacity := by omega
    have hrest : capacity + more.length - capacity - capacity =
        items.length + more.length - capacity - items.length := by omega
    rw [List.length_append, List.length_append, List.drop_append, List.drop_append, hfull,
      List.drop_drop, hroom, hrest]

end Overflow

namespace SendingQueue

/-! ## One offer -/

/-- An offer keeps what a queue of its capacity keeps of the items with the new one. -/
theorem items_offer_eq_kept (q : SendingQueue α) (item : α) :
    (q.offer item).2.items = q.overflow.kept q.capacity (q.items ++ [item]) := by
  rw [items_offer]
  rcases q.insert_cases item with
    ⟨hlt, -, -, hi⟩ | ⟨heq, ho, oldest, kept, hq, -, -, hi⟩ | ⟨heq, hfull, hsame⟩
  · rw [hi, Overflow.kept_of_le]
    rw [List.length_append, List.length_singleton]
    exact hlt
  · -- the oldest item is one too many
    rw [size, hq, List.length_cons] at heq
    have hone : (oldest :: kept ++ [item]).length - q.capacity = 1 := by
      rw [List.length_append, List.length_cons, List.length_singleton]
      omega
    rw [hi, ho, hq, Overflow.kept, hone]
    rfl
  · rw [size] at heq
    rw [hsame]
    cases ho : q.overflow with
    | reject =>
      rw [Overflow.kept, List.take_append_of_le_length (by omega),
        List.take_of_length_le (by omega)]
    | dropOldest =>
      -- without any capacity nothing is kept
      have hnone : q.capacity = 0 := hfull.resolve_left (by simp [ho])
      have hitems : q.items = [] := List.length_eq_zero_iff.1 (by omega)
      rw [Overflow.kept, hitems, hnone]
      rfl

/-- An offer is taken if there is room, or if there is something that can make room. -/
theorem offer_fst_eq (q : SendingQueue α) (item : α) :
    (q.offer item).1 = match q.overflow with
      | .reject => decide (q.size < q.capacity)
      | .dropOldest => decide (0 < q.capacity) := by
  rw [offer_fst]
  -- there is room, or the oldest item makes room, or the item is refused
  rcases q.insert_cases item with
    ⟨hlt, ht, -, -⟩ | ⟨heq, ho, oldest, kept, hq, ht, -, -⟩ | ⟨heq, hfull, hsame⟩
  · have hpos : 0 < q.capacity := by omega
    rw [ht]
    split <;> simp [hlt, hpos]
  · rw [size, hq, List.length_cons] at heq
    have hpos : 0 < q.capacity := by omega
    rw [ht, ho]
    simp [hpos]
  · rw [hsame]
    cases ho : q.overflow with
    | reject => simp [heq]
    | dropOldest =>
      have hnone : q.capacity = 0 := hfull.resolve_left (by simp [ho])
      simp [hnone]

/-! ## All offers -/

/-- Offers items one after the other. The answers say which of them were taken. -/
def burst (q : SendingQueue α) : List α → List Bool × SendingQueue α
  | [] => ([], q)
  | item :: items =>
    let (taken, q₁) := q.offer item
    let (answers, q₂) := q₁.burst items
    (taken :: answers, q₂)

@[simp] theorem burst_nil (q : SendingQueue α) : q.burst [] = ([], q) := rfl

/-- The first item is offered, and then the others to the queue that it leaves. -/
theorem burst_cons (q : SendingQueue α) (item : α) (items : List α) :
    q.burst (item :: items) =
      ((q.offer item).1 :: ((q.offer item).2.burst items).1, ((q.offer item).2.burst items).2) :=
  rfl

/-- A burst may be cut in two. -/
theorem burst_append (q : SendingQueue α) (items more : List α) :
    (q.burst (items ++ more)).2 = ((q.burst items).2.burst more).2 := by
  induction items generalizing q with
  | nil => rfl
  | cons item items ih => exact ih (q.offer item).2

@[simp] theorem capacity_burst (q : SendingQueue α) (items : List α) :
    (q.burst items).2.capacity = q.capacity := by
  induction items generalizing q with
  | nil => rfl
  | cons item items ih => exact (ih _).trans (q.capacity_offer item)

@[simp] theorem overflow_burst (q : SendingQueue α) (items : List α) :
    (q.burst items).2.overflow = q.overflow := by
  induction items generalizing q with
  | nil => rfl
  | cons item items ih => exact (ih _).trans (q.overflow_offer item)

/-- After a burst the queue holds what it keeps of what waited and what was offered. -/
theorem items_burst (q : SendingQueue α) (items : List α) :
    (q.burst items).2.items = q.overflow.kept q.capacity (q.items ++ items) := by
  -- each offer keeps what it can, and what it loses would not have been kept in the end either
  induction items generalizing q with
  | nil =>
    have hle := q.length_le
    rw [List.append_nil, Overflow.kept_of_le _ hle, burst_nil]
  | cons item items ih =>
    rw [burst_cons, ih, items_offer_eq_kept, overflow_offer, capacity_offer,
      Overflow.kept_kept_append, List.append_assoc, List.singleton_append]

/-- A queue grows until it is full. -/
theorem size_burst (q : SendingQueue α) (items : List α) :
    (q.burst items).2.size = min q.capacity (q.size + items.length) := by
  rw [size, items_burst, Overflow.length_kept, List.length_append, size]

theorem size_offer (q : SendingQueue α) (item : α) :
    (q.offer item).2.size = min q.capacity (q.size + 1) := q.size_burst [item]

/-- A burst loses as many items as there are too many. -/
theorem losses_burst (q : SendingQueue α) (items : List α) :
    (q.burst items).2.losses =
      q.losses + UInt64.ofNat (q.size + items.length - q.capacity) := by
  -- one item after the other is lost once the queue is full
  induction items generalizing q with
  | nil =>
    have hle : q.size ≤ q.capacity := q.length_le
    have hnone : q.size + ([] : List α).length - q.capacity = 0 := by
      rw [List.length_nil]
      omega
    rw [hnone]
    exact (UInt64.add_zero _).symm
  | cons item items ih =>
    have hle : q.size ≤ q.capacity := q.length_le
    rw [burst_cons, ih, losses_offer, capacity_offer, size_offer, UInt64.add_assoc,
      List.length_cons]
    congr 1
    by_cases hfull : q.isFull
    · -- one is lost now, and the queue stays full
      have hcapacity : q.capacity ≤ q.size := by simpa [isFull, size] using hfull
      have hmore : q.size + (items.length + 1) - q.capacity =
          1 + (min q.capacity (q.size + 1) + items.length - q.capacity) := by omega
      rw [if_pos hfull, hmore, UInt64.ofNat_add]
      rfl
    · have hroom : ¬q.capacity ≤ q.size := by simpa [isFull, size] using hfull
      have hmore : q.size + (items.length + 1) - q.capacity =
          min q.capacity (q.size + 1) + items.length - q.capacity := by omega
      rw [if_neg hfull, hmore, UInt64.zero_add]

/-- Where new items are refused the first ones are taken, as many as there is room for. Otherwise
all are taken, unless there is no capacity at all. -/
theorem answers_burst (q : SendingQueue α) (items : List α) :
    (q.burst items).1 = match q.overflow with
      | .reject => .replicate (min items.length (q.capacity - q.size)) true ++
          .replicate (items.length - (q.capacity - q.size)) false
      | .dropOldest => .replicate items.length (decide (0 < q.capacity)) := by
  induction items generalizing q with
  | nil => cases q.overflow <;> simp
  | cons item items ih =>
    have hanswer := q.offer_fst_eq item
    have hsize := q.size_offer item
    have hmore := ih (q.offer item).2
    rw [overflow_offer, capacity_offer, hsize] at hmore
    rw [burst_cons, hanswer, hmore, List.length_cons]
    -- where items are refused, those that are taken come before the others
    cases q.overflow with
    | dropOldest => rfl
    | reject =>
      by_cases hroom : q.size < q.capacity
      · have htaken : min (items.length + 1) (q.capacity - q.size) =
            min items.length (q.capacity - min q.capacity (q.size + 1)) + 1 := by omega
        have hrefused : items.length + 1 - (q.capacity - q.size) =
            items.length - (q.capacity - min q.capacity (q.size + 1)) := by omega
        simp only [hroom, decide_true, htaken, hrefused, List.replicate_succ, List.cons_append]
      · have hnone : q.capacity - q.size = 0 := by omega
        have hnone' : q.capacity - min q.capacity (q.size + 1) = 0 := by omega
        simp only [hroom, decide_false, hnone, hnone', Nat.min_zero, Nat.sub_zero,
          List.replicate_zero, List.nil_append, List.replicate_succ]

/-- How many offers of a burst are taken. -/
theorem count_answers_burst (q : SendingQueue α) (items : List α) :
    (q.burst items).1.count true = match q.overflow with
      | .reject => min items.length (q.capacity - q.size)
      | .dropOldest => if 0 < q.capacity then items.length else 0 := by
  rw [answers_burst]
  cases q.overflow with
  | reject => simp [List.count_append, List.count_replicate]
  | dropOldest => simp [List.count_replicate]

/-- The counter wraps around, and up to there it is exact. -/
theorem dropped_burst (q : SendingQueue α) (items : List α) :
    (q.burst items).2.dropped =
      (q.dropped + (q.size + items.length - q.capacity)) % UInt64.size := by
  rw [dropped, losses_burst, UInt64.toNat_add, UInt64.toNat_ofNat', Nat.add_mod_mod]
  rfl

/-! ## Bursts after bursts -/

/-- Where a burst is cut in two, the answers of its parts follow each other. -/
theorem answers_burst_append (q : SendingQueue α) (items more : List α) :
    (q.burst (items ++ more)).1 = (q.burst items).1 ++ ((q.burst items).2.burst more).1 := by
  induction items generalizing q with
  | nil => rfl
  | cons item items ih =>
    rw [List.cons_append, burst_cons, burst_cons, ih, List.cons_append]

/-- Bursts that follow each other, and the answers to all of their offers. -/
def bursts (q : SendingQueue α) : List (List α) → List Bool × SendingQueue α
  | [] => ([], q)
  | items :: parts =>
    let (answers, q₁) := q.burst items
    let (more, q₂) := q₁.bursts parts
    (answers ++ more, q₂)

/-- Bursts that follow each other are one burst. -/
theorem bursts_eq (q : SendingQueue α) (parts : List (List α)) :
    q.bursts parts = q.burst parts.flatten := by
  induction parts generalizing q with
  | nil => rfl
  | cons items parts ih =>
    -- the first burst, and then the others as one
    have hmore := ih (q.burst items).2
    show ((q.burst items).1 ++ ((q.burst items).2.bursts parts).1,
      ((q.burst items).2.bursts parts).2) = _
    rw [hmore, List.flatten_cons]
    exact Prod.ext (q.answers_burst_append items _).symm (q.burst_append items _).symm

/-- What some offers, one after the other, leave of a queue and are answered. -/
structure Survivors (q : SendingQueue α) (items : List α) (answers : List Bool)
    (after : SendingQueue α) : Prop where
  capacity_eq : after.capacity = q.capacity
  overflow_eq : after.overflow = q.overflow
  /-- Of all items in a row, the first ones are left where new ones are refused, and the last ones
  where the oldest make room. -/
  items_eq : after.items = match q.overflow with
    | .reject => (q.items ++ items).take q.capacity
    | .dropOldest => (q.items ++ items).drop ((q.items ++ items).length - q.capacity)
  /-- Those that are too many are counted, whatever the policy. -/
  losses_eq : after.losses =
    q.losses + UInt64.ofNat (q.items.length + items.length - q.capacity)
  /-- The counter is exact until it wraps around. -/
  dropped_eq : q.dropped + (q.items.length + items.length - q.capacity) < UInt64.size →
    after.dropped = q.dropped + (q.items.length + items.length - q.capacity)
  /-- The first offers are taken, as many as there is room for, or all of them, if there is any
  capacity at all. -/
  answers_eq : answers = match q.overflow with
    | .reject => .replicate (min items.length (q.capacity - q.items.length)) true ++
        .replicate (items.length - (q.capacity - q.items.length)) false
    | .dropOldest => .replicate items.length (decide (0 < q.capacity))

/-- What survives a burst is determined by the items in a row, whatever the state of the queue
before it. It makes no difference how the burst is cut into others that follow each other. -/
theorem survivors_burst (q : SendingQueue α) :
    (∀ items : List α, Survivors q items (q.burst items).1 (q.burst items).2) ∧
      ∀ parts : List (List α), q.bursts parts = q.burst parts.flatten := by
  refine ⟨fun items => ?_, q.bursts_eq⟩
  have hdropped := q.dropped_burst items
  exact {
    capacity_eq := q.capacity_burst items
    overflow_eq := q.overflow_burst items
    items_eq := q.items_burst items
    losses_eq := q.losses_burst items
    dropped_eq := fun hfits => by rw [hdropped]; exact Nat.mod_eq_of_lt hfits
    answers_eq := q.answers_burst items }

/-- Of a queue of two that holds one item and is offered three more, the first two are left. -/
example : (({ capacity := 2, overflow := .reject, items := [1] } : SendingQueue Nat).bursts
    [[2, 3], [4]]).2.items = [1, 2] := by
  decide

end SendingQueue

end ClientMetrics
