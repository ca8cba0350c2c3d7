/-!
# The sending queue

A first-in first-out queue that never holds more than its capacity. When it is full, the overflow
policy says whether the new item is refused or the oldest one makes room. Every item lost to a
full queue is counted.

An offer has two parts. The item goes in under the lock of the queue (`insert`); if something was
lost, that is counted once the lock is released (`recordLoss`). A poll takes the lock once.

The view of a queue is `items`, oldest first:

* `insert_cases` — an item that fits is appended; in a full queue it replaces the oldest or is
  refused;
* `items_poll` — a poll removes what it returns from the front.
-/

namespace ClientMetrics

/-- What happens to an item that is offered to a full queue. -/
inductive Overflow where
  /-- The new item is refused. -/
  | reject
  /-- The oldest item makes room for the new one. -/
  | dropOldest
  deriving DecidableEq, Repr

/-- The name of a policy in configuration files and tags. -/
def Overflow.name : Overflow → String
  | reject => "reject"
  | dropOldest => "drop_oldest"

/-- Settings of the sending queue. -/
structure QueueSettings where
  capacity : UInt64 := 250
  overflow : Overflow := .reject
  deriving DecidableEq, Repr

/-- A queue with a capacity, a policy and the number of items it has lost. -/
structure SendingQueue (α : Type) where
  capacity : Nat
  overflow : Overflow
  items : List α := []
  /-- The counter of lost items. -/
  losses : UInt64 := 0
  length_le : items.length ≤ capacity := by simp
  deriving Repr

namespace SendingQueue

variable {α : Type}

/-- An empty queue with the given settings. -/
def ofSettings (s : QueueSettings) : SendingQueue α where
  capacity := s.capacity.toNat
  overflow := s.overflow

/-- The number of items waiting. -/
def size (q : SendingQueue α) : Nat := q.items.length

/-- Nothing is waiting. -/
def isEmpty (q : SendingQueue α) : Bool := q.items.isEmpty

/-- The number of items lost, as far as they are counted. -/
def dropped (q : SendingQueue α) : Nat := q.losses.toNat

/-- The next offer loses an item. -/
def isFull (q : SendingQueue α) : Bool := q.capacity ≤ q.items.length

/-- Puts an item into the queue. The answer says whether it was taken, and names the item that made
room for it, if one had to. -/
def insert (q : SendingQueue α) (item : α) : Bool × Option α × SendingQueue α :=
  if fits : q.items.length < q.capacity then
    (true, none, { q with
      items := q.items ++ [item]
      length_le := by simp only [List.length_append, List.length_singleton]; omega })
  -- without any capacity there is no oldest item that could make room
  else if evicts : q.overflow = .dropOldest ∧ 0 < q.capacity then
    (true, q.items.head?, { q with
      items := q.items.tail ++ [item]
      length_le := by
        have := q.length_le
        simp only [List.length_append, List.length_tail, List.length_singleton]; omega })
  else
    (false, none, q)

/-- Counts a lost item. -/
def recordLoss (q : SendingQueue α) : SendingQueue α := { q with losses := q.losses + 1 }

/-- Offers an item. The answer says whether it was taken. -/
def offer (q : SendingQueue α) (item : α) : Bool × SendingQueue α :=
  let (taken, _, q') := q.insert item
  -- full before the insertion: an item is lost, whichever it is
  (taken, if q.isFull then q'.recordLoss else q')

/-- Removes up to `max` items from the front and returns them, oldest first. -/
def poll (q : SendingQueue α) (max : Nat) : List α × SendingQueue α :=
  (q.items.take max, { q with
    items := q.items.drop max
    length_le := by have := q.length_le; simp only [List.length_drop]; omega })

/-! ## Views of the operations -/

/-- A queue from its settings holds nothing. -/
@[simp] theorem items_ofSettings (s : QueueSettings) :
    (ofSettings s : SendingQueue α).items = [] := rfl

@[simp] theorem losses_ofSettings (s : QueueSettings) :
    (ofSettings s : SendingQueue α).losses = 0 := rfl

/-- A poll removes from the front. -/
@[simp] theorem items_poll (q : SendingQueue α) (max : Nat) :
    (q.poll max).2.items = q.items.drop max := rfl

@[simp] theorem poll_fst (q : SendingQueue α) (max : Nat) :
    (q.poll max).1 = q.items.take max := rfl

@[simp] theorem losses_poll (q : SendingQueue α) (max : Nat) :
    (q.poll max).2.losses = q.losses := rfl

@[simp] theorem capacity_poll (q : SendingQueue α) (max : Nat) :
    (q.poll max).2.capacity = q.capacity := rfl

@[simp] theorem overflow_poll (q : SendingQueue α) (max : Nat) :
    (q.poll max).2.overflow = q.overflow := rfl

@[simp] theorem items_recordLoss (q : SendingQueue α) : q.recordLoss.items = q.items := rfl

@[simp] theorem losses_recordLoss (q : SendingQueue α) : q.recordLoss.losses = q.losses + 1 := rfl

@[simp] theorem capacity_recordLoss (q : SendingQueue α) : q.recordLoss.capacity = q.capacity := rfl

@[simp] theorem overflow_recordLoss (q : SendingQueue α) : q.recordLoss.overflow = q.overflow := rfl

/-- All that an insertion can do. -/
theorem insert_cases (q : SendingQueue α) (item : α) :
    (q.size < q.capacity ∧ (q.insert item).1 = true ∧ (q.insert item).2.1 = none ∧
      (q.insert item).2.2.items = q.items ++ [item]) ∨
    (q.size = q.capacity ∧ q.overflow = .dropOldest ∧ ∃ oldest kept, q.items = oldest :: kept ∧
      (q.insert item).1 = true ∧ (q.insert item).2.1 = some oldest ∧
      (q.insert item).2.2.items = kept ++ [item]) ∨
    (q.size = q.capacity ∧ (q.overflow = .reject ∨ q.capacity = 0) ∧
      q.insert item = (false, none, q)) := by
  have hle := q.length_le
  unfold insert size
  by_cases fits : q.items.length < q.capacity
  · simp [fits]
  · -- a full queue makes room only if the policy says so and there is an oldest item
    by_cases evicts : q.overflow = .dropOldest ∧ 0 < q.capacity
    · obtain ⟨oldest, kept, hitems⟩ : ∃ oldest kept, q.items = oldest :: kept :=
        List.exists_cons_of_length_pos (by omega)
      refine .inr (.inl ⟨by omega, evicts.1, oldest, kept, hitems, ?_⟩)
      rw [dif_neg fits, dif_pos evicts]
      simp [hitems]
    · refine .inr (.inr ⟨by omega, ?_, by rw [dif_neg fits, dif_neg evicts]⟩)
      cases ho : q.overflow with
      | reject => exact .inl rfl
      | dropOldest => exact .inr (by simp only [ho, true_and] at evicts; omega)

/-- An insertion does not count what it loses: that is done once the lock is released. -/
@[simp] theorem losses_insert (q : SendingQueue α) (item : α) :
    (q.insert item).2.2.losses = q.losses := by
  unfold insert
  split
  · rfl
  · split <;> rfl

/-- An insertion leaves the bound alone. -/
@[simp] theorem capacity_insert (q : SendingQueue α) (item : α) :
    (q.insert item).2.2.capacity = q.capacity := by
  unfold insert
  split
  · rfl
  · split <;> rfl

/-- An insertion leaves the policy alone. -/
@[simp] theorem overflow_insert (q : SendingQueue α) (item : α) :
    (q.insert item).2.2.overflow = q.overflow := by
  unfold insert
  split
  · rfl
  · split <;> rfl

/-- An offer answers what its insertion does. -/
@[simp] theorem offer_fst (q : SendingQueue α) (item : α) :
    (q.offer item).1 = (q.insert item).1 := rfl

/-- It leaves what its insertion does, with one more loss if the queue was full. -/
theorem offer_snd (q : SendingQueue α) (item : α) :
    (q.offer item).2 = if q.isFull then (q.insert item).2.2.recordLoss else (q.insert item).2.2 :=
  rfl

@[simp] theorem items_offer (q : SendingQueue α) (item : α) :
    (q.offer item).2.items = (q.insert item).2.2.items := by
  rw [offer_snd]; split <;> rfl

@[simp] theorem capacity_offer (q : SendingQueue α) (item : α) :
    (q.offer item).2.capacity = q.capacity := by
  rw [offer_snd]; split <;> simp

@[simp] theorem overflow_offer (q : SendingQueue α) (item : α) :
    (q.offer item).2.overflow = q.overflow := by
  rw [offer_snd]; split <;> simp

/-- An offer loses an item exactly if the queue was full. -/
theorem losses_offer (q : SendingQueue α) (item : α) :
    (q.offer item).2.losses = q.losses + if q.isFull then 1 else 0 := by
  rw [offer_snd]; split <;> simp

/-- The text that shows the state of a queue. -/
def summary (q : SendingQueue α) : String :=
  let overflow := match q.overflow with
    | .reject => "Reject"
    | .dropOldest => "DropOldest"
  "BoundedSendingQueue \x7b size: " ++ toString q.size ++ ", capacity: " ++ toString q.capacity
    ++ ", overflow: " ++ overflow ++ ", dropped: " ++ toString q.dropped ++ " \x7d"

end SendingQueue

end ClientMetrics
