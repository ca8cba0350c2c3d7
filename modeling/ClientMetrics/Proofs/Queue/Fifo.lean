import ClientMetrics.Queue.Basic
import Mathlib.Algebra.Group.Nat.Defs

/-!
# First in, first out

A queue is shared by any number of producers and drainers. Each access takes the lock once, so what
the threads do together is one sequence of accesses (`Access`), in the order in which they get the
lock. An offer counts what it loses only after it has released the lock; other accesses may come in
between. `Shared` is the queue with the losses that are still to be counted and a log of what the
accesses did.

* `Ordered` — what was removed so far, followed by the buffer, is what was taken so far;
* `Counted` — every lost item is counted, or is still to be counted;
* `Deed.Allowed` — the overflow policy allows what an access did: `reject` evicts nothing, and
  `dropOldest` refuses nothing as long as there is any capacity;
* `fifo_run` — all three hold after every sequence of accesses, and what follows from them.
-/

namespace ClientMetrics

namespace SendingQueue

variable {α : Type}

/-- One access of a thread to a shared queue. -/
inductive Access (α : Type) where
  /-- A whole offer, with no other access between its parts. -/
  | offer (item : α)
  /-- The part of an offer under the lock. What it loses is counted later. -/
  | insert (item : α)
  /-- One of the losses that are still to be counted is counted. -/
  | recordLoss
  | poll (max : Nat)

/-- What an access did to the buffer. -/
inductive Deed (α : Type) where
  | offered (item : α) (taken : Bool) (evicted : Option α)
  | polled (items : List α)

namespace Deed

/-- The item that went into the buffer. -/
def accepted : Deed α → List α
  | offered item true _ => [item]
  | _ => []

/-- The items that left the buffer, oldest first. -/
def removed : Deed α → List α
  | offered _ _ evicted => evicted.toList
  | polled items => items

/-- The items that are lost: the one that was refused, and the one that was evicted. -/
def lost : Deed α → List α
  | offered item taken evicted => (if taken then [] else [item]) ++ evicted.toList
  | polled _ => []

/-- The result of a poll. -/
def returned : Deed α → List (List α)
  | offered .. => []
  | polled items => [items]

/-- What an offer to a queue of this policy and capacity may come to. -/
def Allowed (overflow : Overflow) (capacity : Nat) : Deed α → Prop
  | offered _ taken evicted => (overflow = .reject → evicted = none) ∧
      (overflow = .dropOldest → 0 < capacity → taken = true)
  | polled _ => True

end Deed

/-- A queue that is used by several threads. -/
structure Shared (α : Type) where
  queue : SendingQueue α
  /-- The number of losses that are still to be counted. -/
  owed : Nat := 0
  /-- What the accesses did, the first one first. -/
  log : List (Deed α) := []

namespace Shared

/-- A queue that nobody has used yet. -/
def idle (capacity : Nat) (overflow : Overflow) : Shared α where
  queue := { capacity, overflow }

/-- The items that went into the buffer, in order. -/
def accepted (s : Shared α) : List α := s.log.flatMap Deed.accepted

/-- The items that left the buffer, in order. -/
def removed (s : Shared α) : List α := s.log.flatMap Deed.removed

/-- The items that were refused or evicted. -/
def lost (s : Shared α) : List α := s.log.flatMap Deed.lost

/-- The results of the polls, in order. -/
def returned (s : Shared α) : List (List α) := s.log.flatMap Deed.returned

/-- Counts one of the losses that are still to be counted, if there is one. -/
def settle (s : Shared α) : Shared α :=
  if s.owed = 0 then s else { s with queue := s.queue.recordLoss, owed := s.owed - 1 }

/-- One access. -/
def access (s : Shared α) : Access α → Shared α
  | .offer item => { s with
      queue := (s.queue.offer item).2
      log := s.log ++ [.offered item (s.queue.offer item).1 (s.queue.insert item).2.1] }
  | .insert item => {
      queue := (s.queue.insert item).2.2
      owed := s.owed + if s.queue.isFull then 1 else 0
      log := s.log ++ [.offered item (s.queue.insert item).1 (s.queue.insert item).2.1] }
  | .recordLoss => s.settle
  | .poll max => { s with
      queue := (s.queue.poll max).2
      log := s.log ++ [.polled (s.queue.poll max).1] }

/-- Accesses one after the other. -/
def run (s : Shared α) (accesses : List (Access α)) : Shared α := accesses.foldl access s

@[simp] theorem run_nil (s : Shared α) : s.run [] = s := rfl

@[simp] theorem run_cons (s : Shared α) (a : Access α) (accesses : List (Access α)) :
    s.run (a :: accesses) = (s.access a).run accesses := rfl

end Shared

/-! ## One access -/

/-- An item went into the buffer if it was taken. -/
@[simp] theorem Deed.accepted_offered (item : α) (taken : Bool) (evicted : Option α) :
    (offered item taken evicted).accepted = if taken then [item] else [] := by
  cases taken <;> rfl

/-- An insertion moves what it evicts out of the buffer and what it takes into it. -/
theorem insert_balance (q : SendingQueue α) (item : α) :
    (q.insert item).2.1.toList ++ (q.insert item).2.2.items =
      q.items ++ if (q.insert item).1 then [item] else [] := by
  rcases q.insert_cases item with ⟨-, ht, he, hi⟩ | ⟨-, -, oldest, kept, hq, ht, he, hi⟩ | ⟨-, -, h⟩
  · simp [ht, he, hi]
  · simp [ht, he, hi, hq]
  · simp [h]

/-- An insertion does what the policy of the queue allows. -/
theorem allowed_insert (q : SendingQueue α) (item : α) :
    (Deed.offered item (q.insert item).1 (q.insert item).2.1).Allowed q.overflow q.capacity := by
  rcases q.insert_cases item with ⟨-, ht, he, -⟩ | ⟨-, hpolicy, _, _, -, ht, -⟩ | ⟨-, hpolicy, hq⟩
  · -- there is room for the item
    exact ⟨fun _ => he, fun _ _ => ht⟩
  · -- the oldest item makes room, which `reject` never asks it to
    exact ⟨fun hreject => (by rw [hpolicy] at hreject; cases hreject), fun _ _ => ht⟩
  · -- the item is refused, which takes `reject` or a queue without capacity
    refine ⟨fun _ => by rw [hq], fun hdrop hcapacity => ?_⟩
    rcases hpolicy with hreject | hzero
    · rw [hdrop] at hreject; cases hreject
    · omega

/-- An insertion loses one item if the queue is full, and none otherwise. -/
theorem length_lost_insert (q : SendingQueue α) (item : α) :
    (Deed.offered item (q.insert item).1 (q.insert item).2.1).lost.length =
      if q.isFull then 1 else 0 := by
  rcases q.insert_cases item with ⟨hlt, ht, he, -⟩ | ⟨heq, -, _, _, -, ht, he, -⟩ | ⟨heq, -, h⟩
  · have hroom : ¬q.capacity ≤ q.items.length := Nat.not_le.mpr hlt
    simp [Deed.lost, isFull, ht, he, hroom]
  · have hfull : q.capacity ≤ q.items.length := Nat.le_of_eq heq.symm
    simp [Deed.lost, isFull, ht, he, hfull]
  · have hfull : q.capacity ≤ q.items.length := Nat.le_of_eq heq.symm
    simp [Deed.lost, isFull, h, hfull]

namespace Shared

/-- The items that left the buffer, followed by those in it, are the items that went in. -/
def Ordered (s : Shared α) : Prop := s.removed ++ s.queue.items = s.accepted

/-- The counter and the losses that are still to be counted make up what was lost. The counter wraps
around. -/
structure Counted (s : Shared α) : Prop where
  mod_eq : (s.queue.dropped + s.owed) % 2 ^ 64 = s.lost.length % 2 ^ 64
  owed_le : s.owed ≤ s.lost.length

/-- Every access keeps the order: what it removes comes from the front, and what it takes goes to
the end. -/
theorem Ordered.access {s : Shared α} (h : s.Ordered) (a : Access α) : (s.access a).Ordered := by
  unfold Ordered removed accepted at h ⊢
  cases a with
  | offer item =>
    -- counting a loss leaves the buffer alone, so this is the insertion
    have hb := s.queue.insert_balance item
    simp only [Shared.access, List.flatMap_append, List.flatMap_singleton, Deed.removed,
      Deed.accepted_offered, items_offer, offer_fst, List.append_assoc, hb]
    rw [← List.append_assoc, h]
  | insert item =>
    have hb := s.queue.insert_balance item
    simp only [Shared.access, List.flatMap_append, List.flatMap_singleton, Deed.removed,
      Deed.accepted_offered, List.append_assoc, hb]
    rw [← List.append_assoc, h]
  | recordLoss =>
    simp only [Shared.access, settle]
    split <;> exact h
  | poll max =>
    -- what is polled leaves the front of the buffer
    simp only [Shared.access, List.flatMap_append, List.flatMap_singleton, Deed.removed,
      Deed.accepted, poll_fst, items_poll, List.append_nil, List.append_assoc,
      List.take_append_drop]
    exact h

/-- Every access keeps count: what it loses is counted at once or owed. -/
theorem Counted.access {s : Shared α} (h : s.Counted) (a : Access α) : (s.access a).Counted := by
  obtain ⟨hm, ho⟩ := h
  cases a with
  | offer item =>
    -- a whole offer counts its loss at once
    have hl := s.queue.length_lost_insert item
    have hc : (s.queue.offer item).2.dropped =
        (s.queue.dropped + if s.queue.isFull then 1 else 0) % 2 ^ 64 := by
      unfold dropped
      rw [losses_offer]
      split <;> simp
    refine ⟨?_, ?_⟩ <;>
      simp only [Shared.access, lost, List.flatMap_append, List.flatMap_singleton,
        List.length_append, offer_fst, hl, hc] at hm ho ⊢ <;> omega
  | insert item =>
    -- the loss is owed and not yet counted
    have hl := s.queue.length_lost_insert item
    have hc : (s.queue.insert item).2.2.dropped = s.queue.dropped := by simp [dropped]
    refine ⟨?_, ?_⟩ <;>
      simp only [Shared.access, lost, List.flatMap_append, List.flatMap_singleton,
        List.length_append, hl, hc] at hm ho ⊢ <;> omega
  | recordLoss =>
    simp only [Shared.access, settle]
    split
    next => exact ⟨hm, ho⟩
    next owes =>
      -- the counter may wrap around here, which `mod_eq` allows for
      have hc : s.queue.recordLoss.dropped = (s.queue.dropped + 1) % 2 ^ 64 := by
        simp [dropped]
      refine ⟨?_, ?_⟩ <;> simp only [lost, hc] at hm ho ⊢ <;> omega
  | poll max =>
    have hc : (s.queue.poll max).2.dropped = s.queue.dropped := rfl
    refine ⟨?_, ?_⟩ <;>
      simp only [Shared.access, lost, List.flatMap_append, List.flatMap_singleton, Deed.lost,
        List.append_nil, hc] at hm ho ⊢ <;> omega

/-- No access changes the capacity. -/
theorem capacity_access (s : Shared α) (a : Access α) :
    (s.access a).queue.capacity = s.queue.capacity := by
  cases a with
  | recordLoss => simp only [access, settle]; split <;> rfl
  | _ => simp [access]

/-- No access changes the policy. -/
theorem overflow_access (s : Shared α) (a : Access α) :
    (s.access a).queue.overflow = s.queue.overflow := by
  cases a with
  | recordLoss => simp only [access, settle]; split <;> rfl
  | _ => simp [access]

/-- Every access so far did what the policy of the queue allows. -/
def Lawful (s : Shared α) : Prop :=
  ∀ deed ∈ s.log, deed.Allowed s.queue.overflow s.queue.capacity

/-- An access adds at most one entry to the log, and the policy allows that one. -/
theorem Lawful.access {s : Shared α} (h : s.Lawful) (a : Access α) : (s.access a).Lawful := by
  unfold Lawful at h ⊢
  rw [s.overflow_access a, s.capacity_access a]
  have hinsert := fun item => s.queue.allowed_insert item
  intro deed hdeed
  cases a with
  | offer item =>
    simp only [Shared.access, List.mem_append, List.mem_singleton] at hdeed
    rcases hdeed with hdeed | rfl
    · exact h deed hdeed
    · exact hinsert item
  | insert item =>
    simp only [Shared.access, List.mem_append, List.mem_singleton] at hdeed
    rcases hdeed with hdeed | rfl
    · exact h deed hdeed
    · exact hinsert item
  | recordLoss =>
    -- counting a loss writes nothing into the log
    have hlog : (s.access .recordLoss).log = s.log := by
      simp only [Shared.access, settle]; split <;> rfl
    exact h deed (hlog ▸ hdeed)
  | poll max =>
    simp only [Shared.access, List.mem_append, List.mem_singleton] at hdeed
    rcases hdeed with hdeed | rfl
    · exact h deed hdeed
    · trivial

/-! ## All accesses -/

/-- What every access preserves holds after every sequence of accesses. -/
theorem run_induction {P : Shared α → Prop} (step : ∀ s a, P s → P (s.access a)) {s : Shared α}
    (h : P s) (accesses : List (Access α)) : P (s.run accesses) := by
  induction accesses generalizing s with
  | nil => exact h
  | cons a accesses ih => exact ih (step s a h)

/-- The order holds after every sequence of accesses. -/
theorem ordered_run {s : Shared α} (h : s.Ordered) (accesses : List (Access α)) :
    (s.run accesses).Ordered :=
  run_induction (fun _ a h => h.access a) h accesses

theorem counted_run {s : Shared α} (h : s.Counted) (accesses : List (Access α)) :
    (s.run accesses).Counted :=
  run_induction (fun _ a h => h.access a) h accesses

theorem capacity_run (s : Shared α) (accesses : List (Access α)) :
    (s.run accesses).queue.capacity = s.queue.capacity :=
  run_induction (P := fun t => t.queue.capacity = s.queue.capacity)
    (fun t a h => (t.capacity_access a).trans h) rfl accesses

theorem overflow_run (s : Shared α) (accesses : List (Access α)) :
    (s.run accesses).queue.overflow = s.queue.overflow :=
  run_induction (P := fun t => t.queue.overflow = s.queue.overflow)
    (fun t a h => (t.overflow_access a).trans h) rfl accesses

/-- After every sequence of accesses all of them did what the policy allows. -/
theorem lawful_run {s : Shared α} (h : s.Lawful) (accesses : List (Access α)) :
    (s.run accesses).Lawful :=
  run_induction (fun _ a h => h.access a) h accesses

/-! ## What follows from the order -/

/-- What the polls returned was removed, in the same order, and evictions come in between. -/
theorem returned_sublist_removed (log : List (Deed α)) :
    (log.flatMap Deed.returned).flatten.Sublist (log.flatMap Deed.removed) := by
  induction log with
  | nil => exact List.Sublist.refl _
  | cons deed log ih =>
    rw [List.flatMap_cons, List.flatMap_cons, List.flatten_append]
    refine List.Sublist.append ?_ ih
    -- an offer may evict an item, which no poll returns
    cases deed with
    | offered _ _ evicted => exact List.nil_sublist _
    | polled items => simp [Deed.returned, Deed.removed]

/-- What was removed is the front of what went in. -/
theorem Ordered.removed_prefix {s : Shared α} (h : s.Ordered) : s.removed <+: s.accepted :=
  ⟨s.queue.items, h⟩

/-- What a poll returned stands in the order of acceptance right after what was removed before. -/
theorem Ordered.contiguous {s : Shared α} (h : s.Ordered) {before after : List (Deed α)}
    {items : List α} (hlog : s.log = before ++ .polled items :: after) :
    before.flatMap Deed.removed ++ items <+: s.accepted := by
  refine List.IsPrefix.trans ⟨after.flatMap Deed.removed, ?_⟩ h.removed_prefix
  simp [removed, hlog, Deed.removed]

/-- Where nothing is evicted, the polls are the only way out of the buffer. -/
theorem removed_eq_returned {log : List (Deed α)}
    (h : ∀ item taken evicted, .offered item taken evicted ∈ log → evicted = none) :
    log.flatMap Deed.removed = (log.flatMap Deed.returned).flatten := by
  induction log with
  | nil => rfl
  | cons deed log ih =>
    rw [List.flatMap_cons, List.flatMap_cons, List.flatten_append,
      ih fun item taken evicted hmem => h item taken evicted (List.mem_cons_of_mem _ hmem)]
    congr 1
    -- an offer that evicts nothing removes nothing
    cases deed with
    | offered item taken evicted =>
      have hnone : evicted = none := h item taken evicted List.mem_cons_self
      simp [Deed.removed, Deed.returned, hnone]
    | polled items => simp [Deed.removed, Deed.returned]

/-- As long as the counter has not wrapped around, it and what is owed make up what was lost. -/
theorem Counted.dropped_eq {s : Shared α} (h : s.Counted) (hlost : s.lost.length < 2 ^ 64) :
    s.queue.dropped + s.owed = s.lost.length := by
  -- neither side of the congruence reaches the modulus
  have hd : s.queue.dropped < 2 ^ 64 := s.queue.losses.toNat_lt
  have hm := h.mod_eq
  have ho := h.owed_le
  omega

end Shared

/-- An access that is a whole call. -/
def Access.isCall : Access α → Bool
  | offer _ => true
  | insert _ => false
  | recordLoss => false
  | poll _ => true

/-- Whole calls leave nothing to be counted. -/
theorem Shared.owed_run_of_isCall (s : Shared α) {accesses : List (Access α)}
    (h : ∀ a ∈ accesses, a.isCall) : (s.run accesses).owed = s.owed := by
  induction accesses generalizing s with
  | nil => rfl
  | cons a accesses ih =>
    rw [run_cons, ih _ fun b hb => h b (List.mem_cons_of_mem _ hb)]
    -- a call records its loss itself; the two that could owe one are no calls
    cases a with
    | offer item => rfl
    | poll max => rfl
    | insert item => exact absurd (h _ List.mem_cons_self) (by simp [Access.isCall])
    | recordLoss => exact absurd (h _ List.mem_cons_self) (by simp [Access.isCall])

/-- An offer that is refused changes nothing in the buffer, which is full. -/
theorem items_offer_of_refused {q : SendingQueue α} {item : α} (h : (q.offer item).1 = false) :
    (q.offer item).2.items = q.items ∧ q.size = q.capacity := by
  rw [offer_fst] at h
  rw [items_offer]
  rcases q.insert_cases item with ⟨-, ht, -⟩ | ⟨-, -, _, _, -, ht, -⟩ | ⟨heq, -, hq⟩
  · rw [h] at ht; cases ht
  · rw [h] at ht; cases ht
  · exact ⟨by rw [hq], heq⟩

/-- An offer that is taken puts the item at the end of the buffer. Others make room for it only if
the buffer is full and the policy is to drop the oldest. -/
theorem items_offer_of_taken {q : SendingQueue α} {item : α} (h : (q.offer item).1 = true) :
    ∃ evicted kept, q.items = evicted ++ kept ∧ (q.offer item).2.items = kept ++ [item] ∧
      (evicted ≠ [] → q.size = q.capacity ∧ q.overflow = .dropOldest) := by
  rw [offer_fst] at h
  rw [items_offer]
  rcases q.insert_cases item with
    ⟨-, -, -, hi⟩ | ⟨heq, hpolicy, oldest, kept, hq, -, -, hi⟩ | ⟨-, -, hq⟩
  · exact ⟨[], q.items, rfl, hi, fun hne => absurd rfl hne⟩
  · exact ⟨[oldest], kept, hq, hi, fun _ => ⟨heq, hpolicy⟩⟩
  · rw [hq] at h; cases h

/-! ## The contract of the queue -/

/-- What a queue of a given capacity and policy promises to all that use it. -/
structure Fifo (capacity : Nat) (overflow : Overflow) (s : Shared α) : Prop where
  size_le : s.queue.size ≤ capacity
  /-- What left the buffer, followed by what is in it, is what went in, in the same order. -/
  ordered : s.removed ++ s.queue.items = s.accepted
  /-- Nothing that went in is returned twice. -/
  returned_once : s.returned.flatten.Sublist s.accepted
  /-- A poll returns what comes next in the order, without a gap. -/
  contiguous : ∀ before items after, s.log = before ++ .polled items :: after →
    before.flatMap Deed.removed ++ items <+: s.accepted
  /-- An offer that is refused loses its own item, and only in a full buffer. -/
  refused : ∀ item, (s.queue.offer item).1 = false →
    (s.queue.offer item).2.items = s.queue.items ∧ s.queue.size = capacity
  /-- An offer that is taken keeps its own item, and evicts others only from a full buffer whose
  policy is to drop the oldest. -/
  taken : ∀ item, (s.queue.offer item).1 = true →
    ∃ evicted kept, s.queue.items = evicted ++ kept ∧
      (s.queue.offer item).2.items = kept ++ [item] ∧
      (evicted ≠ [] → s.queue.size = capacity ∧ overflow = .dropOldest)
  /-- Under `reject` no offer has evicted anything. -/
  unevicted : overflow = .reject →
    ∀ item taken evicted, .offered item taken evicted ∈ s.log → evicted = none
  /-- Under `reject` what left the buffer is what the polls returned, and nothing else. -/
  removed_eq : overflow = .reject → s.removed = s.returned.flatten
  /-- Under `dropOldest` no offer was refused, unless there is no capacity at all. -/
  admitted : overflow = .dropOldest → 0 < capacity →
    ∀ item taken evicted, .offered item taken evicted ∈ s.log → taken = true
  /-- Every item that was refused or evicted is counted, or is still to be counted. -/
  counted : s.lost.length < 2 ^ 64 → s.queue.dropped + s.owed = s.lost.length

/-- Whatever is done to a queue that starts empty, it keeps its promise. Nothing is left to be
counted if all accesses are whole calls. -/
theorem fifo_run (capacity : Nat) (overflow : Overflow) (accesses : List (Access α)) :
    Fifo capacity overflow ((Shared.idle capacity overflow).run accesses) ∧
      ((∀ a ∈ accesses, a.isCall) → ((Shared.idle capacity overflow).run accesses).owed = 0) := by
  -- each part is an invariant of single accesses, carried over the run
  generalize hs : (Shared.idle capacity overflow).run accesses = s
  have hcap : s.queue.capacity = capacity := hs ▸ Shared.capacity_run _ accesses
  have hpolicy : s.queue.overflow = overflow := hs ▸ Shared.overflow_run _ accesses
  have hidle : (Shared.idle capacity overflow : Shared α).Ordered := rfl
  have hord : s.Ordered := hs ▸ Shared.ordered_run hidle accesses
  have hcount : s.Counted := hs ▸ Shared.counted_run ⟨rfl, Nat.le_refl _⟩ accesses
  have hunused : (Shared.idle capacity overflow : Shared α).Lawful := fun _ h => nomatch h
  have hlaw : s.Lawful := hs ▸ Shared.lawful_run hunused accesses
  -- where new items are refused, no deed of the log evicts anything
  have hkept : overflow = .reject →
      ∀ item taken evicted, .offered item taken evicted ∈ s.log → evicted = none :=
    fun hreject _ _ _ hmem => (hlaw _ hmem).1 (hpolicy.trans hreject)
  refine ⟨?_, fun h => hs ▸ Shared.owed_run_of_isCall _ h⟩
  exact {
    size_le := hcap ▸ s.queue.length_le
    ordered := hord
    returned_once := (Shared.returned_sublist_removed s.log).trans hord.removed_prefix.sublist
    contiguous := fun _ _ _ hlog => hord.contiguous hlog
    refused := fun _ h => hcap ▸ items_offer_of_refused h
    taken := fun _ h => by
      obtain ⟨evicted, kept, hq, hi, hfull⟩ := items_offer_of_taken h
      exact ⟨evicted, kept, hq, hi, fun hne => hcap ▸ hpolicy ▸ hfull hne⟩
    unevicted := hkept
    removed_eq := fun hreject => Shared.removed_eq_returned (hkept hreject)
    admitted := fun hdrop hpos _ _ _ hmem =>
      (hlaw _ hmem).2 (hpolicy.trans hdrop) (hcap.symm ▸ hpos)
    counted := hcount.dropped_eq }

/-- A third item evicts the first from a queue of two. -/
example :
    ((Shared.idle 2 .dropOldest).run [.offer 1, .offer 2, .offer 3]).queue.items = [2, 3] := by
  decide

end SendingQueue

end ClientMetrics
