import ClientMetrics.Statsd.Line

/-!
# Settings of a client

A client may have tags of its own, one value for each key. They are kept in the order of their
keys, which is the order in which they are written (`SortedTags`).
-/

namespace ClientMetrics

namespace Statsd

/-- Gives a key a value among tags that are sorted by key. -/
def Tags.put (key value : String) : Tags → Tags
  | [] => [(key, value)]
  | (k, v) :: tags =>
    if key < k then (key, value) :: (k, v) :: tags
    else if key = k then (key, value) :: tags
    else (k, v) :: put key value tags

/-- A key and a value are put among the tags, and no others are. -/
theorem Tags.mem_put {key value : String} {tags : Tags} {t : String × String}
    (h : t ∈ Tags.put key value tags) : t = (key, value) ∨ t ∈ tags := by
  induction tags with
  | nil => exact .inl (List.mem_singleton.1 h)
  | cons kv tags ih =>
    obtain ⟨k, v⟩ := kv
    unfold Tags.put at h
    split at h
    · exact List.mem_cons.1 h
    · split at h
      · rcases List.mem_cons.1 h with h | h
        · exact .inl h
        · exact .inr (List.mem_cons_of_mem _ h)
      · rcases List.mem_cons.1 h with h | h
        · exact .inr (h ▸ List.mem_cons_self)
        · exact (ih h).imp_right (List.mem_cons_of_mem _)

/-- Tags stay sorted, each key once. -/
theorem Tags.pairwise_put (key value : String) {tags : Tags}
    (h : tags.Pairwise fun a b => a.1 < b.1) :
    (Tags.put key value tags).Pairwise fun a b => a.1 < b.1 := by
  induction tags with
  | nil => simp [Tags.put]
  | cons kv tags ih =>
    obtain ⟨k, v⟩ := kv
    obtain ⟨hk, ht⟩ := List.pairwise_cons.1 h
    -- the key stands before the first one, it is the first one, or it belongs further back
    unfold Tags.put
    split
    · next hlt =>
      refine List.pairwise_cons.2 ⟨fun t hm => ?_, h⟩
      rcases List.mem_cons.1 hm with rfl | hm
      · exact hlt
      · exact String.lt_trans hlt (hk t hm)
    · next hlt =>
      split
      · next heq => exact List.pairwise_cons.2 ⟨fun t hm => heq ▸ hk t hm, ht⟩
      · next hne =>
        refine List.pairwise_cons.2 ⟨fun t hm => ?_, ih ht⟩
        rcases Tags.mem_put hm with rfl | hm
        · exact String.not_le.1 fun hle => hne (String.le_antisymm hle (String.not_lt.1 hlt))
        · exact hk t hm

/-- Tags in the order of their keys, each of which occurs once. -/
structure SortedTags where
  toList : Tags := []
  sorted : toList.Pairwise fun a b => a.1 < b.1 := by exact .nil
  deriving DecidableEq, Repr

namespace SortedTags

/-- No tags. -/
def empty : SortedTags := {}

/-- Gives a key a value. -/
def insert (tags : SortedTags) (key value : String) : SortedTags :=
  ⟨Tags.put key value tags.toList, Tags.pairwise_put key value tags.sorted⟩

/-- The tags of some keys and values, of which the last one for a key counts. -/
def ofList (tags : Tags) : SortedTags :=
  tags.foldl (fun sorted (key, value) => sorted.insert key value) empty

/-- The number of tags. -/
def size (tags : SortedTags) : Nat := tags.toList.length

@[simp] theorem toList_empty : empty.toList = [] := rfl

@[simp] theorem toList_insert (tags : SortedTags) (key value : String) :
    (tags.insert key value).toList = Tags.put key value tags.toList := rfl

end SortedTags

/-- Settings of the program's own measurements. Without a host there are none. -/
structure Settings where
  /-- The name and the port of the server. -/
  host : Option String := none
  /-- What stands before every name. -/
  pre : String := "csm"
  defaultTags : SortedTags := .empty
  deriving DecidableEq, Repr

end Statsd

end ClientMetrics
