/-!
# The store of privacy settings

A small map from keys to texts. The three operations are pinned down through `find?`:

* `find?_set_self`, `find?_set_of_ne` — the last write of a key wins, other keys keep theirs;
* `find?_remove_self`, `find?_remove_of_ne` — a removed key is gone, other keys keep theirs.
-/

namespace ClientMetrics

/-- Key under which the consent string is kept. -/
def vendorConsentsKey : String := "IABTCF_VendorConsents"

/-- Texts by key. At most one entry of a key is kept, the latest. -/
structure ConsentStore where
  entries : List (String × String) := []
  deriving Repr

namespace ConsentStore

/-- The store nothing was written to. -/
def empty : ConsentStore := {}

/-- The text kept under a key. -/
def find? (s : ConsentStore) (key : String) : Option String :=
  (s.entries.find? (·.1 = key)).map (·.2)

/-- The text kept under a key, or the given one if there is none. -/
def getD (s : ConsentStore) (key default : String) : String :=
  (s.find? key).getD default

/-- Forgets a key. -/
def remove (s : ConsentStore) (key : String) : ConsentStore :=
  ⟨s.entries.filter (·.1 ≠ key)⟩

/-- Keeps a text under a key in place of the one before. -/
def set (s : ConsentStore) (key value : String) : ConsentStore :=
  ⟨(key, value) :: (s.remove key).entries⟩

@[simp] theorem find?_empty (key : String) : empty.find? key = none := rfl

@[simp] theorem find?_remove_self (s : ConsentStore) (key : String) :
    (s.remove key).find? key = none := by
  simp [find?, remove, List.find?_filter]

/-- Removing a key leaves the others what they have. -/
@[simp] theorem find?_remove_of_ne (s : ConsentStore) {key other : String} (h : other ≠ key) :
    (s.remove key).find? other = s.find? other := by
  obtain ⟨entries⟩ := s
  simp only [find?, remove]
  congr 1
  induction entries with
  | nil => rfl
  | cons e es ih =>
    -- an entry of the removed key is not one of the other key either
    by_cases hk : e.1 = key
    · simpa [hk, List.find?_cons, h.symm] using ih
    · by_cases ho : e.1 = other
      · simp [ho, h]
      · simpa [hk, ho, List.find?_cons] using ih

/-- What was stored under a key is found there. -/
@[simp] theorem find?_set_self (s : ConsentStore) (key value : String) :
    (s.set key value).find? key = some value := by
  simp [find?, set]

@[simp] theorem find?_set_of_ne (s : ConsentStore) {key other : String} (value : String)
    (h : other ≠ key) : (s.set key value).find? other = s.find? other := by
  rw [← find?_remove_of_ne s h]
  simp [find?, set, h.symm]

end ConsentStore

end ClientMetrics
