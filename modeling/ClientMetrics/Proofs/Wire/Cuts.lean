import ClientMetrics.Proofs.Json.Cuts
import ClientMetrics.Proofs.Wire.Batch
import ClientMetrics.Proofs.Wire.Record

/-!
# What was cut off on the wire

A body or a record that did not arrive in full is always told apart from one that did, wherever it
was cut off: in a name, between the digits of a number, inside an escape, after a report that is
complete in itself. It is refused because it ended early, and for no other reason, so whoever
receives it can ask for it again.

Key results:
- `Impression.runsOut_json`, `Batch.runsOut_json`: the reader of each reports the early end.
- `Batch.wire_cut`: of all that is left of a text only the whole of it is accepted.
-/

namespace ClientMetrics

open Json (RunsOut Spells runsOut_array spells_text spells_boolean spells_word32 spells_word64)
open Json.Schema (Spelled)

namespace Impression

/-- The members of a record are spelled one after the other, those that are not set left out. -/
theorem spelled_members (i : Impression) : Spelled schema.fields i.members := by
  rw [← List.append_nil i.members]
  simp only [members, List.append_assoc, List.cons_append, List.nil_append]
  -- field by field, in the order of the schema
  exact .always (spells_text i.id) <|
    .optional i.requestGroup spells_text <|
    .optional i.callStart spells_word64 <|
    .optional i.callEnd spells_word64 <|
    .optional i.callTimeout spells_word64 <|
    .optional i.shown spells_word64 <|
    .optional i.clicked spells_word64 <|
    .optional i.errorCode spells_word32 <|
    .defaulted (spells_boolean i.cachedBid) <|
    .defaulted (spells_boolean i.ready) <|
    .optional i.profile spells_word32 <|
    .optional i.zone spells_word32 .done

/-- A record that is cut off is refused for its early end. -/
theorem runsOut_json (i : Impression) : RunsOut schema.reader i.json :=
  i.spelled_members.runsOut (by decide)

end Impression

/-- An array of written values that spell themselves. -/
theorem Json.runsOut_elements {α : Type} {r : Json.Reader α} {write : α → List Char}
    (h : ∀ a, Spells r (write a)) (as : List α) : RunsOut r.array (Json.list (as.map write)) := by
  apply runsOut_array
  intro text htext
  obtain ⟨a, -, rfl⟩ := List.mem_map.1 htext
  exact h a

/-- So is a slot. -/
theorem Slot.runsOut_json (s : Slot) : RunsOut Slot.schema.reader s.json := by
  refine Spelled.runsOut ?_ (by decide)
  rw [← List.append_nil (Json.memberIf "zoneId" Json.word32 s.zone)]
  simp only [List.cons_append, List.nil_append]
  exact .always (spells_text s.impressionId) <|
    .always (spells_boolean s.cachedBid) <|
    .optional s.zone spells_word32 .done

namespace Feedback

/-- The slots of a report are spelled as the array of them. -/
theorem spells_slots (slots : List Slot) :
    Spells Slot.schema.reader.array (Json.list (slots.map Slot.json)) :=
  (Json.runsOut_elements (fun s => s.runsOut_json.spells s.reads_json) slots).spells
    (Json.reads_elements Slot.reads_json slots)

/-- The members of a report are spelled one after the other. -/
theorem spelled_members (f : Feedback) : Spelled schema.fields f.members := by
  rw [← List.append_nil f.members]
  simp only [members, List.append_assoc, List.cons_append, List.nil_append]
  -- field by field, in the order of the schema
  exact .always (spells_slots f.slots) <|
    .optional f.shown spells_word64 <|
    .always (spells_boolean f.isTimeout) <|
    .always (spells_word64 f.callStart) <|
    .optional f.callEnd spells_word64 <|
    .optional f.clicked spells_word64 <|
    .optional f.requestGroup spells_text <|
    .optional f.errorCode spells_word32 .done

/-- A report that is cut off is refused for its early end. -/
theorem runsOut_json (f : Feedback) : RunsOut schema.reader f.json :=
  f.spelled_members.runsOut (by decide)

end Feedback

namespace Batch

/-- The reports of a body are spelled as the array of them. -/
theorem spells_feedbacks (feedbacks : List Feedback) :
    Spells Feedback.schema.reader.array (Json.list (feedbacks.map Feedback.json)) :=
  (Json.runsOut_elements (fun f => f.runsOut_json.spells f.reads_json) feedbacks).spells
    (Json.reads_elements Feedback.reads_json feedbacks)

/-- A body that is cut off is refused for its early end. -/
theorem runsOut_json (b : Batch) : RunsOut schema.reader b.json := by
  refine Spelled.runsOut ?_ (by decide)
  exact .always (spells_feedbacks b.feedbacks) <|
    .always (spells_text b.wrapperVersion) <|
    .always (spells_word32 b.profileId) .done

end Batch

/-- The first characters of a record or of a body are refused because they end too early, unless
they are all of it. -/
theorem Batch.wire_cut :
    (∀ (i : Impression) (n : Nat),
      Impression.ofJson (String.ofList (i.toJson.toList.take n))
        = if n < i.toJson.length then .error .endOfText else .ok i) ∧
    ∀ (b : Batch) (n : Nat),
      ofJson (String.ofList (b.toJson.toList.take n))
        = if n < b.toJson.length then .error .endOfText else .ok b := by
  constructor
  · intro i n
    rw [Impression.toJson, String.toList_ofList, String.length_ofList]
    exact i.runsOut_json.decode_take i.reads_json n
  · intro b n
    rw [toJson, String.toList_ofList, String.length_ofList]
    exact b.runsOut_json.decode_take b.reads_json n

end ClientMetrics
