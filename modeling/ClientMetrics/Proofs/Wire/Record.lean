import ClientMetrics.Impression.Json
import ClientMetrics.Proofs.Json.Objects

/-!
# Records survive the wire

A record is written as an object and read back as itself, whatever its identifiers contain and
whichever of its fields are set. The written text is a normal form: a text that was accepted in
any other form is written in it from then on.

Key results:
- `Impression.reads_json`: a record is read from its members, wherever they stand in a text.
- `Impression.json_roundTrip`: reading undoes writing, and writing what was read is stable.
-/

namespace ClientMetrics

open Json (Reads reads_text reads_boolean reads_word32 reads_word64)

namespace Impression

/-- The members of a record take the blank record to it, field by field. -/
theorem fills_members (i : Impression) :
    Json.Schema.Fills schema.fields i.members schema.blank i := by
  rw [← List.append_nil i.members]
  simp only [members, List.append_assoc, List.cons_append, List.nil_append]
  -- a member for each field, in the order of the schema
  exact .always (reads_text i.id) <|
    .optional i.requestGroup reads_text rfl <|
    .optional i.callStart reads_word64 rfl <|
    .optional i.callEnd reads_word64 rfl <|
    .optional i.callTimeout reads_word64 rfl <|
    .optional i.shown reads_word64 rfl <|
    .optional i.clicked reads_word64 rfl <|
    .optional i.errorCode reads_word32 rfl <|
    .defaulted (reads_boolean i.cachedBid) <|
    .defaulted (reads_boolean i.ready) <|
    .optional i.profile reads_word32 rfl <|
    .optional i.zone reads_word32 rfl .done

/-- A record is read from its members. -/
theorem reads_json (i : Impression) : Reads schema.reader i.json i :=
  i.fills_members.reads (by decide)

/-- The text of a record is read as the record. -/
theorem ofJson_toJson (i : Impression) : ofJson i.toJson = .ok i := i.reads_json.decode

/-- Reading undoes writing. A text that is accepted at all is read as a record whose own text is
read as the same record and written as the same text again. -/
theorem json_roundTrip :
    (∀ i : Impression, ofJson i.toJson = .ok i) ∧
      ∀ (text : String) (i : Impression), ofJson text = .ok i →
        ∃ again, ofJson i.toJson = .ok again ∧ again = i ∧ again.toJson = i.toJson := by
  refine ⟨ofJson_toJson, ?_⟩
  intro text i _
  exact ⟨i, i.ofJson_toJson, rfl, rfl⟩

/-- An identifier of characters that are escaped, and the greatest numbers. -/
def extreme : Impression where
  id := "\"\\\n\u0000"
  callStart := some 18446744073709551615
  errorCode := some 4294967295
  ready := true

/-- Such a record is read back as well. -/
theorem json_roundTrip_extreme :
    ∃ again, ofJson extreme.toJson = .ok again ∧ again = extreme
      ∧ again.toJson = extreme.toJson :=
  json_roundTrip.2 extreme.toJson extreme (json_roundTrip.1 extreme)

end Impression

end ClientMetrics
