import ClientMetrics.Batch.Json
import ClientMetrics.Proofs.Json.Objects

/-!
# Batches survive the wire

A batch of any size is read back as itself: its envelope, its reports and their slots. What the
collector finds in the body of a request are the impressions, one report for each and in their
order, with times relative to the start of the call.

Key results:
- `Slot.reads_json`, `Feedback.reads_json`, `Batch.reads_json`: each of the nested records is read
  from its members, wherever they stand in a text.
- `isElapsed_elapsed`: a time is reported if both ends are known, as their difference or zero.
- `Batch.wire_ofImpressions`: every batch survives, and the body of a request reports the
  impressions it was made from.
-/

namespace ClientMetrics

open Json (Reads reads_text reads_boolean reads_word32 reads_word64)
open Json.Schema (Fills)

/-! ## Reading what was written -/

/-- A slot is read from its members. -/
theorem Slot.reads_json (s : Slot) : Reads Slot.schema.reader s.json s := by
  refine Fills.reads ?_ (by decide)
  rw [← List.append_nil (Json.memberIf "zoneId" Json.word32 s.zone)]
  simp only [List.cons_append, List.nil_append]
  exact .always (reads_text s.impressionId) <|
    .always (reads_boolean s.cachedBid) <|
    .optional s.zone reads_word32 rfl .done

/-- The elements of an array of written records are read one by one. -/
theorem Json.reads_elements {α : Type} {r : Json.Reader α} {write : α → List Char}
    (h : ∀ a, Reads r (write a) a) (as : List α) :
    Reads r.array (Json.list (as.map write)) as := by
  apply Reads.array
  -- the elements are read one by one, each by the same reader
  induction as with
  | nil => exact .nil
  | cons a as ih => exact .cons (h a) ih

/-- The members of a report take the blank one to it, field by field. -/
theorem Feedback.fills_members (f : Feedback) :
    Fills Feedback.schema.fields f.members Feedback.schema.blank f := by
  rw [← List.append_nil f.members]
  simp only [members, List.append_assoc, List.cons_append, List.nil_append]
  -- field by field, in the order of the schema
  exact .always (Json.reads_elements Slot.reads_json f.slots) <|
    .optional f.shown reads_word64 rfl <|
    .always (reads_boolean f.isTimeout) <|
    .always (reads_word64 f.callStart) <|
    .optional f.callEnd reads_word64 rfl <|
    .optional f.clicked reads_word64 rfl <|
    .optional f.requestGroup reads_text rfl <|
    .optional f.errorCode reads_word32 rfl .done

/-- A report is read from its members. -/
theorem Feedback.reads_json (f : Feedback) : Reads Feedback.schema.reader f.json f :=
  f.fills_members.reads (by decide)

/-- A body is read from its members. -/
theorem Batch.reads_json (b : Batch) : Reads Batch.schema.reader b.json b := by
  refine Fills.reads ?_ (by decide)
  exact .always (Json.reads_elements Feedback.reads_json b.feedbacks) <|
    .always (reads_text b.wrapperVersion) <|
    .always (reads_word32 b.profileId) .done

/-- The text of a batch is read as the batch. -/
theorem Batch.ofJson_toJson (b : Batch) : ofJson b.toJson = .ok b := b.reads_json.decode

/-! ## What a request reports -/

/-- A clock that ran backwards yields zero, never a huge number. -/
theorem Timestamp.toNat_since (start stop : Timestamp) :
    ((Timestamp.since start stop).toNat : Int) = max 0 ((stop.toNat : Int) - start.toNat) := by
  unfold Timestamp.since
  -- the clock ran on, or it ran backwards
  split
  · next h =>
    have hle : start.toNat ≤ stop.toNat := UInt64.le_iff_toNat_le.1 h
    rw [UInt64.toNat_sub_of_le _ _ h]
    omega
  · next h =>
    have hlt : ¬start.toNat ≤ stop.toNat := fun hle => h (UInt64.le_iff_toNat_le.2 hle)
    rw [UInt64.toNat_zero]
    omega

/-- A time is reported exactly if both of its ends are known, and then it is what lies between
them, at least zero. -/
def IsElapsed (start stop : Option Timestamp) (reported : Option UInt64) : Prop :=
  ∀ d : UInt64, reported = some d ↔
    ∃ s t, start = some s ∧ stop = some t ∧ (d.toNat : Int) = max 0 ((t.toNat : Int) - s.toNat)

/-- What is reported of a time is what `IsElapsed` says, whether the ends are known or not. -/
theorem isElapsed_elapsed (start stop : Option Timestamp) :
    IsElapsed start stop (elapsed start stop) := by
  intro d
  cases start with
  | none => simp [elapsed]
  | some s =>
    cases stop with
    | none => simp [elapsed]
    | some t =>
      -- both ends are known, so the time between them is reported
      have hvalue := Timestamp.toNat_since s t
      constructor
      · intro h
        rw [elapsed, Option.some.injEq] at h
        exact ⟨s, t, rfl, rfl, h ▸ hvalue⟩
      · rintro ⟨s', t', hs, ht, hd⟩
        rw [Option.some.injEq] at hs ht
        subst hs ht
        rw [elapsed, Option.some.injEq, ← UInt64.toNat_inj]
        omega

/-- What a report on the wire says of the impression that it is about. -/
structure Feedback.Reports (i : Impression) (f : Feedback) : Prop where
  slot : ∃ s, f.slots = [s] ∧ s.impressionId = i.id ∧ s.cachedBid = i.cachedBid ∧ s.zone = i.zone
  isTimeout : f.isTimeout = true ↔ ∃ time, i.callTimeout = some time
  shown : IsElapsed i.callStart i.shown f.shown
  callEnd : IsElapsed i.callStart i.callEnd f.callEnd
  clicked : IsElapsed i.callStart i.clicked f.clicked

/-- The report of an impression says of it what a report should. -/
theorem Feedback.reports_ofImpression (i : Impression) : Reports i (ofImpression i) where
  slot := ⟨_, rfl, rfl, rfl, rfl⟩
  isTimeout := Option.isSome_iff_exists
  shown := isElapsed_elapsed i.callStart i.shown
  callEnd := isElapsed_elapsed i.callStart i.callEnd
  clicked := isElapsed_elapsed i.callStart i.clicked

/-- Every batch is read back as itself. The body of the request for some impressions is read as
one report for each of them, in their order. -/
theorem Batch.wire_ofImpressions :
    (∀ b : Batch, ofJson b.toJson = .ok b) ∧
      ∀ (impressions : List Impression) (sdk : SdkSettings),
        ∃ body, ofJson (ofImpressions impressions sdk).toJson = .ok body ∧
          List.Forall₂ Feedback.Reports impressions body.feedbacks := by
  refine ⟨ofJson_toJson, ?_⟩
  intro impressions sdk
  refine ⟨ofImpressions impressions sdk, ofJson_toJson _, ?_⟩
  rw [ofImpressions, List.forall₂_map_right_iff, List.forall₂_same]
  intro i _
  exact Feedback.reports_ofImpression i

end ClientMetrics
