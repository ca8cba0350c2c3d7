import ClientMetrics.Proofs.Wire.Batch
import Mathlib.Data.List.ReduceOption
import Mathlib.Logic.Relation

/-!
# The wire knows no clock

Times are reported relative to the start of a call. So a report is the same whatever the clock of
the device showed at the start, as long as it is the same clock for all times of a record: what is
subtracted moves with what it is subtracted from, also where an end comes before the start. Of a
timeout nothing but its presence is reported, and without a start nothing of any other time.

Key results:
- `Timestamp.since_shift`, `elapsed_shift`: the time between two events does not move.
- `Impression.Unseen`: changes of a record that are not seen on the wire.
- `Feedback.ofImpression_of_unseen`: one change.
- `Batch.wire_unseen`: any number of changes, in any records of a request.
-/

namespace ClientMetrics

/-! ## Another clock -/

/-- The same instant on a clock that is ahead by `d` milliseconds, or behind by so many. -/
def Timestamp.shift (d : Int) (t : Timestamp) : Timestamp := .ofNat ((t.toNat : Int) + d).toNat

/-- That clock can show the instant. -/
def Timestamp.Fits (d : Int) (t : Timestamp) : Prop :=
  0 ≤ (t.toNat : Int) + d ∧ (t.toNat : Int) + d < UInt64.size

namespace Timestamp

/-- An instant that the other clock can show is ahead by so many milliseconds. -/
theorem toNat_shift {d : Int} {t : Timestamp} (h : Fits d t) :
    ((shift d t).toNat : Int) = t.toNat + d := by
  obtain ⟨hnonneg, hlt⟩ := h
  have hsmall : ((t.toNat : Int) + d).toNat < UInt64.size := by omega
  rw [shift, UInt64.toNat_ofNat_of_lt' hsmall]
  omega

/-- Both instants move alike, so what lies between them does not. -/
theorem since_shift {d : Int} {start stop : Timestamp} (hstart : Fits d start)
    (hstop : Fits d stop) : since (shift d start) (shift d stop) = since start stop := by
  have hbefore := toNat_since start stop
  have hafter := toNat_since (shift d start) (shift d stop)
  have hstart := toNat_shift hstart
  have hstop := toNat_shift hstop
  -- both differences are the same integer, cut off at zero
  apply UInt64.toNat_inj.1
  omega

end Timestamp

/-- So does not the time between two events that may be unknown. -/
theorem elapsed_shift {d : Int} {start stop : Option Timestamp}
    (hstart : ∀ t, start = some t → Timestamp.Fits d t)
    (hstop : ∀ t, stop = some t → Timestamp.Fits d t) :
    elapsed (start.map (Timestamp.shift d)) (stop.map (Timestamp.shift d)) =
      elapsed start stop := by
  cases start with
  | none => rfl
  | some s =>
    cases stop with
    | none => rfl
    | some t => exact congrArg some (Timestamp.since_shift (hstart s rfl) (hstop t rfl))

/-- Without a start no time is reported. -/
theorem elapsed_none (stop : Option Timestamp) : elapsed none stop = none := rfl

namespace Impression

/-- The times of a record that are set. -/
def times (i : Impression) : List Timestamp :=
  [i.callStart, i.callEnd, i.callTimeout, i.shown, i.clicked].reduceOption

/-- The record on a clock that is ahead by `d` milliseconds. -/
def shift (d : Int) (i : Impression) : Impression :=
  { i with
    callStart := i.callStart.map (Timestamp.shift d)
    callEnd := i.callEnd.map (Timestamp.shift d)
    callTimeout := i.callTimeout.map (Timestamp.shift d)
    shown := i.shown.map (Timestamp.shift d)
    clicked := i.clicked.map (Timestamp.shift d) }

/-- Changes of a record that are not seen on the wire. -/
inductive Unseen (i : Impression) : Impression → Prop where
  /-- All times that are set are those of another clock. -/
  | clock (d : Int) (fits : ∀ t ∈ i.times, Timestamp.Fits d t) : Unseen i (i.shift d)
  /-- The call timed out at another time. -/
  | timeout (timedOut : i.callTimeout.isSome) (time : Timestamp) :
    Unseen i { i with callTimeout := some time }
  | profile (profile : Option UInt32) : Unseen i { i with profile }
  | ready (ready : Bool) : Unseen i { i with ready }
  /-- The start is not known, and other times change, are set or unset. -/
  | startless (unknown : i.callStart = none) (callEnd shown clicked : Option Timestamp) :
    Unseen i { i with callEnd, shown, clicked }

end Impression

namespace Feedback

open Impression (Unseen)

/-- A report is the same on another clock. -/
theorem ofImpression_shift {d : Int} {i : Impression} (h : ∀ t ∈ i.times, Timestamp.Fits d t) :
    ofImpression (i.shift d) = ofImpression i := by
  -- the times that are not set need not fit
  have hfits : ∀ time ∈ [i.callStart, i.callEnd, i.callTimeout, i.shown, i.clicked],
      ∀ t, time = some t → Timestamp.Fits d t := by
    rintro time htime t rfl
    exact h t (List.reduceOption_mem_iff.2 htime)
  have hstart := hfits i.callStart (by simp)
  have hshown := elapsed_shift hstart (hfits i.shown (by simp))
  have hcallEnd := elapsed_shift hstart (hfits i.callEnd (by simp))
  have hclicked := elapsed_shift hstart (hfits i.clicked (by simp))
  simp only [ofImpression, Impression.shift, hshown, hcallEnd, hclicked, Option.isSome_map]

/-- Without a start only the presence of a timeout is reported of all times. -/
theorem ofImpression_startless {i : Impression} (unknown : i.callStart = none)
    (callEnd callTimeout shown clicked : Option Timestamp) :
    ofImpression { i with callEnd, callTimeout, shown, clicked } =
      { ofImpression i with isTimeout := callTimeout.isSome } := by
  simp only [ofImpression, unknown, elapsed_none]

/-- A change that is not seen leaves the report as it is. -/
theorem ofImpression_of_unseen {i i' : Impression} (h : Unseen i i') :
    ofImpression i' = ofImpression i := by
  cases h with
  | clock d fits => exact ofImpression_shift fits
  | timeout timedOut time =>
    -- a timeout is present in both
    simp only [ofImpression, Option.isSome_some, timedOut]
  | profile profile => rfl
  | ready ready => rfl
  | startless unknown callEnd shown clicked =>
    exact ofImpression_startless unknown callEnd i.callTimeout shown clicked

end Feedback

namespace Batch

open Impression (Unseen)

/-- Requests for records that differ in unseen changes only are the same. -/
theorem ofImpressions_of_unseen {is is' : List Impression} (sdk : SdkSettings)
    (h : List.Forall₂ (Relation.ReflTransGen Unseen) is is') :
    ofImpressions is' sdk = ofImpressions is sdk := by
  have hfeedbacks : is'.map Feedback.ofImpression = is.map Feedback.ofImpression := by
    induction h with
    | nil => rfl
    | @cons i i' is is' hi _ ih =>
      -- one change after the other
      have hfirst : Feedback.ofImpression i' = Feedback.ofImpression i := by
        induction hi with
        | refl => rfl
        | tail _ hlast hbefore => exact (Feedback.ofImpression_of_unseen hlast).trans hbefore
      rw [List.map_cons, List.map_cons, hfirst, ih]
  rw [ofImpressions, ofImpressions, hfeedbacks]

/-- The wire does not tell the clock of the device, when a call timed out, which profile a record
has or whether it was declared complete, nor any time of a record whose start is not known. What it
does tell are the differences themselves, or zero where they would be negative. -/
theorem wire_unseen :
    (∀ i i', Unseen i i' → Feedback.ofImpression i' = Feedback.ofImpression i) ∧
    (∀ is is' sdk, List.Forall₂ (Relation.ReflTransGen Unseen) is is' →
      (ofImpressions is' sdk).toJson = (ofImpressions is sdk).toJson) ∧
    (∀ i : Impression, i.callStart = none → ∀ callEnd callTimeout shown clicked,
      Feedback.ofImpression { i with callEnd, callTimeout, shown, clicked } =
        { Feedback.ofImpression i with isTimeout := callTimeout.isSome }) ∧
    ∀ i, Feedback.Reports i (Feedback.ofImpression i) :=
  ⟨fun _ _ h => Feedback.ofImpression_of_unseen h,
    fun _ _ sdk h => congrArg toJson (ofImpressions_of_unseen sdk h),
    fun _ unknown callEnd callTimeout shown clicked =>
      Feedback.ofImpression_startless unknown callEnd callTimeout shown clicked,
    Feedback.reports_ofImpression⟩

/-- A call that was answered before it started, as far as the clock says, and shown later. -/
def skewed : Impression :=
  { id := "a", callStart := some 1000, callEnd := some 900, shown := some 1100 }

/-- The clock may be so far behind that it shows nothing but zero at the answer, or as far ahead as
it can be. -/
theorem wire_unseen_skewed :
    (∀ t ∈ skewed.times, Timestamp.Fits (-900) t) ∧
    (∀ t ∈ skewed.times, Timestamp.Fits (UInt64.size - 1101) t) ∧
    Feedback.ofImpression (skewed.shift (-900)) = Feedback.ofImpression skewed ∧
    (ofImpressions [{ id := "b" }, skewed.shift (UInt64.size - 1101)] {}).toJson =
      (ofImpressions [{ id := "b" }, skewed] {}).toJson ∧
    (skewed.shift (UInt64.size - 1101)).shown = some 18446744073709551615 ∧
    (Feedback.ofImpression skewed).callEnd = some 0 ∧
    (Feedback.ofImpression skewed).shown = some 100 := by
  obtain ⟨hone, hmany, -, -⟩ := wire_unseen
  have htimes : skewed.times = [1000, 900, 1100] := rfl
  -- the earliest time is 900, and the latest is 1100
  have hbehind : ∀ t ∈ skewed.times, Timestamp.Fits (-900) t := by
    simp [htimes, Timestamp.Fits]
  have hahead : ∀ t ∈ skewed.times, Timestamp.Fits (UInt64.size - 1101) t := by
    simp [htimes, Timestamp.Fits]
  refine ⟨hbehind, hahead, hone _ _ (.clock _ hbehind), ?_, by decide, by decide, by decide⟩
  exact hmany _ _ {} (.cons .refl (.cons (.single (.clock _ hahead)) .nil))

end Batch

end ClientMetrics
