import ClientMetrics.Impression.Basic
import ClientMetrics.Log.Event

/-!
# Batches

What is sent to the collector. The times of an impression are reported relative to the start of
its call, so nothing on the wire depends on the clock of the device; a time without a start, or
the other way round, is left out. A clock that ran backwards yields zero.
-/

namespace ClientMetrics

/-- Settings of the library that produced the impressions. -/
structure SdkSettings where
  profileId : UInt32 := 235
  wrapperVersion : String := "0.1.0"
  deriving DecidableEq, Repr

/-- An ad slot. -/
structure Slot where
  impressionId : String
  cachedBid : Bool
  zone : Option UInt32 := none
  deriving DecidableEq, Repr

/-- What is reported of an impression, times in milliseconds since the start of the call. -/
structure Feedback where
  slots : List Slot
  shown : Option UInt64 := none
  isTimeout : Bool
  callStart : UInt64 := 0
  callEnd : Option UInt64 := none
  clicked : Option UInt64 := none
  requestGroup : Option String := none
  errorCode : Option UInt32 := none
  deriving DecidableEq, Repr

/-- One request to the collector. -/
structure Batch where
  feedbacks : List Feedback
  wrapperVersion : String
  profileId : UInt32
  deriving DecidableEq, Repr

/-- The time from a start to an end, zero if the end comes first. -/
def Timestamp.since (start stop : Timestamp) : UInt64 :=
  if start ≤ stop then stop - start else 0

/-- The time between two events, if both are known. -/
def elapsed (start stop : Option Timestamp) : Option UInt64 :=
  match start, stop with
  | some start, some stop => some (Timestamp.since start stop)
  | _, _ => none

namespace Feedback

/-- The report of an impression. -/
def ofImpression (i : Impression) : Feedback where
  slots := [{ impressionId := i.id, cachedBid := i.cachedBid, zone := i.zone }]
  shown := elapsed i.callStart i.shown
  isTimeout := i.callTimeout.isSome
  callEnd := elapsed i.callStart i.callEnd
  clicked := elapsed i.callStart i.clicked
  requestGroup := i.requestGroup
  errorCode := i.errorCode

/-- The event noted for an impression whose start is not known. -/
def startMissing (i : Impression) : Log.Event where
  severity := .debug
  target := "csm_metrics::batch"
  message := "metric without bid request start, elapsed values omitted"
  fields := [("impression_id", .quoted i.id)]

/-- The events noted when an impression is reported. -/
def events (i : Impression) : List Log.Event :=
  if i.callStart.isNone then [startMissing i] else []

end Feedback

namespace Batch

/-- The request for a list of impressions, in their order. -/
def ofImpressions (impressions : List Impression) (sdk : SdkSettings) : Batch where
  feedbacks := impressions.map Feedback.ofImpression
  wrapperVersion := sdk.wrapperVersion
  profileId := sdk.profileId

/-- The number of impressions reported. -/
def size (b : Batch) : Nat := b.feedbacks.length

end Batch

end ClientMetrics
