import ClientMetrics.Batch.Basic
import ClientMetrics.Impression.Json

/-!
# Batches as JSON

The wire format. Unset fields are left out; reading takes members in any order.
-/

namespace ClientMetrics

open Json (Field Reader Schema)

namespace Slot

/-- A slot as an object. -/
def json (s : Slot) : List Char :=
  Json.object ([("impressionId", Json.quote s.impressionId),
    ("cachedBidUsed", Json.boolean s.cachedBid)] ++ Json.memberIf "zoneId" Json.word32 s.zone)

/-- How a slot is read. -/
def schema : Schema Slot where
  title := "struct SlotFeedback"
  blank := { impressionId := "", cachedBid := false }
  fields := [
    Field.always "impressionId" .text fun impressionId s => { s with impressionId },
    Field.always "cachedBidUsed" .boolean fun cachedBid s => { s with cachedBid },
    Field.optional "zoneId" .word32 fun zone s => { s with zone }]

end Slot

namespace Feedback

/-- The members of a report in the order in which they are written. -/
def members (f : Feedback) : List (String × List Char) :=
  [("slots", Json.list (f.slots.map Slot.json))]
    ++ Json.memberIf "elapsed" Json.word64 f.shown
    ++ [("isTimeout", Json.boolean f.isTimeout),
      ("cdbCallStartElapsed", Json.word64 f.callStart)]
    ++ Json.memberIf "cdbCallEndElapsed" Json.word64 f.callEnd
    ++ Json.memberIf "clickElapsed" Json.word64 f.clicked
    ++ Json.memberIf "requestGroupId" Json.quote f.requestGroup
    ++ Json.memberIf "errorCode" Json.word32 f.errorCode

/-- A report as an object. -/
def json (f : Feedback) : List Char := Json.object f.members

/-- A report as JSON text. -/
def toJson (f : Feedback) : String := String.ofList f.json

/-- How a report is read. -/
def schema : Schema Feedback where
  title := "struct Feedback"
  blank := { slots := [], isTimeout := false }
  fields := [
    Field.always "slots" Slot.schema.reader.array fun slots f => { f with slots },
    Field.optional "elapsed" .word64 fun shown f => { f with shown },
    Field.always "isTimeout" .boolean fun isTimeout f => { f with isTimeout },
    Field.always "cdbCallStartElapsed" .word64 fun callStart f => { f with callStart },
    Field.optional "cdbCallEndElapsed" .word64 fun callEnd f => { f with callEnd },
    Field.optional "clickElapsed" .word64 fun clicked f => { f with clicked },
    Field.optional "requestGroupId" .text fun requestGroup f => { f with requestGroup },
    Field.optional "errorCode" .word32 fun errorCode f => { f with errorCode }]

end Feedback

namespace Batch

/-- A batch as the characters of a JSON text. -/
def json (b : Batch) : List Char :=
  Json.object [("feedbacks", Json.list (b.feedbacks.map Feedback.json)),
    ("wrapper_version", Json.quote b.wrapperVersion),
    ("profile_id", Json.word32 b.profileId)]

/-- A batch as JSON text. -/
def toJson (b : Batch) : String := String.ofList b.json

/-- How a batch is read. -/
def schema : Schema Batch where
  title := "struct MetricBatch"
  blank := { feedbacks := [], wrapperVersion := "", profileId := 0 }
  fields := [
    Field.always "feedbacks" Feedback.schema.reader.array fun feedbacks b => { b with feedbacks },
    Field.always "wrapper_version" .text fun wrapperVersion b => { b with wrapperVersion },
    Field.always "profile_id" .word32 fun profileId b => { b with profileId }]

/-- Reads a batch from JSON text. -/
def ofJson (text : String) : Except Json.Problem Batch := schema.reader.decode text

end Batch

end ClientMetrics
