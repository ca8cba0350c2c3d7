import ClientMetrics.Impression.Basic
import ClientMetrics.Json.Record

/-!
# Impression records as JSON

A record is an object whose unset fields are left out and whose flags are always written. Reading
takes the members in any order; a flag may be absent, an optional field may also be `null`.
-/

namespace ClientMetrics

namespace Impression

open Json (Field Reader Schema)

/-- The members of a record in the order in which they are written. -/
def members (i : Impression) : List (String × List Char) :=
  [("impressionId", Json.quote i.id)]
    ++ Json.memberIf "requestGroupId" Json.quote i.requestGroup
    ++ Json.memberIf "cdbCallStartTimestamp" Json.word64 i.callStart
    ++ Json.memberIf "cdbCallEndTimestamp" Json.word64 i.callEnd
    ++ Json.memberIf "cdbCallTimeoutTimestamp" Json.word64 i.callTimeout
    ++ Json.memberIf "elapsedTimestamp" Json.word64 i.shown
    ++ Json.memberIf "clickTimestamp" Json.word64 i.clicked
    ++ Json.memberIf "errorCode" Json.word32 i.errorCode
    ++ [("cachedBidUsed", Json.boolean i.cachedBid), ("readyToSend", Json.boolean i.ready)]
    ++ Json.memberIf "profileId" Json.word32 i.profile
    ++ Json.memberIf "zoneId" Json.word32 i.zone

/-- A record as the characters of a JSON text. -/
def json (i : Impression) : List Char := Json.object i.members

/-- A record as JSON text. -/
def toJson (i : Impression) : String := String.ofList i.json

/-- How a record is read. -/
def schema : Schema Impression where
  title := "struct Metric"
  blank := { id := "" }
  fields := [
    Field.always "impressionId" .text fun id i => { i with id },
    Field.optional "requestGroupId" .text fun requestGroup i => { i with requestGroup },
    Field.optional "cdbCallStartTimestamp" .word64 fun callStart i => { i with callStart },
    Field.optional "cdbCallEndTimestamp" .word64 fun callEnd i => { i with callEnd },
    Field.optional "cdbCallTimeoutTimestamp" .word64 fun callTimeout i => { i with callTimeout },
    Field.optional "elapsedTimestamp" .word64 fun shown i => { i with shown },
    Field.optional "clickTimestamp" .word64 fun clicked i => { i with clicked },
    Field.optional "errorCode" .word32 fun errorCode i => { i with errorCode },
    Field.defaulted "cachedBidUsed" .boolean fun cachedBid i => { i with cachedBid },
    Field.defaulted "readyToSend" .boolean fun ready i => { i with ready },
    Field.optional "profileId" .word32 fun profile i => { i with profile },
    Field.optional "zoneId" .word32 fun zone i => { i with zone }]

/-- Reads a record from JSON text. -/
def ofJson (text : String) : Except Json.Problem Impression := schema.reader.decode text

end Impression

end ClientMetrics
