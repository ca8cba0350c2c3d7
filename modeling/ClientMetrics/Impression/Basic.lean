/-!
# Impression records

The life of one ad impression: when the bid was asked for and answered, whether the call timed
out, when the impression was shown and clicked. A record is never changed; a life-cycle event is a
list of changes that yields the next record under the same identifier. A change sets a field or
raises a flag, and nothing unsets one.
-/

namespace ClientMetrics

/-- Milliseconds since the epoch. -/
abbrev Timestamp := UInt64

/-- One ad impression. -/
structure Impression where
  id : String
  /-- Shared by all slots asked for together. -/
  requestGroup : Option String := none
  callStart : Option Timestamp := none
  callEnd : Option Timestamp := none
  callTimeout : Option Timestamp := none
  shown : Option Timestamp := none
  clicked : Option Timestamp := none
  errorCode : Option UInt32 := none
  /-- The bid came from the cache and not from a call. -/
  cachedBid : Bool := false
  /-- The life of the impression was declared complete. -/
  ready : Bool := false
  profile : Option UInt32 := none
  zone : Option UInt32 := none
  deriving DecidableEq, Repr

namespace Impression

/-- A single change of a record. -/
inductive Change where
  | requestGroup (id : String)
  | callStart (time : Timestamp)
  | callEnd (time : Timestamp)
  | callTimeout (time : Timestamp)
  | shown (time : Timestamp)
  | clicked (time : Timestamp)
  | errorCode (code : UInt32)
  | cachedBid
  | ready
  | profile (id : UInt32)
  | zone (id : UInt32)
  deriving DecidableEq, Repr

/-- A record after one change. -/
def change (i : Impression) : Change → Impression
  | .requestGroup id => { i with requestGroup := some id }
  | .callStart time => { i with callStart := some time }
  | .callEnd time => { i with callEnd := some time }
  | .callTimeout time => { i with callTimeout := some time }
  | .shown time => { i with shown := some time }
  | .clicked time => { i with clicked := some time }
  | .errorCode code => { i with errorCode := some code }
  | .cachedBid => { i with cachedBid := true }
  | .ready => { i with ready := true }
  | .profile id => { i with profile := some id }
  | .zone id => { i with zone := some id }

/-- A record after a life-cycle event. -/
def update (i : Impression) (changes : List Change) : Impression := changes.foldl change i

/-- No further events are expected: the record was declared complete, or its call timed out. -/
def isTerminal (i : Impression) : Bool := i.ready || i.callTimeout.isSome

/-- The records that a sequence of events goes through, the first one included. -/
def history (i : Impression) : List (List Change) → List Impression
  | [] => [i]
  | event :: events => i :: (i.update event).history events

@[simp] theorem update_nil (i : Impression) : i.update [] = i := rfl

/-- Two updates are one with the changes of both. -/
theorem update_append (i : Impression) (c₁ c₂ : List Change) :
    i.update (c₁ ++ c₂) = (i.update c₁).update c₂ := List.foldl_append

end Impression

end ClientMetrics
