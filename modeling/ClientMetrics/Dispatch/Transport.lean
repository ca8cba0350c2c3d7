import ClientMetrics.Impression.Basic
import ClientMetrics.Log.Causes

/-!
# Transports

A transport takes a batch and answers after some time, with success or with an error. While it
works, other parts of the program may offer more impressions to the queue.
-/

namespace ClientMetrics

/-- Why a batch could not be put into words. Whatever does so says it in its own. -/
structure EncodingFault where
  message : String
  deriving DecidableEq, Repr

namespace EncodingFault

/-- There is no text at all where a value is wanted. -/
def endOfText : EncodingFault where
  message := "EOF while parsing a value at line 1 column 0"

/-- There is a sequence where a number of eight bits is wanted. -/
def sequenceForNumber : EncodingFault where
  message := "invalid type: sequence, expected u8 at line 1 column 0"

/-- There is a number that takes more than eight bits. -/
def numberTooLarge : EncodingFault where
  message := "invalid value: integer `300`, expected u8 at line 1 column 3"

end EncodingFault

/-- Why a batch was not accepted. -/
inductive TransportError where
  | encoding (fault : EncodingFault)
  | status (code : UInt16)
  | unreachable (reason : String)
  /-- The send was given up. -/
  | timedOut
  deriving DecidableEq, Repr

namespace TransportError

/-- The text of an error. -/
def message : TransportError → String
  | encoding _ => "failed to serialize metric batch"
  | status code => "collector responded with status " ++ toString code.toNat
  | unreachable reason => "collector unreachable: " ++ reason
  | timedOut => "transmission timed out during shutdown"

/-- The texts of what caused an error. -/
def causes : TransportError → List String
  | encoding fault => [fault.message]
  | _ => []

/-- The text of an error with its causes. -/
def chain (e : TransportError) : String := Log.withCauses e.message e.causes

end TransportError

/-- How a transport behaves. -/
structure Transport where
  /-- The error it answers with, if any. -/
  failure : Option TransportError := none
  /-- How long it takes, in milliseconds. Without a delay it never answers. -/
  delay : Option Nat := some 0
  /-- What is offered to the queue when a send starts. -/
  late : List Impression := []
  /-- Every batch is described in the log. -/
  announces : Bool := false
  deriving DecidableEq, Repr

/-- A send to it comes to an end by itself, some time. -/
def Transport.answers (t : Transport) : Bool := t.delay.isSome

end ClientMetrics
