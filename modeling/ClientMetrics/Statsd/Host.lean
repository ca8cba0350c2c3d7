import ClientMetrics.Text.Hex

/-!
# The host that measurements are sent to

A host is a name or an address, and a port after the last colon. An address of the newer kind may
stand in brackets.
-/

namespace ClientMetrics

namespace Statsd

/-- Why nothing can be sent to a host. -/
inductive HostFault where
  | noPort
  | badPort
  /-- There is no such name. -/
  | unknownName
  deriving DecidableEq, Repr

/-- The text of a fault. -/
def HostFault.message : HostFault → String
  | noPort => "invalid socket address"
  | badPort => "invalid port value"
  | unknownName => "failed to lookup address information: Temporary failure in name resolution"

/-- What is said when nothing can be sent to a host. -/
def sinkMessage : String := "failed to create statsd sink"

namespace Host

/-- A text cut at each occurrence of a character. -/
def cut (sep : Char) : List Char → List (List Char)
  | [] => [[]]
  | c :: cs =>
    if c = sep then [] :: cut sep cs
    else
      match cut sep cs with
      | [] => [[c]]
      | part :: parts => (c :: part) :: parts

/-- The number of digits, if there are any and nothing else. -/
def digits? (cs : List Char) : Option Nat :=
  if cs ≠ [] ∧ cs.all Char.isDigit then
    some (cs.foldl (fun n c => 10 * n + (c.toNat - 48)) 0)
  else none

/-- Four numbers of eight bits. Fewer stand for the same, the last one filling up what is
missing. -/
def isV4 (cs : List Char) : Bool :=
  let parts := cut '.' cs
  parts.length ≤ 4
    && parts.dropLast.all (fun p => (digits? p).any (· < 256))
    && (digits? (parts.getLastD [])).any (· < Nat.pow 256 (5 - parts.length))

/-- The number of groups of an address, each of up to four hexadecimal digits. -/
def groupCount? (cs : List Char) : Option Nat :=
  if cs = [] then some 0
  else
    let groups := cut ':' cs
    if groups.all fun g => g ≠ [] && g.length ≤ 4 && g.all fun c => (Text.Hex.value? c).isSome then
      some groups.length
    else none

/-- What stands before and after two colons, if they occur. -/
def aroundGap? : List Char → Option (List Char × List Char)
  | ':' :: ':' :: cs => some ([], cs)
  | c :: cs => (aroundGap? cs).map fun (before, after) => (c :: before, after)
  | [] => none

/-- Eight groups. Two colons may stand for one or more that are zero. -/
def isV6 (cs : List Char) : Bool :=
  match aroundGap? cs with
  | none => groupCount? cs = some 8
  | some (before, after) =>
    match groupCount? before, groupCount? after with
    | some m, some n => m + n ≤ 7
    | _, _ => false

/-- The number of a port, which has 16 bits. -/
def port? (cs : List Char) : Option Nat := (digits? cs).filter (· < UInt16.size)

/-- An address of the newer kind in brackets, and a port. -/
def isBracketed (host port : List Char) : Bool :=
  match host with
  | '[' :: cs => cs.getLast? = some ']' && isV6 cs.dropLast && (port? port).isSome
  | _ => false

/-- A name or an address that can be found. -/
def isKnown (cs : List Char) : Bool := cs = "localhost".toList || isV4 cs || isV6 cs

/-- What is wrong with a host, if anything is. A plus sign may stand before a port. -/
def fault? (host : String) : Option HostFault :=
  let parts := cut ':' host.toList
  if parts.length < 2 then some .noPort
  else
    let port := parts.getLastD []
    let name := host.toList.take (host.length - port.length - 1)
    let unsigned := match port with
      | '+' :: cs => cs
      | cs => cs
    if isBracketed name port then none
    else if (port? unsigned).isNone then some .badPort
    else if isKnown name then none
    else some .unknownName

end Host

end Statsd

end ClientMetrics
