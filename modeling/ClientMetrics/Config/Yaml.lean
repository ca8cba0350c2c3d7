import ClientMetrics.Config.Settings
import ClientMetrics.Yaml.Document
import ClientMetrics.Yaml.Fields
import ClientMetrics.Yaml.Write

/-!
# Settings in a file

Settings are written as a mapping of sections, each a mapping of fields. In reading, what is left
out has its default, and what has no name here is passed over.

* `ofYaml?` — the settings of a text;
* `toYaml` — the text of settings.
-/

namespace ClientMetrics

open Yaml (Node field)

/-- The policy of a name. -/
def Overflow.ofName? (name : String) : Option Overflow :=
  [reject, dropOldest].find? (·.name = name)

/-- A number of 64 bits. -/
def readWord64 (n : Node) : Option UInt64 := (n.natural? UInt64.size).map .ofNat

/-- A number of 32 bits. -/
def readWord32 (n : Node) : Option UInt32 := (n.natural? UInt32.size).map .ofNat

/-- A number of 16 bits. -/
def readWord16 (n : Node) : Option UInt16 := (n.natural? UInt16.size).map .ofNat

namespace Settings

/-- The settings of the queue. -/
def readQueue (root n : Node) : Option QueueSettings := do
  let fs ← n.fields? root
  let d : QueueSettings := {}
  let capacity ← field root fs "capacity" d.capacity readWord64
  let overflow ← field root fs "overflow" d.overflow fun n => do Overflow.ofName? (← n.name?)
  some { capacity, overflow }

/-- The settings of the dispatcher. -/
def readDispatch (root n : Node) : Option DispatchSettings := do
  let fs ← n.fields? root
  let d : DispatchSettings := {}
  let batchSize ← field root fs "batch_size" d.batchSize readWord64
  let interval ← field root fs "interval" d.interval readWord64
  let shutdownTimeout ← field root fs "shutdown_timeout" d.shutdownTimeout readWord64
  let retryFailed ← field root fs "retry_failed" d.retryFailed Node.bool?
  some { batchSize, interval, shutdownTimeout, retryFailed }

/-- The settings of the gate. -/
def readPrivacy (root n : Node) : Option PrivacySettings := do
  let fs ← n.fields? root
  let d : PrivacySettings := {}
  let vendorId ← field root fs "vendor_id" d.vendorId readWord16
  some { vendorId }

/-- The settings of the library. -/
def readSdk (root n : Node) : Option SdkSettings := do
  let fs ← n.fields? root
  let d : SdkSettings := {}
  let profileId ← field root fs "profile_id" d.profileId readWord32
  let wrapperVersion ← field root fs "wrapper_version" d.wrapperVersion Node.text?
  some { profileId, wrapperVersion }

/-- The settings of the log. -/
def readLogging (root n : Node) : Option Log.Settings := do
  let fs ← n.fields? root
  let d : Log.Settings := {}
  let level ← field root fs "level" d.level fun n => do Log.Level.ofName? (← n.name?)
  let format ← field root fs "format" d.format fun n => do Log.Format.ofName? (← n.name?)
  let enableBacktraces ← field root fs "enable_backtraces" d.enableBacktraces Node.bool?
  some { level, format, enableBacktraces }

/-- The settings of the program's own measurements. -/
def readMetrics (root n : Node) : Option Statsd.Settings := do
  let fs ← n.fields? root
  let d : Statsd.Settings := {}
  let host ← field root fs "host" d.host Node.optionalText?
  let pre ← field root fs "prefix" d.pre Node.text?
  let defaultTags ← field root fs "default_tags" d.defaultTags fun n =>
    (n.texts? root).map Statsd.SortedTags.ofList
  some { host, pre, defaultTags }

/-- The settings of a document. -/
def ofNode? (root : Node) : Option Settings := do
  let fs ← root.fields? root
  let queue ← field root fs "queue" {} (readQueue root)
  let dispatch ← field root fs "dispatch" {} (readDispatch root)
  let privacy ← field root fs "privacy" {} (readPrivacy root)
  let sdk ← field root fs "sdk" {} (readSdk root)
  let logging ← field root fs "logging" {} (readLogging root)
  let metrics ← field root fs "metrics" {} (readMetrics root)
  some { queue, dispatch, privacy, sdk, logging, metrics }

/-- The settings of a text. -/
def ofYaml? (text : String) : Option Settings := do ofNode? (← Node.read? text)

/-- The settings of a text that is not in a file. -/
def ofYaml (text : String) : Except ConfigError Settings :=
  match ofYaml? text with
  | some s => .ok s
  | none => .error (.badYaml none)

open Yaml.Write

/-- The settings of the queue in a file. -/
def writeQueue (s : QueueSettings) : List (List Char) :=
  [wordEntry 2 "capacity" (toString s.capacity.toNat), textEntry 2 "overflow" s.overflow.name]

/-- The settings of the dispatcher in a file. -/
def writeDispatch (s : DispatchSettings) : List (List Char) :=
  [wordEntry 2 "batch_size" (toString s.batchSize.toNat),
    wordEntry 2 "interval" (toString s.interval.toNat),
    wordEntry 2 "shutdown_timeout" (toString s.shutdownTimeout.toNat),
    wordEntry 2 "retry_failed" (toString s.retryFailed)]

/-- The settings of the gate in a file. -/
def writePrivacy (s : PrivacySettings) : List (List Char) :=
  [wordEntry 2 "vendor_id" (toString s.vendorId.toNat)]

/-- The settings of the library in a file. -/
def writeSdk (s : SdkSettings) : List (List Char) :=
  [wordEntry 2 "profile_id" (toString s.profileId.toNat),
    textEntry 2 "wrapper_version" s.wrapperVersion]

/-- The settings of the log in a file. -/
def writeLogging (s : Log.Settings) : List (List Char) :=
  [textEntry 2 "level" s.level.name, textEntry 2 "format" s.format.name,
    wordEntry 2 "enable_backtraces" (toString s.enableBacktraces)]

/-- The settings of the program's own measurements in a file. A host that is not set is left
out. -/
def writeMetrics (s : Statsd.Settings) : List (List Char) :=
  (match s.host with
    | some host => [textEntry 2 "host" host]
    | none => [])
    ++ [textEntry 2 "prefix" s.pre,
      sectionEntry 2 "default_tags" (s.defaultTags.toList.map fun (key, value) =>
        textEntry 4 key value)]

/-- The sections of settings in a file. -/
def sections (s : Settings) : List (List Char) :=
  [sectionEntry 0 "queue" (writeQueue s.queue),
    sectionEntry 0 "dispatch" (writeDispatch s.dispatch),
    sectionEntry 0 "privacy" (writePrivacy s.privacy),
    sectionEntry 0 "sdk" (writeSdk s.sdk),
    sectionEntry 0 "logging" (writeLogging s.logging),
    sectionEntry 0 "metrics" (writeMetrics s.metrics)]

/-- The text of settings. -/
def toYaml (s : Settings) : String := .ofList s.sections.flatten

end Settings

end ClientMetrics
