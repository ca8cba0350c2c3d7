import ClientMetrics.Dispatch.Pipeline
import ClientMetrics.Log.Level
import ClientMetrics.Statsd.Settings
import ClientMetrics.Text.Word

/-!
# Settings

All settings of the program, what may override them, and what they have to satisfy together.
Overrides are texts that are read when they are applied, so a fault can name its field.
-/

namespace ClientMetrics

/-- The settings of all parts. -/
structure Settings where
  queue : QueueSettings := {}
  dispatch : DispatchSettings := {}
  privacy : PrivacySettings := {}
  sdk : SdkSettings := {}
  logging : Log.Settings := {}
  metrics : Statsd.Settings := {}
  deriving DecidableEq, Repr

/-- A setting that can be at fault. -/
inductive SettingField where
  | capacity
  | batchSize
  | interval
  | vendorId
  | logLevel
  deriving DecidableEq, Repr

/-- The name of a setting. -/
def SettingField.name : SettingField → String
  | capacity => "queue.capacity"
  | batchSize => "dispatch.batch_size"
  | interval => "dispatch.interval"
  | vendorId => "privacy.vendor_id"
  | logLevel => "logging.level"

/-- Why settings cannot be had. -/
inductive ConfigError where
  /-- The file cannot be read, or the folder cannot be made. -/
  | couldNotOpen (path : String) (cause : String)
  | couldNotWrite (path : String) (cause : String)
  /-- The text is no document that holds settings. -/
  | badYaml (path : Option String)
  | invalidValue (field : SettingField) (cause : String)
  deriving DecidableEq, Repr

namespace ConfigError

/-- What kind of error it is. -/
def kind : ConfigError → String
  | couldNotOpen .. => "could not open config file"
  | couldNotWrite .. => "could not write config file"
  | badYaml _ => "could not parse yaml config file"
  | invalidValue .. => "invalid config value"

/-- The text of an error. -/
def message (e : ConfigError) : String :=
  e.kind ++ match e with
    | couldNotOpen path _ => " (file " ++ path ++ ")"
    | couldNotWrite path _ => " (file " ++ path ++ ")"
    | badYaml none => ""
    | badYaml (some path) => " (file " ++ path ++ ")"
    | invalidValue field _ => " (field " ++ field.name ++ ")"

/-- The texts of what caused an error. What is wrong with a document is not told. -/
def causes : ConfigError → List String
  | couldNotOpen _ cause => [cause]
  | couldNotWrite _ cause => [cause]
  | badYaml _ => []
  | invalidValue _ cause => [cause]

end ConfigError

/-- Values that take the place of settings. -/
structure Overrides where
  capacity : Option String := none
  batchSize : Option String := none
  interval : Option String := none
  logLevel : Option String := none
  deriving DecidableEq, Repr

namespace Settings

/-- Sets a field to a number, if there is one. -/
def overrideWord (s : Settings) (field : SettingField) (set : Settings → UInt64 → Settings)
    (text : Option String) : Settings × Option ConfigError :=
  match text with
  | none => (s, none)
  | some text =>
    match Text.readWord text with
    | .ok n => (set s n, none)
    | .error fault => (s, some (.invalidValue field fault.message))

/-- Sets the log level, if there is one. -/
def overrideLevel (s : Settings) (text : Option String) : Settings × Option ConfigError :=
  match text with
  | none => (s, none)
  | some text =>
    match Log.Level.ofText? text with
    | some level => ({ s with logging := { s.logging with level } }, none)
    | none => (s, some (.invalidValue .logLevel (Log.Level.unknownMessage text)))

/-- Goes on with settings that are not at fault yet. -/
def andThen (r : Settings × Option ConfigError) (f : Settings → Settings × Option ConfigError) :
    Settings × Option ConfigError :=
  match r with
  | (s, none) => f s
  | (s, some e) => (s, some e)

/-- Applies overrides, one field after the other. The first one at fault ends it, and those before
it stay applied. -/
def override (s : Settings) (o : Overrides) : Settings × Option ConfigError :=
  andThen (andThen (andThen
    (s.overrideWord .capacity (fun s n => { s with queue := { s.queue with capacity := n } })
      o.capacity)
    fun s => s.overrideWord .batchSize
      (fun s n => { s with dispatch := { s.dispatch with batchSize := n } }) o.batchSize)
    fun s => s.overrideWord .interval
      (fun s n => { s with dispatch := { s.dispatch with interval := n } }) o.interval)
    fun s => s.overrideLevel o.logLevel

/-- The first thing that is wrong with settings, if anything is. -/
def fault? (s : Settings) : Option ConfigError :=
  if s.queue.capacity = 0 then
    some (.invalidValue .capacity "the queue capacity must be positive")
  else if s.queue.capacity < s.dispatch.batchSize then
    some (.invalidValue .batchSize ("the batch size " ++ toString s.dispatch.batchSize.toNat
      ++ " exceeds the queue capacity " ++ toString s.queue.capacity.toNat))
  else if s.dispatch.interval = 0 then
    some (.invalidValue .interval "the dispatch interval must be positive")
  else if s.privacy.vendorId = 0 then
    some (.invalidValue .vendorId "vendor ids start at 1")
  else none

/-- The pipeline that settings describe. -/
def pipeline (s : Settings) : Pipeline := .ofSettings s.queue s.dispatch s.privacy s.sdk

end Settings

end ClientMetrics
