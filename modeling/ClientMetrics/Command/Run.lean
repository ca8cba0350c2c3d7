import ClientMetrics.Command.Arguments
import ClientMetrics.Config.File
import ClientMetrics.Log.Line
import ClientMetrics.Statsd.Client

/-!
# Running a command

A run reads the settings of a folder, starts the log and the program's own measurements, and does
what it is asked for. What is wrong with the settings comes up before the log is started and is
written as it is; a later error goes through the log.

* `Command.initialise` — writes a file with default settings;
* `Command.run` — a whole run, from the arguments to what it leaves behind.
-/

namespace ClientMetrics

namespace Command

/-- An error that ends a run. -/
structure Failure where
  message : String
  /-- What caused it, the nearest cause first. -/
  causes : List String := []
  deriving DecidableEq, Repr

namespace Failure

/-- The text of an error with its causes. -/
def text (f : Failure) : String := Log.withCauses f.message f.causes

/-- An error about settings. -/
def ofConfig (e : ConfigError) : Failure := ⟨e.message, e.causes⟩

/-- An error that is the cause of another one. -/
def within (f : Failure) (message : String) : Failure := ⟨message, f.message :: f.causes⟩

end Failure

/-- What a run leaves behind. -/
structure Outcome where
  /-- Zero if all went well. -/
  status : Nat
  output : String := ""
  /-- What is written to the log. -/
  log : List Log.Entry := []
  files : FileTree

/-- Settings with overrides, if they satisfy together what settings have to. -/
def prepare (s : Settings) (o : Overrides) : Except Failure Settings :=
  match s.override o with
  | (_, some e) => .error (.ofConfig e)
  | (s, none) =>
    match s.fault? with
    | some e => .error (.ofConfig e)
    | none => .ok s

/-- Writes a file with the default settings and some overrides into a folder, over a file that is
there only if forced to. -/
def initialise (t : FileTree) (folder : String) (o : Overrides) (force : Bool) :
    FileTree × Except Failure String :=
  let file := joinPath folder configFileName
  if t.exists? file ∧ !force then
    (t, .error ⟨"config file " ++ file ++ " already exists, use --force to overwrite it", []⟩)
  else
    match prepare {} o with
    | .error f => (t, .error f)
    | .ok s =>
      match t.saveSettings folder s with
      | (t, some e) =>
        (t, .error ((Failure.ofConfig e).within ("failed to initialize config in " ++ folder)))
      | (t, none) => (t, .ok ("wrote " ++ file ++ "\n"))

/-- The settings of a folder with overrides. -/
def loadPrepared (t : FileTree) (folder : String) (o : Overrides) :
    Except Failure LoadedSettings := do
  match (t.loadSettings folder).1 with
  | .error e => .error (.ofConfig e)
  | .ok loaded => return { loaded with settings := ← prepare loaded.settings o }

/-- The log of a run. A variable may give the directives of its filter, of which what cannot be read
is left out. -/
def startLog (env : Environment) (s : Log.Settings) : Log.Writer × List Log.Entry :=
  let text := (env.lookup "RUST_LOG").getD (Log.Filter.directives s.level)
  let (filter, faults) := Log.Filter.read text
  (⟨filter, s.format⟩, faults.map .text)

/-- Starts the program's own measurements, if they have a host. -/
def startMeasurements (s : Statsd.Settings) : Except Failure (List Log.Event) :=
  match s.host with
  | none => .ok []
  | some host =>
    match ({} : Statsd.Reporter).connect host s.pre s.defaultTags with
    | .ok r => .ok r.events
    | .error fault => .error ⟨"failed to initialize statsd client for " ++ host,
        [Statsd.sinkMessage, fault.message, fault.message]⟩

/-- What is noted of settings at the start. -/
def describe (t : FileTree) (l : LoadedSettings) : List Log.Event :=
  let s := l.settings
  [if t.exists? (joinPath l.path configFileName) then "loaded config from folder " ++ l.path
    else "launching without config file, using defaults",
    "  queue capacity: " ++ toString s.queue.capacity.toNat ++ " (" ++ s.queue.overflow.name ++ ")",
    "  batch size: " ++ toString s.dispatch.batchSize.toNat,
    "  dispatch interval: " ++ Text.duration s.dispatch.interval.toNat,
    "  consent vendor id: " ++ toString s.privacy.vendorId.toNat,
    "  log level: " ++ s.logging.level.name].map fun message =>
      { severity := .info, target := "csm::setup", message }

/-- The answer about a consent string, and what is noted meanwhile: it is evaluated for each of the
two lines. -/
def readConsent (s : PrivacySettings) (value : String) : String × List Log.Event :=
  let gate := ({ vendorId := s.vendorId } : ConsentGate).setConsent (some value)
  ("vendor " ++ toString gate.vendorId.toNat ++ ": " ++ gate.consent.name
    ++ "\ncsm disallowed: " ++ toString gate.isDisallowed ++ "\n",
    [gate.evaluated, gate.evaluated])

/-- Does what is asked for with settings. Yields what is written, and what is noted. -/
def perform (s : Settings) : Query → String × List Log.Event
  | .showConfig => (s.toYaml, [])
  | .readConsent value => readConsent s.privacy value
  | .simulate plan =>
    let result := Simulation.run s plan
    (result.report.text ++ "\n", result.allEvents)

/-- Does what is asked for with the settings of a folder. -/
def runLoaded (env : Environment) (t : FileTree) (l : LoadedSettings) (q : Query) : Outcome :=
  let (writer, faults) := startLog env l.settings.logging
  match startMeasurements l.settings.metrics with
  | .error f => { status := 1, log := faults ++ [writer.failure f.text], files := t }
  | .ok started =>
    let (output, events) := perform l.settings q
    { status := 0, output, files := t
      log := faults ++ writer.entries (started ++ describe t l ++ events) }

/-- What comes of an error before the log is started. -/
def failed (t : FileTree) (f : Failure) : Outcome :=
  { status := 1, log := [.text ("error: " ++ f.text)], files := t }

/-- Does what is asked for. -/
def invoke (env : Environment) (t : FileTree) (i : Invocation) : Outcome :=
  match i.task with
  | .createConfig force =>
    match initialise t i.folder i.overrides force with
    | (t, .ok output) => { status := 0, output, files := t }
    | (t, .error f) => failed t f
  | .query q =>
    match loadPrepared t i.folder i.overrides with
    | .error f => failed t f
    | .ok l => runLoaded env t l q

/-- What comes of arguments that ask for nothing to be done. -/
def refuse (t : FileTree) : Refusal → Outcome
  | .misused =>
    { status := 2, files := t
      log := [.text ("error: the arguments cannot be used\n\n" ++ Command.program.usage)] }
  | .version c => { status := 0, output := c.versionText, files := t }
  | .help c => { status := 0, output := c.usage, files := t }

/-- A run with some arguments. -/
def run (env : Environment) (t : FileTree) (args : List String) : Outcome :=
  match Invocation.ofArguments env args with
  | .ok i => invoke env t i
  | .error r => refuse t r

end Command

end ClientMetrics
