import ClientMetrics.Text.Word

/-!
# Commands and their parameters

The program has commands, some of which have commands of their own. A parameter has a value and is
given by its name; most of them may also be given by a variable of the environment.
-/

namespace ClientMetrics

/-- The commands. -/
inductive Command where
  /-- The program itself, without a command. -/
  | program
  | config
  | configInit
  | configShow
  | consent
  | simulate
  /-- Describes other commands. -/
  | help
  deriving DecidableEq, Repr

namespace Command

/-- How a command calls itself. -/
def title : Command → String
  | program => "csm"
  | config => "csm-config"
  | configInit => "csm-config-init"
  | configShow => "csm-config-show"
  | consent => "csm-consent"
  | simulate => "csm-simulate"
  | help => "csm-help"

/-- The commands that a command has, by name. -/
def children : Command → List (String × Command)
  | program => [("config", config), ("consent", consent), ("simulate", simulate), ("help", help)]
  | config => [("init", configInit), ("show", configShow), ("help", help)]
  | _ => []

/-- The version of the program. -/
def version : String := "0.1.0"

/-- What a command says of its version. -/
def versionText (c : Command) : String := c.title ++ " " ++ version ++ "\n"

end Command

/-- What has a value. -/
inductive Parameter where
  | folder
  | logLevel
  | capacity
  | batchSize
  | interval
  | producers
  | impressions
  | consent
  deriving DecidableEq, Repr

namespace Parameter

/-- The name of a parameter. -/
def name : Parameter → String
  | folder => "config"
  | logLevel => "log-level"
  | capacity => "capacity"
  | batchSize => "batch-size"
  | interval => "interval"
  | producers => "producers"
  | impressions => "metrics"
  | consent => "consent"

/-- The variable that may give a parameter. -/
def variableName? : Parameter → Option String
  | folder => some "CSM_CONFIG_PATH"
  | logLevel => some "CSM_LOG_LEVEL"
  | capacity => some "CSM_QUEUE_CAPACITY"
  | batchSize => some "CSM_BATCH_SIZE"
  | interval => some "CSM_DISPATCH_INTERVAL"
  | _ => none

/-- The parameters that every command has. -/
def shared : List Parameter := [folder, logLevel, capacity, batchSize, interval]

/-- A value is taken: a folder has a name, a count is a number. What else may be wrong with a value
comes up when it is used. -/
def accepts : Parameter → String → Bool
  | folder, value => value ≠ ""
  | producers, value | impressions, value => (Text.readNat value).isOk
  | _, _ => true

end Parameter

namespace Command

/-- The parameters of a command. -/
def parameters : Command → List Parameter
  | simulate => Parameter.shared ++ [.producers, .impressions, .consent]
  | _ => Parameter.shared

/-- The parameter of a command that has a name. -/
def parameter? (c : Command) (name : String) : Option Parameter :=
  c.parameters.find? (·.name = name)

/-- How a command is used. -/
def usage (c : Command) : String :=
  let line (p : Parameter) : String :=
    "      --" ++ p.name ++ " <VALUE>" ++ match p.variableName? with
      | some v => "  [env: " ++ v ++ "]\n"
      | none => "\n"
  "Usage: " ++ " ".intercalate (c.title.splitOn "-") ++ " [OPTIONS]"
    ++ (match c with
      | program | config => " <COMMAND>"
      | configInit => " [--force]"
      | consent => " <VALUE>"
      | _ => "")
    ++ "\n"
    ++ (if c.children = [] then ""
        else "\nCommands:\n" ++ String.join (c.children.map fun (name, _) => "  " ++ name ++ "\n"))
    ++ "\nOptions:\n" ++ String.join (c.parameters.map line)
    ++ "  -h, --help\n  -V, --version\n"

end Command

end ClientMetrics
