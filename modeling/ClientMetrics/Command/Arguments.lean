import ClientMetrics.Command.Basic
import ClientMetrics.Config.Settings
import ClientMetrics.Simulation

/-!
# The arguments of the program

Arguments are read one by one. A command may be followed by one of its own commands, and each has
parameters and flags. A value follows its parameter in the same argument or in the next one, which
then must not look like another parameter. After `--` nothing is a parameter or a command.

A command takes a parameter only once. Where several commands are given the same parameter the last
command counts; what no command is given may come from a variable.

* `Invocation.ofArguments` — what arguments ask for, or why nothing is to be done.
-/

namespace ClientMetrics

/-- Variables of the environment. -/
abbrev Environment := List (String × String)

/-- The value that a parameter has from its variable. -/
def Environment.valueOf? (env : Environment) (p : Parameter) : Option String :=
  p.variableName?.bind fun name => env.lookup name

/-- What is to be done with the settings of a folder. -/
inductive Query where
  | showConfig
  | readConsent (value : String)
  | simulate (plan : SimulationPlan)
  deriving DecidableEq, Repr

/-- What is to be done. -/
inductive Task where
  /-- Write a file with the default settings, over one that is there if forced to. -/
  | createConfig (force : Bool)
  | query (q : Query)
  deriving DecidableEq, Repr

/-- What the program is asked for. -/
structure Invocation where
  /-- The path of the folder with the settings. -/
  folder : String := ".csm"
  overrides : Overrides := {}
  task : Task
  deriving DecidableEq, Repr

/-- Why nothing is to be done. -/
inductive Refusal where
  /-- The arguments make no sense. -/
  | misused
  /-- The version is asked for. -/
  | version (c : Command)
  /-- A description is asked for. -/
  | help (c : Command)
  deriving DecidableEq, Repr

/-- What a command is given. -/
structure Given where
  command : Command
  values : List (Parameter × String) := []
  force : Bool := false
  /-- What stands by itself. -/
  word : Option String := none
  deriving DecidableEq, Repr

/-- What the next argument may be. -/
inductive Expected where
  | anything
  | valueOf (p : Parameter)
  | word
  /-- The name of a command that is to be described. -/
  | topic (c : Command)
  deriving DecidableEq, Repr

/-- How an argument looks. -/
inductive ArgumentForm where
  | word
  /-- Two hyphens. -/
  | separator
  /-- Two hyphens and a name, and maybe a value. -/
  | named (name : String) (value : Option String)
  /-- A hyphen and a letter, and what follows. -/
  | lettered (c : Char) (rest : List Char)
  deriving DecidableEq, Repr

/-- How an argument looks. -/
def ArgumentForm.ofText (arg : String) : ArgumentForm :=
  match arg.toList with
  | ['-', '-'] => separator
  | '-' :: '-' :: cs =>
    named (String.ofList (cs.takeWhile (· ≠ '='))) (match cs.dropWhile (· ≠ '=') with
      | _ :: value => some (String.ofList value)
      | [] => none)
  | '-' :: c :: cs => lettered c cs
  | _ => word

namespace Given

/-- Gives a parameter a value. -/
def set (g : Given) (p : Parameter) (value : String) : Except Refusal Given :=
  if p.accepts value ∧ g.values.lookup p = none then
    .ok { g with values := (p, value) :: g.values }
  else .error .misused

/-- Takes what stands by itself, of which there is at most one. -/
def setWord (g : Given) (value : String) : Except Refusal Given :=
  if g.command = .consent ∧ g.word = none then .ok { g with word := some value }
  else .error .misused

/-- Raises a flag. -/
def setForce (g : Given) : Except Refusal Given :=
  if g.command = .configInit ∧ g.force = false then .ok { g with force := true }
  else .error .misused

/-- A parameter, and its value if it is in the same argument. -/
def start (g : Given) (p : Parameter) : Option String → Except Refusal (Given × Expected)
  | some value => do return (← g.set p value, .anything)
  | none => .ok (g, .valueOf p)

/-- A parameter or a flag by its name. -/
def setNamed (g : Given) (name : String) (value : Option String) :
    Except Refusal (Given × Expected) :=
  match g.command.parameter? name with
  | some p => g.start p value
  | none =>
    if value.isSome then .error .misused
    else if name = "version" then .error (.version g.command)
    else if name = "help" then .error (.help g.command)
    else if name = "force" then do return (← g.setForce, .anything)
    else .error .misused

/-- A parameter or a flag by its letter. An equals sign may stand before a value. -/
def setLettered (g : Given) (c : Char) (rest : List Char) : Except Refusal (Given × Expected) :=
  if c = 'c' then
    g.start .folder (match rest with
      | [] => none
      | '=' :: value => some (String.ofList value)
      | value => some (String.ofList value))
  else if c = 'V' then .error (.version g.command)
  else if c = 'h' then .error (.help g.command)
  else .error .misused

end Given

/-- How far the arguments are read. -/
structure ArgumentReader where
  /-- What is given to the command that was named last. -/
  inner : Given := { command := .program }
  /-- What is given to the commands before, the latest first. -/
  outer : List Given := []
  expected : Expected := .anything
  deriving DecidableEq, Repr

namespace ArgumentReader

/-- All commands, the latest first. -/
def levels (r : ArgumentReader) : List Given := r.inner :: r.outer

/-- Goes on with what the latest command is given. -/
def withInner (r : ArgumentReader) : Given × Expected → ArgumentReader
  | (inner, expected) => { r with inner, expected }

/-- Reads an argument. -/
def read (r : ArgumentReader) (arg : String) : Except Refusal ArgumentReader :=
  match r.expected with
  | .topic c =>
    match c.children.lookup arg with
    | some child => .ok { r with expected := .topic child }
    | none => .error .misused
  | .valueOf p =>
    if ArgumentForm.ofText arg = .word then do
      return r.withInner (← r.inner.set p arg, .anything)
    else .error .misused
  | .word => do return r.withInner (← r.inner.setWord arg, .word)
  | .anything =>
    match r.inner.command.children.lookup arg with
    | some .help => .ok { r with expected := .topic r.inner.command }
    | some command => .ok { inner := { command }, outer := r.levels }
    | none => do
      match ArgumentForm.ofText arg with
      | .separator => return { r with expected := .word }
      | .named name value => return r.withInner (← r.inner.setNamed name value)
      | .lettered c rest => return r.withInner (← r.inner.setLettered c rest)
      | .word => return r.withInner (← r.inner.setWord arg, .anything)

/-- The value that a parameter is given by the latest command that has one for it. -/
def value? (r : ArgumentReader) (p : Parameter) : Option String :=
  r.levels.findSome? (·.values.lookup p)

/-- Each variable has a value that is taken by all commands that look at it, which are those that
are not given its parameter. -/
def acceptsVariables (r : ArgumentReader) (env : Environment) : Bool :=
  Parameter.shared.all fun p =>
    match Environment.valueOf? env p with
    | none => true
    | some value => p.accepts value || r.levels.all fun g => (g.values.lookup p).isSome

/-- The number that a parameter is given. -/
def count (r : ArgumentReader) (p : Parameter) (default : Nat) : Nat :=
  ((r.value? p).bind fun text => (Text.readNat text).toOption).getD default

/-- What the latest command is to do. -/
def task? (r : ArgumentReader) : Option Task :=
  match r.inner.command with
  | .configInit => some (.createConfig r.inner.force)
  | .configShow => some (.query .showConfig)
  | .consent => r.inner.word.map fun value => .query (.readConsent value)
  | .simulate => some (.query (.simulate {
      producers := r.count .producers 4
      impressions := r.count .impressions 100
      consent := r.value? .consent }))
  | _ => none

/-- What the arguments ask for, when all have been read. -/
def finish (r : ArgumentReader) (env : Environment) : Except Refusal Invocation :=
  match r.expected with
  | .topic c => .error (.help c)
  | .valueOf _ => .error .misused
  | _ =>
    if !r.acceptsVariables env then .error .misused
    else
      match r.task? with
      | none => .error .misused
      | some task =>
        let value (p : Parameter) : Option String :=
          (r.value? p).or (Environment.valueOf? env p)
        .ok {
          folder := (value .folder).getD ".csm"
          overrides := {
            capacity := value .capacity
            batchSize := value .batchSize
            interval := value .interval
            logLevel := value .logLevel }
          task }

end ArgumentReader

/-- What arguments ask for. -/
def Invocation.ofArguments (env : Environment) (args : List String) :
    Except Refusal Invocation := do
  (← args.foldlM ArgumentReader.read {}).finish env

end ClientMetrics
