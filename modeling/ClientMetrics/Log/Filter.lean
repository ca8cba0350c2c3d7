import ClientMetrics.Log.Level

/-!
# Filters

A filter says for targets whose names start in some way how much is let through. Of the directives
that cover a target the one with the longest name counts, and of equal names the last one. What no
directive covers is not let through at all.

* `Filter.read` — a filter from text, such as `warn` or `csm=info,csm_queue=trace`;
* `Filter.directives` — the text of the filter of a level: the parts of the program log at that
  level, all others at `info` at most;
* `Filter.standard` — the filter that is read from it (`read_directives`);
* `levelOf?_cons_of_not_covers` — a directive counts only for what it covers.
-/

namespace ClientMetrics

namespace Log

/-- How much is let through of the targets whose names start with `target`. -/
structure Directive where
  /-- The empty name covers every target. -/
  target : String := ""
  level : Level
  deriving DecidableEq, Repr

/-- Why a directive cannot be read. -/
inductive DirectiveFault where
  | noName
  | noLevel
  deriving DecidableEq, Repr

/-- The text of a fault. -/
def DirectiveFault.message : DirectiveFault → String
  | noName => "invalid filter directive"
  | noLevel => "error parsing level filter: expected one of \"off\", \"error\", \"warn\", "
      ++ "\"info\", \"debug\", \"trace\", or a number 0-5"

namespace Directive

/-- A directive covers a target. -/
def covers (d : Directive) (target : String) : Bool := d.target.toList.isPrefixOf target.toList

/-- A level as directives name it: by name in either case, or by its place in the order. -/
def level? (text : String) : Option Level :=
  let lower := text.map Char.toLower
  Level.all.find? fun l => l.name = lower || toString l.rank = text

/-- A name may start with this character. -/
def isStart (c : Char) : Bool := c.isAlphanum || 128 ≤ c.toNat || c ∈ ['-', ':', '_', '[']

/-- A text without the blanks around it. -/
def trim (cs : List Char) : List Char :=
  ((cs.dropWhile Char.isWhitespace).reverse.dropWhile Char.isWhitespace).reverse

/-- Reads a directive: a level for all targets, a name, or a name with a level. Everything is let
through of a name that has no level. -/
def read (text : String) : Except DirectiveFault Directive :=
  match trim text.toList with
  | [] => .ok ⟨"", .trace⟩
  | c :: cs =>
    if !isStart c then .error .noName
    else
      let name := String.ofList ((c :: cs).takeWhile (· ≠ '='))
      match (c :: cs).dropWhile (· ≠ '=') with
      | [] =>
        match level? name with
        | some level => .ok ⟨"", level⟩
        | none => .ok ⟨name, .trace⟩
      | [_] => .ok ⟨name, .trace⟩
      | _ :: level =>
        match level? (String.ofList level) with
        | some level => .ok ⟨name, level⟩
        | none => .error .noLevel

/-- What is said of a text that cannot be read. -/
def complaint? (text : String) : Option String :=
  match read text with
  | .ok _ => none
  | .error fault => some ("ignoring `" ++ text ++ "`: " ++ fault.message)

end Directive

/-- Directives, of which later ones count more than earlier ones with the same name. -/
abbrev Filter := List Directive

namespace Filter

/-- Of two directives that cover a target the one that counts: the one with the longer name, the
second one of equal names. -/
def stronger (best : Option Directive) (d : Directive) : Option Directive :=
  match best with
  | none => some d
  | some b => if d.target.length < b.target.length then some b else some d

/-- The level that counts for a target. -/
def levelOf? (f : Filter) (target : String) : Option Level :=
  ((f.filter (·.covers target)).foldl stronger none).map Directive.level

/-- Events of a severity and a target are let through. -/
def allows (f : Filter) (severity : Severity) (target : String) : Bool :=
  (f.levelOf? target).any (·.allows severity)

/-- The parts of the program. -/
def programTargets : List String :=
  ["csm", "csm_config", "csm_dispatch", "csm_log", "csm_metrics", "csm_privacy", "csm_queue",
    "csm_statsd"]

/-- The filter of a level: all parts of the program log at that level, and what is not part of it
at `info` at most. -/
def standard (level : Level) : Filter :=
  { level := level.min .info } :: programTargets.map fun target => { target, level }

/-- The text of the standard filter of a level: a level for all targets, and one for each part. -/
def directives (level : Level) : String :=
  programTargets.foldl (fun text target => text ++ "," ++ target ++ "=" ++ level.name)
    (level.min .info).name

/-- The texts between commas. -/
def pieces : List Char → List (List Char)
  | [] => [[]]
  | c :: cs =>
    if c = ',' then [] :: pieces cs
    else match pieces cs with
      | [] => [[c]]
      | piece :: more => (c :: piece) :: more

/-- Reads a filter from directives between commas, and says what is wrong with the ones left out.
A filter without any directive lets errors through. -/
def read (text : String) : Filter × List String :=
  let texts := ((pieces text.toList).map String.ofList).filter (· ≠ "")
  let filter := texts.filterMap fun t => (Directive.read t).toOption
  (if filter = [] then [{ level := .error }] else filter, texts.filterMap Directive.complaint?)

/-- A filter without directives says nothing of a target. -/
@[simp] theorem levelOf?_nil (target : String) : levelOf? [] target = none := rfl

/-- A directive that does not cover a target does not count for it. -/
theorem levelOf?_cons_of_not_covers {d : Directive} {target : String} (f : Filter)
    (h : d.covers target = false) : levelOf? (d :: f) target = levelOf? f target := by
  simp [levelOf?, h]

end Filter

end Log

end ClientMetrics
