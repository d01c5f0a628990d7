import WorkflowRuns.Files.Operations
import WorkflowRuns.Json.Record
import WorkflowRuns.Text.Basic
import WorkflowRuns.Trace

/-!
# Settings

Settings come from a file and are overridden by variables. A variable that is empty or makes no
sense overrides nothing.
-/

namespace WorkflowRuns

/-- The form of the log. -/
inductive LogFormat where
  | text
  | json
deriving DecidableEq

/-- The word for a form of the log. -/
def LogFormat.name : LogFormat → String
  | text => "text"
  | json => "json"

/-- The form of the log of a word. -/
def LogFormat.ofName? : String → Option LogFormat
  | "text" => some text
  | "json" => some json
  | _ => none

/-- A way to look variables up. -/
abbrev Lookup := String → Option String

/-- The settings. -/
structure Settings where
  /-- The directory in which everything is kept. -/
  home : String := ".ghx"
  /-- Whether details are logged. -/
  debug : Bool := false
  /-- The form of the log. -/
  logFormat : LogFormat := .text
deriving DecidableEq

open Json

/-- Writes a form of the log. -/
def LogFormat.toJson (f : LogFormat) : Json := .string f.name

/-- Reads a form of the log. -/
def LogFormat.ofJson? (j : Json) : Option LogFormat := j.asWord? ofName?

namespace Settings

/-- Writes settings. -/
def toJson (s : Settings) : Json := record [
  field "home" (.string s.home),
  field "debug" (.bool s.debug),
  field "log_format" s.logFormat.toJson]

/-- Reads settings. -/
def ofJson? (j : Json) : Option Settings := do
  let ms ← j.fields? ["home", "debug", "log_format"]
  return {
    home := ← defaulted? ms "home" asString? ".ghx"
    debug := ← defaulted? ms "debug" asBool? false
    logFormat := ← defaulted? ms "log_format" LogFormat.ofJson? .text }

/-- Whether variables turn details on or off: the first variable that says something decides. -/
def debugSwitch? (lookup : Lookup) : Option Bool :=
  ((lookup "RUNNER_DEBUG").bind Text.switch?).or
    ((lookup "ACTIONS_STEP_DEBUG").bind Text.switch?)

/-- The settings with what variables override, and what is logged about it. -/
def override (s : Settings) (lookup : Lookup) : Settings × List LogEvent :=
  let home := match lookup "GHX_HOME" with
    | none | some "" => s.home
    | some home => home
  let debug := (debugSwitch? lookup).getD s.debug
  let format := String.ofList (Text.lower ((lookup "GHX_LOG_FORMAT").getD "").toList)
  let (logFormat, events) := match LogFormat.ofName? format with
    | some f => (f, [])
    | none =>
      (s.logFormat,
        if format = "" then []
        else [⟨.warn, s!"Ignoring unknown log format '{format}'"⟩])
  (⟨home, debug, logFormat⟩, events)

/-- Loads settings from a file and overrides them. -/
def load (d : Disk) (path : String) (lookup : Lookup) :
    Except Failure (Settings × List LogEvent) :=
  (d.loadJson path ofJson?).map fun s =>
    let (s, events) := s.override lookup
    (s, events ++ [⟨.debug, s!"Loaded settings from '{path}' (home = '{s.home}')"⟩])

end Settings

end WorkflowRuns
