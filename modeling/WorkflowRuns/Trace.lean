import WorkflowRuns.Text.Basic

/-!
# Trace and log

What a run tells its user goes to the trace, a list of messages with a level. What the program tells
its operator goes to the log. A trace can be passed on to the log.
-/

namespace WorkflowRuns

/-- How severe a trace message is. -/
inductive TraceLevel where
  | verbose
  | info
  | warning
  | error
deriving DecidableEq

namespace TraceLevel

/-- The place of a level among the levels, the least severe first. -/
def rank : TraceLevel → Nat
  | verbose => 0
  | info => 1
  | warning => 2
  | error => 3

instance : LT TraceLevel := ⟨fun a b => a.rank < b.rank⟩

instance : DecidableLT TraceLevel := fun a b => inferInstanceAs (Decidable (a.rank < b.rank))

/-- The four characters that are shown for a level. -/
def label : TraceLevel → String
  | verbose => "VERB"
  | info => "INFO"
  | warning => "WARN"
  | error => "ERR "

end TraceLevel

/-- A message of a trace. -/
structure TraceMessage where
  /-- How severe it is. -/
  level : TraceLevel
  /-- What it says. -/
  text : String
deriving DecidableEq

/-- The texts of a trace at one level. -/
def textsAt (level : TraceLevel) (trace : List TraceMessage) : List String :=
  (trace.filter (·.level = level)).map (·.text)

/-- Whether a trace has a message of the level with a text in it. -/
def mentions (level : TraceLevel) (needle : String) (trace : List TraceMessage) : Bool :=
  trace.any fun m => m.level = level && Text.occursIn needle.toList m.text.toList

/-- How severe an event of the log is. -/
inductive Severity where
  | debug
  | info
  | warn
  | error
deriving DecidableEq

/-- The word for a severity. -/
def Severity.name : Severity → String
  | debug => "DEBUG"
  | info => "INFO"
  | warn => "WARN"
  | error => "ERROR"

/-- An event of the log. -/
structure LogEvent where
  /-- How severe it is. -/
  severity : Severity
  /-- What it says. -/
  text : String
deriving DecidableEq

/-- The severity with which messages of a level are logged. -/
def TraceLevel.severity : TraceLevel → Severity
  | verbose => .debug
  | info => .info
  | warning => .warn
  | error => .error

/-- A trace message as an event of the log. -/
def TraceMessage.toLogEvent (m : TraceMessage) : LogEvent := ⟨m.level.severity, m.text⟩

end WorkflowRuns
