import WorkflowRuns.EnvironmentFile.Entry
import WorkflowRuns.Files.Disk

/-!
# Failures

A failure is a cause together with what was being done when it came up, the outermost activity
first. Its message names all of them.
-/

namespace WorkflowRuns

/-- Which scope an operation needs that is not there. -/
inductive ScopeError where
  | noActiveWorkflow
  | noActiveJob
  | noActiveStep
deriving DecidableEq

/-- What is said of a missing scope. -/
def ScopeError.message : ScopeError → String
  | noActiveWorkflow => "no workflow is set"
  | noActiveJob => "no job is set"
  | noActiveStep => "no step is set"

/-- Why something failed. -/
inductive Cause where
  /-- A scope is missing. -/
  | scope (e : ScopeError)
  /-- An environment file is malformed. -/
  | entry (e : EnvironmentFile.ReadError)
  /-- The system refused an operation on files. -/
  | os (e : OsError)
  /-- A file that should hold text does not. -/
  | notUtf8
  /-- A text is no JSON, or not of the form that is needed. -/
  | json
  /-- Something else, told in words. -/
  | other (text : String)
deriving DecidableEq

/-- What is said of a cause. The trouble with a JSON text is not told in detail. -/
def Cause.message : Cause → String
  | scope e => e.message
  | entry e => e.message
  | os e => e.message
  | notUtf8 => "stream did not contain valid UTF-8"
  | json => "<json error>"
  | other text => text

/-- A cause, and what was being done. -/
structure Failure where
  /-- What was being done, outermost first. -/
  contexts : List String
  /-- Why it failed. -/
  cause : Cause
deriving DecidableEq

namespace Failure

/-- What is said of a failure. -/
def message (f : Failure) : String := ": ".intercalate (f.contexts ++ [f.cause.message])

/-- The failure as part of an activity. -/
def during (context : String) (f : Failure) : Failure :=
  { f with contexts := context :: f.contexts }

/-- The result of a part of an activity, which a failure names. -/
def whileDoing {α : Type} (context : String) (r : Except Failure α) : Except Failure α :=
  r.mapError (during context)

end Failure

end WorkflowRuns
