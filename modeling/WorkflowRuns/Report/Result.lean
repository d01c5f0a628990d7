import WorkflowRuns.Json.Record
import WorkflowRuns.Time.Instant

/-!
# Results of runs

Whoever runs a workflow, a job or a step tells how that went: whether it was run at all, when, and
what stopped it.
-/

namespace WorkflowRuns

/-- How a run went. -/
structure RunResult where
  /-- Whether it was run at all. -/
  ran : Bool
  /-- When it started. -/
  startedAt : Instant
  /-- When it ended. -/
  completedAt : Instant
  /-- The error that stopped it. -/
  error : Option String
deriving DecidableEq

open Json

/-- Writes a point in time. -/
def Instant.toJson (t : Instant) : Json := .string t.text

/-- Reads a point in time. -/
def Instant.ofJson? (j : Json) : Option Instant := j.asString?.bind Instant.ofText?

namespace RunResult

/-- A run that came to its end. -/
def complete (startedAt completedAt : Instant) : RunResult := ⟨true, startedAt, completedAt, none⟩

/-- A run that an error stopped. -/
def failed (error : String) (startedAt completedAt : Instant) : RunResult :=
  ⟨true, startedAt, completedAt, some error⟩

/-- Nothing was run. -/
def skipped (startedAt completedAt : Instant) : RunResult := ⟨false, startedAt, completedAt, none⟩

/-- Writes a result. -/
def toJson (r : RunResult) : Json := record [
  field "ran" (.bool r.ran),
  field "started_at" r.startedAt.toJson,
  field "completed_at" r.completedAt.toJson,
  fieldUnless r.error.isNone "error" (ofOption .string r.error)]

/-- Reads a result. -/
def ofJson? (j : Json) : Option RunResult := do
  let ms ← j.fields? ["ran", "started_at", "completed_at", "error"]
  return {
    ran := ← required? ms "ran" asBool?
    startedAt := ← required? ms "started_at" Instant.ofJson?
    completedAt := ← required? ms "completed_at" Instant.ofJson?
    error := ← optional? ms "error" asString? }

end RunResult

/-- A report: how a run went, and what was recorded of it. -/
def report (result : RunResult) (run : Json) : Json :=
  .object [("result", result.toJson), ("run", run)]

end WorkflowRuns
