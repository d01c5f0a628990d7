import WorkflowRuns.Conclusion
import WorkflowRuns.Workflow.Definition

/-!
# Runs

What is recorded of a workflow, a job and a step while they run: the definition that is being run,
how it ended, and what it gave. The record of a job run holds the runs of its steps, that of a
workflow run the runs of its jobs.
-/

namespace WorkflowRuns

/-- The part of a step that is being run. -/
inductive StepStage where
  | setup
  | pre
  | main
  | post
  | complete
deriving DecidableEq

/-- The word for a stage. -/
def StepStage.name : StepStage → String
  | setup => "setup"
  | pre => "pre"
  | main => "main"
  | post => "post"
  | complete => "complete"

/-- The stage of a word. -/
def StepStage.ofName? : String → Option StepStage
  | "setup" => some setup
  | "pre" => some pre
  | "main" => some main
  | "post" => some post
  | "complete" => some complete
  | _ => none

/-- The values of the matrix for one run of a job. -/
abbrev Matrix := Dict String Datum

/-- One run of a stage of a step. -/
structure StepRun where
  /-- The step. -/
  step : Step := {}
  /-- The stage. -/
  stage : StepStage := .main
  /-- What the outcome counts as. -/
  conclusion : Conclusion := .success
  /-- How it ended. -/
  outcome : Conclusion := .success
  /-- The outputs that it gave. -/
  outputs : Variables := ∅
  /-- What it saved for its later stages. -/
  state : Variables := ∅
  /-- The summary that it wrote. -/
  summary : String := ""
  /-- The variables that it set for later steps. -/
  environment : Variables := ∅
  /-- The directories that it added to the search path, in order. -/
  path : List String := []
deriving DecidableEq

/-- Something that is recorded of a step while it runs. -/
inductive StepWrite where
  /-- How the step ended. -/
  | results (conclusion outcome : Conclusion)
  /-- An output. -/
  | output (name value : String)
  /-- A value for the later stages of the step. -/
  | state (name value : String)
  /-- The summary, in place of any before. -/
  | summary (text : String)
  /-- A variable for later steps. -/
  | environment (name value : String)
  /-- A directory for the search path of later steps. -/
  | path (entry : String)
deriving DecidableEq

/-- The run of a step with something more recorded of it. -/
def StepRun.write (r : StepRun) : StepWrite → StepRun
  | .results conclusion outcome => { r with conclusion := conclusion, outcome := outcome }
  | .output name value => { r with outputs := r.outputs.insert name value }
  | .state name value => { r with state := r.state.insert name value }
  | .summary text => { r with summary := text }
  | .environment name value => { r with environment := r.environment.insert name value }
  | .path entry => { r with path := r.path ++ [entry] }

/-- One run of a job. -/
structure JobRun where
  /-- The job. -/
  job : Job := {}
  /-- Its values of the matrix. -/
  matrix : Matrix := ∅
  /-- What the outcome counts as. -/
  conclusion : Conclusion := .success
  /-- How it ended. -/
  outcome : Conclusion := .success
  /-- The outputs that it gave. -/
  outputs : Variables := ∅
  /-- The runs of its steps, in the order in which they ended. -/
  steps : List StepRun := []

/-- One run of a workflow. -/
structure WorkflowRun where
  /-- The identifier of the run. -/
  runId : String := ""
  /-- The number of the run among those of its workflow. -/
  runNumber : String := ""
  /-- The number of the attempt. -/
  runAttempt : String := ""
  /-- For how many days its artifacts are kept. -/
  retentionDays : String := ""
  /-- The workflow. -/
  workflow : Workflow := {}
  /-- How it ended. -/
  conclusion : Conclusion := .success
  /-- The runs of its jobs, by the identifier of the job. -/
  jobs : Dict String JobRun := ∅

/-- The first run of a workflow, before any job has run. -/
def WorkflowRun.start (runId : String) (workflow : Workflow) : WorkflowRun where
  runId := runId
  runNumber := "1"
  runAttempt := "1"
  retentionDays := "0"
  workflow := workflow

/-- Registers the run of a job, in place of an earlier one of the same job. -/
def WorkflowRun.register (run : WorkflowRun) (job : JobRun) : WorkflowRun :=
  { run with jobs := run.jobs.insert job.job.id job }

/-- Takes the end of a job into the conclusion: the first one that is no success decides. -/
def WorkflowRun.conclude (run : WorkflowRun) (job : Conclusion) : WorkflowRun :=
  if run.conclusion = .success then { run with conclusion := job } else run

/-! ## JSON forms -/

open Json

/-- Writes a conclusion. -/
def Conclusion.toJson (c : Conclusion) : Json := .string c.name

/-- Reads a conclusion. -/
def Conclusion.ofJson? (j : Json) : Option Conclusion := j.asWord? ofName?

/-- Writes a stage. -/
def StepStage.toJson (s : StepStage) : Json := .string s.name

/-- Reads a stage. -/
def StepStage.ofJson? (j : Json) : Option StepStage := j.asWord? ofName?

/-- Writes the values of a matrix. -/
def Matrix.toJson (m : Matrix) : Json := ofDict Datum.json m

/-- Reads the values of a matrix. -/
def Matrix.ofJson? (j : Json) : Option Matrix := j.asDict? Json.datum?

namespace StepRun

/-- Writes the run of a step. -/
def toJson (r : StepRun) : Json := record [
  field "step" r.step.toJson,
  field "stage" r.stage.toJson,
  field "conclusion" r.conclusion.toJson,
  field "outcome" r.outcome.toJson,
  field "outputs" (ofTexts r.outputs),
  field "state" (ofTexts r.state),
  field "summary" (.string r.summary),
  field "environment" (ofTexts r.environment),
  field "path" (Json.ofList .string r.path)]

/-- Reads the run of a step. -/
def ofJson? (j : Json) : Option StepRun := do
  let ms ← j.fields? ["step", "stage", "conclusion", "outcome", "outputs", "state", "summary",
    "environment", "path"]
  return {
    step := ← required? ms "step" Step.ofJson?
    stage := ← required? ms "stage" StepStage.ofJson?
    conclusion := ← required? ms "conclusion" Conclusion.ofJson?
    outcome := ← required? ms "outcome" Conclusion.ofJson?
    outputs := ← required? ms "outputs" asTexts?
    state := ← required? ms "state" asTexts?
    summary := ← required? ms "summary" asString?
    environment := ← required? ms "environment" asTexts?
    path := ← required? ms "path" (asList? asString?) }

end StepRun

namespace JobRun

/-- Writes the run of a job. -/
def toJson (r : JobRun) : Json := record [
  field "job" r.job.toJson,
  field "matrix" (Matrix.toJson r.matrix),
  field "conclusion" r.conclusion.toJson,
  field "outcome" r.outcome.toJson,
  field "outputs" (ofTexts r.outputs),
  field "steps" (Json.ofList StepRun.toJson r.steps)]

/-- Reads the run of a job. -/
def ofJson? (j : Json) : Option JobRun := do
  let ms ← j.fields? ["job", "matrix", "conclusion", "outcome", "outputs", "steps"]
  return {
    job := ← required? ms "job" Job.ofJson?
    matrix := ← defaulted? ms "matrix" Matrix.ofJson? ∅
    conclusion := ← required? ms "conclusion" Conclusion.ofJson?
    outcome := ← required? ms "outcome" Conclusion.ofJson?
    outputs := ← required? ms "outputs" asTexts?
    steps := ← required? ms "steps" (asList? StepRun.ofJson?) }

end JobRun

namespace WorkflowRun

/-- Writes the run of a workflow. -/
def toJson (r : WorkflowRun) : Json := record [
  field "run_id" (.string r.runId),
  field "run_number" (.string r.runNumber),
  field "run_attempt" (.string r.runAttempt),
  field "retention_days" (.string r.retentionDays),
  field "workflow" r.workflow.toJson,
  field "conclusion" r.conclusion.toJson,
  field "jobs" (ofDict JobRun.toJson r.jobs)]

/-- Reads the run of a workflow. -/
def ofJson? (j : Json) : Option WorkflowRun := do
  let ms ← j.fields? ["run_id", "run_number", "run_attempt", "retention_days", "workflow",
    "conclusion", "jobs"]
  return {
    runId := ← required? ms "run_id" asString?
    runNumber := ← required? ms "run_number" asString?
    runAttempt := ← required? ms "run_attempt" asString?
    retentionDays := ← required? ms "retention_days" asString?
    workflow := ← required? ms "workflow" Workflow.ofJson?
    conclusion := ← required? ms "conclusion" Conclusion.ofJson?
    jobs := ← required? ms "jobs" (asDict? JobRun.ofJson?) }

end WorkflowRun

end WorkflowRuns
