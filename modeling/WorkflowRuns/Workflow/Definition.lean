import WorkflowRuns.Environment.Variables
import WorkflowRuns.Json.Record

/-!
# Workflows as they are defined

A workflow has jobs, a job has steps, and each of the three defines environment variables. They are
read from JSON and written as JSON; the fields that are left out when they are empty are the ones
written with `fieldUnless`.
-/

namespace WorkflowRuns

/-- One step of a job. -/
structure Step where
  /-- The identifier. -/
  id : String := ""
  /-- The expression that decides whether the step runs. -/
  condition : String := ""
  /-- The name that is shown. -/
  name : String := ""
  /-- The action or container image to run, if it is one. -/
  uses : String := ""
  /-- The variables that the step defines. -/
  environment : Variables := ∅
  /-- The inputs of the action. -/
  arguments : Variables := ∅
  /-- The script to run, if it is one. -/
  script : String := ""
  /-- The shell that runs the script. -/
  shell : String := ""
  /-- Where the script runs. -/
  workingDirectory : String := ""
  /-- Whether a failure is tolerated. -/
  continueOnError : Bool := false
  /-- After how many minutes the step is stopped; 0 if never. -/
  timeoutMinutes : UInt32 := 0
deriving DecidableEq

/-- What a step runs. -/
inductive StepType where
  /-- A script. -/
  | run
  /-- An action. -/
  | action
  /-- A container image. -/
  | docker
  /-- Nothing. -/
  | unknown
deriving DecidableEq

/-- What a step runs. An action or image goes before a script. -/
def Step.type (s : Step) : StepType :=
  if "docker://".toList.isPrefixOf s.uses.toList then .docker
  else if s.uses ≠ "" then .action
  else if s.script ≠ "" then .run
  else .unknown

/-- One job of a workflow. -/
structure Job where
  /-- The identifier. -/
  id : String := ""
  /-- The name that is shown. -/
  name : String := ""
  /-- The variables that the job defines. -/
  environment : Variables := ∅
  /-- The jobs that have to run before. -/
  needs : List String := []
  /-- The expressions of its outputs. -/
  outputs : Variables := ∅
  /-- The steps, in order. -/
  steps : List Step := []
deriving DecidableEq

/-- A workflow. -/
structure Workflow where
  /-- The path of its source. -/
  path : String := ""
  /-- The name. -/
  name : String := ""
  /-- The variables that the workflow defines. -/
  environment : Variables := ∅
  /-- The jobs by identifier. -/
  jobs : Dict String Job := ∅
deriving DecidableEq

/-! ## JSON forms -/

open Json

/-- The word for what a step runs. -/
def StepType.name : StepType → String
  | run => "run"
  | action => "action"
  | docker => "docker"
  | unknown => "unknown"

/-- What a step runs, by its word. -/
def StepType.ofName? : String → Option StepType
  | "run" => some run
  | "action" => some action
  | "docker" => some docker
  | "unknown" => some unknown
  | _ => none

namespace Step

/-- Writes a step. -/
def toJson (s : Step) : Json := record [
  field "id" (.string s.id),
  fieldUnless (s.condition = "") "if" (.string s.condition),
  fieldUnless (s.name = "") "name" (.string s.name),
  fieldUnless (s.uses = "") "uses" (.string s.uses),
  field "env" (ofTexts s.environment),
  fieldUnless s.arguments.isEmpty "with" (ofTexts s.arguments),
  fieldUnless (s.script = "") "run" (.string s.script),
  fieldUnless (s.shell = "") "shell" (.string s.shell),
  fieldUnless (s.workingDirectory = "") "working-directory" (.string s.workingDirectory),
  field "continue-on-error" (.bool s.continueOnError),
  fieldUnless (s.timeoutMinutes = 0) "timeout-minutes" (.number (.int s.timeoutMinutes.toNat))]

/-- Reads a step. -/
def ofJson? (j : Json) : Option Step := do
  let ms ← j.fields? ["id", "if", "name", "uses", "env", "with", "run", "shell",
    "working-directory", "continue-on-error", "timeout-minutes"]
  return {
    id := ← defaulted? ms "id" asString? ""
    condition := ← defaulted? ms "if" asString? ""
    name := ← defaulted? ms "name" asString? ""
    uses := ← defaulted? ms "uses" asString? ""
    environment := ← defaulted? ms "env" asTexts? ∅
    arguments := ← defaulted? ms "with" asTexts? ∅
    script := ← defaulted? ms "run" asString? ""
    shell := ← defaulted? ms "shell" asString? ""
    workingDirectory := ← defaulted? ms "working-directory" asString? ""
    continueOnError := ← defaulted? ms "continue-on-error" asBool? false
    timeoutMinutes := ← defaulted? ms "timeout-minutes" asUInt32? 0 }

end Step

namespace Job

/-- Writes a job. -/
def toJson (j : Job) : Json := record [
  field "id" (.string j.id),
  fieldUnless (j.name = "") "name" (.string j.name),
  field "env" (ofTexts j.environment),
  field "needs" (Json.ofList .string j.needs),
  fieldUnless j.outputs.isEmpty "outputs" (ofTexts j.outputs),
  field "steps" (Json.ofList Step.toJson j.steps)]

/-- Reads a job. -/
def ofJson? (j : Json) : Option Job := do
  let ms ← j.fields? ["id", "name", "env", "needs", "outputs", "steps"]
  return {
    id := ← defaulted? ms "id" asString? ""
    name := ← defaulted? ms "name" asString? ""
    environment := ← defaulted? ms "env" asTexts? ∅
    needs := ← defaulted? ms "needs" (asList? asString?) []
    outputs := ← defaulted? ms "outputs" asTexts? ∅
    steps := ← defaulted? ms "steps" (asList? Step.ofJson?) [] }

end Job

namespace Workflow

/-- Writes a workflow. -/
def toJson (w : Workflow) : Json := record [
  field "path" (.string w.path),
  field "name" (.string w.name),
  field "env" (ofTexts w.environment),
  field "jobs" (ofDict Job.toJson w.jobs)]

/-- Reads a workflow. -/
def ofJson? (j : Json) : Option Workflow := do
  let ms ← j.fields? ["path", "name", "env", "jobs"]
  return {
    path := ← defaulted? ms "path" asString? ""
    name := ← defaulted? ms "name" asString? ""
    environment := ← defaulted? ms "env" asTexts? ∅
    jobs := ← defaulted? ms "jobs" (asDict? Job.ofJson?) ∅ }

end Workflow

end WorkflowRuns
