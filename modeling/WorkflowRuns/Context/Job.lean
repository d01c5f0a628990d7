import WorkflowRuns.Workflow.Run

/-!
# The `job`, `steps` and `needs` contexts

What a job sees of itself, of its steps that have run, and of the jobs that it needs.
-/

namespace WorkflowRuns.Context

/-- The `job` context. -/
structure Job where
  /-- How the job stands. -/
  status : Conclusion := .success
deriving DecidableEq

/-- What the `steps` context tells of one step. -/
structure Step where
  /-- What the step saved for its later stages. -/
  state : Variables := ∅
  /-- The summary that it wrote. -/
  summary : String := ""
  /-- Its outputs. -/
  outputs : Variables := ∅
  /-- How it ended. -/
  outcome : Conclusion := .success
  /-- What the outcome counts as. -/
  conclusion : Conclusion := .success
deriving DecidableEq

/-- What a run of a step tells later steps. -/
def Step.ofRun (r : StepRun) : Step where
  state := r.state
  summary := r.summary
  outputs := r.outputs
  outcome := r.outcome
  conclusion := r.conclusion

/-- The `steps` context: what is told of steps, by identifier. -/
abbrev Steps := Dict String Step

/-- An output of a step. -/
def Steps.output? (s : Steps) (id name : String) : Option String :=
  (s.get? id).bind fun step => step.outputs.get? name

/-- What the `needs` context tells of one job. -/
structure Need where
  /-- How the job ended. -/
  result : Conclusion := .success
  /-- Its outputs. -/
  outputs : Variables := ∅
deriving DecidableEq

/-- What a run of a job tells the jobs that need it. -/
def Need.ofRun (r : JobRun) : Need := ⟨r.conclusion, r.outputs⟩

/-- The `needs` context: what is told of jobs, by identifier. -/
abbrev Needs := Dict String Need

/-- What is known of the jobs that are needed, and those of which nothing is known, in the order and
as often as they are needed. -/
def Needs.snapshot (jobs : Dict String JobRun) : List String → Needs × List String
  | [] => (∅, [])
  | id :: ids =>
    let (needs, missing) := snapshot jobs ids
    match jobs.get? id with
    | some run => (needs.insert id (.ofRun run), missing)
    | none => (needs, id :: missing)

open Json

/-- Writes the `job` context. -/
def Job.toJson (j : Job) : Json := record [field "status" j.status.toJson]

/-- Reads the `job` context. -/
def Job.ofJson? (j : Json) : Option Job := do
  let ms ← j.fields? ["status"]
  return { status := ← required? ms "status" Conclusion.ofJson? }

namespace Step

/-- Writes what is told of a step. -/
def toJson (s : Step) : Json := record [
  field "state" (ofTexts s.state),
  field "summary" (.string s.summary),
  field "outputs" (ofTexts s.outputs),
  field "outcome" s.outcome.toJson,
  field "conclusion" s.conclusion.toJson]

/-- Reads what is told of a step. -/
def ofJson? (j : Json) : Option Step := do
  let ms ← j.fields? ["state", "summary", "outputs", "outcome", "conclusion"]
  return {
    state := ← required? ms "state" asTexts?
    summary := ← required? ms "summary" asString?
    outputs := ← required? ms "outputs" asTexts?
    outcome := ← required? ms "outcome" Conclusion.ofJson?
    conclusion := ← required? ms "conclusion" Conclusion.ofJson? }

end Step

/-- Writes the `steps` context. -/
def Steps.toJson (s : Steps) : Json := ofDict Step.toJson s

/-- Reads the `steps` context. -/
def Steps.ofJson? (j : Json) : Option Steps := j.asDict? Step.ofJson?

namespace Need

/-- Writes what is told of a job. -/
def toJson (n : Need) : Json := record [
  field "result" n.result.toJson,
  field "outputs" (ofTexts n.outputs)]

/-- Reads what is told of a job. -/
def ofJson? (j : Json) : Option Need := do
  let ms ← j.fields? ["result", "outputs"]
  return {
    result := ← required? ms "result" Conclusion.ofJson?
    outputs := ← required? ms "outputs" asTexts? }

end Need

/-- Writes the `needs` context. -/
def Needs.toJson (n : Needs) : Json := ofDict Need.toJson n

/-- Reads the `needs` context. -/
def Needs.ofJson? (j : Json) : Option Needs := j.asDict? Need.ofJson?

end WorkflowRuns.Context
