import WorkflowRuns.Session.Basic

/-!
# The workflow of a session

A workflow that starts takes the place of one that is active, with everything below it, and its
metadata go to the `github` context and from there into the process environment. When it ends, its
record and a copy of its source are kept.
-/

namespace WorkflowRuns.Session

/-- The `github` context during a run of a workflow, before any job is active. -/
def githubDuring (github : Context.Github) (run : WorkflowRun) : Context.Github :=
  { github with
    runId := run.runId
    runNumber := run.runNumber
    runAttempt := run.runAttempt
    retentionDays := run.retentionDays
    workflow := run.workflow.name
    workflowRef := s!"{github.repository}/{run.workflow.path}@{github.ref}"
    workflowSha := github.sha
    job := "" }

/-- Sets variables in turn, up to the first that is refused; whether none was. -/
def setAll (process : ProcessEnvironment) : List (String × String) → ProcessEnvironment × Bool
  | [] => (process, true)
  | (name, value) :: rest =>
    match process.set? name value with
    | some process => setAll process rest
    | none => (process, false)

/-- Hands the `github` context on in the process environment. What is empty is not handed on. -/
def handOnGithub (s : Session) : Session × Bool :=
  let (process, complete) := setAll s.process (s.github.exports.filter (·.2 ≠ ""))
  ({ s with process := process }, complete)

/-- What is logged when a run takes the place of another one. -/
def replacedWorkflow (previous : Option WorkflowRun) (run : WorkflowRun) : List Notice :=
  match previous with
  | none => []
  | some previous =>
    [logWarning s!"Replacing active workflow run {previous.runId} with {run.runId}"]

/-- Starts a run of a workflow. Whatever conclusion it carries, it starts as a success. -/
def startWorkflow (s : Session) (run : WorkflowRun) : Outcome :=
  let started := { s with
    github := githubDuring s.github run
    job := {}
    steps := ∅
    needs := ∅
    matrix := ∅
    workflowRun := some { run with conclusion := .success }
    jobRun := none
    stepRun := none }
  let (handedOn, complete) := started.handOnGithub
  let notices := replacedWorkflow s.workflowRun run
  if complete then .done handedOn.refresh notices else ⟨.aborted, handedOn, notices⟩

/-- What is traced when a workflow ends before its step and its job. -/
def abandonedInWorkflow (s : Session) : List Notice :=
  (if s.stepRun.isSome then [traceWarning "Workflow retired with a step still active"] else []) ++
  (if s.jobRun.isSome then [traceWarning "Workflow retired with a job still active"] else [])

/-- What is kept of a workflow: its record, and its source if it has one. -/
def workflowFilings (s : Session) (run : WorkflowRun) (result : RunResult) : List Notice :=
  let place := Layout.workflowRun s.home run.runId
  [filing run "workflow run"
    (.document (Path.join place "workflow_run.json") (report result run.toJson)),
  if run.workflow.path = "" then
    .trace ⟨.verbose, "Workflow has no source path, skipping workflow source copy"⟩
  else
    filing run "workflow" (.copy run.workflow.path (Path.join place "workflow.yaml"))]

/-- Ends the active workflow and gives its record back. -/
def retireWorkflow (s : Session) (result : RunResult) : Outcome :=
  match s.workflowRun with
  | none => ⟨.retired none, s, []⟩
  | some run =>
    { reply := .retired (some run)
      session := { s with
        github := { s.github with job := "" }
        job := {}
        matrix := ∅
        environment := ∅
        workflowRun := none
        jobRun := none
        stepRun := none }
      notices := s.abandonedInWorkflow ++ s.workflowFilings run result }

/-- Changes the record of the active workflow from outside. -/
def editWorkflow (s : Session) (change : WorkflowRun → WorkflowRun) : Outcome :=
  .done { s with workflowRun := s.workflowRun.map change } []

end WorkflowRuns.Session
