import WorkflowRuns.Session.Basic

/-!
# The step of a session

A step that ends is added to the record of the job, whatever its stage. Only the main stage is seen
by later steps and kept.
-/

namespace WorkflowRuns.Session

/-- What is logged when a run takes the place of another one. -/
def replacedStep (previous : Option StepRun) (run : StepRun) : List Notice :=
  match previous with
  | none => []
  | some previous =>
    let { step := old, stage := oldStage, .. } := previous
    [logWarning <| s!"Replacing active step run {old.id} ({oldStage.name}) with " ++
      s!"{run.step.id} ({run.stage.name})"]

/-- Starts a run of a step of the active job. -/
def startStep (s : Session) (run : StepRun) : Outcome :=
  match s.jobRun with
  | none => .outOfScope s .noActiveJob
  | some _ =>
    let started := { s with stepRun := some run }
    .done started.refresh (replacedStep s.stepRun run)

/-- What is kept of a step: its record, and its summary if it has one. -/
def stepFilings (s : Session) (run : WorkflowRun) (job : JobRun) (step : StepRun)
    (result : RunResult) : List Notice :=
  let place := Layout.stepRun s.home run.runId job.job.id step.step.id
  let record := filing run "step run"
    (.document (Path.join place "step_run.json") (report result step.toJson))
  if step.summary = "" then [record]
  else
    [record,
      filing run "step run summary"
        (.bytes (Path.join place "summary.md") step.summary.toUTF8)]

/-- Ends the active step, if there is one. -/
def retireStep (s : Session) (result : RunResult) : Outcome :=
  match s.stepRun with
  | none => .done s []
  | some step =>
    let ended : Session := { s with
      stepRun := none
      jobRun := s.jobRun.map fun job => { job with steps := job.steps ++ [step] } }
    let ended := ended.refresh
    if step.stage = .main then
      let ended := { ended with steps := s.steps.insert step.step.id (.ofRun step) }
      match ended.workflowRun, ended.jobRun with
      | some run, some job => .done ended (s.stepFilings run job step result)
      | _, _ => .done ended []
    else .done ended []

/-- Records something of the active step. -/
def write (s : Session) (w : StepWrite) : Outcome :=
  match s.stepRun with
  | none => .outOfScope s .noActiveStep
  | some step => .done { s with stepRun := some (step.write w) } []

/-- Makes an action the active one. -/
def startAction (s : Session) (action : CustomAction) : Outcome :=
  .done { s with github := { s.github with actionPath := action.path }, action := some action } []

/-- Leaves the active action. -/
def leaveAction (s : Session) : Outcome :=
  .done { s with github := { s.github with actionPath := "" }, action := none } []

/-- Names the file into which the active step writes variables; the empty path names none. -/
def nameEnvironmentFile (s : Session) (path : String) : Outcome :=
  .done { s with github := { s.github with envFile := path } } []

/-- Names the file into which the active step writes directories of the search path; the empty path
names none. -/
def namePathFile (s : Session) (path : String) : Outcome :=
  .done { s with github := { s.github with pathFile := path } } []

end WorkflowRuns.Session
