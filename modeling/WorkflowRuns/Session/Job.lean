import WorkflowRuns.Session.Basic

/-!
# The job of a session

A job that starts is registered in the record of the workflow at once, and its record there is
brought up to date when it ends. What it needs of other jobs is looked up once, at its start.
-/

namespace WorkflowRuns.Session

/-- What is logged when a run takes the place of another one. -/
def replacedJob (previous : Option JobRun) (run : JobRun) : List Notice :=
  match previous with
  | none => []
  | some previous =>
    [logWarning s!"Replacing active job run {previous.job.id} with {run.job.id}"]

/-- What is traced of a job that is needed and of which nothing is known. -/
def missingNeed (run : JobRun) (need : String) : Notice :=
  traceWarning s!"Job '{run.job.id}' needs '{need}' which has not run"

/-- Starts a run of a job of the active workflow. -/
def startJob (s : Session) (run : JobRun) : Outcome :=
  match s.workflowRun with
  | none => .outOfScope s .noActiveWorkflow
  | some workflow =>
    let workflow := workflow.register run
    let (needs, missing) := Context.Needs.snapshot workflow.jobs run.job.needs
    let started := { s with
      github := { s.github with job := run.job.id }
      job := ⟨workflow.conclusion⟩
      steps := ∅
      needs := needs
      matrix := run.matrix
      workflowRun := some workflow
      jobRun := some run
      stepRun := none }
    .done started.refresh (replacedJob s.jobRun run ++ missing.map (missingNeed run))

/-- What is traced when a job ends before its step. -/
def abandonedInJob (s : Session) (job : JobRun) : List Notice :=
  if s.stepRun.isSome then
    [traceWarning s!"Job '{job.job.id}' retired with a step still active"]
  else []

/-- What is kept of a job: its record. -/
def jobFiling (s : Session) (run : WorkflowRun) (job : JobRun) (result : RunResult) : Notice :=
  let place := Layout.jobRun s.home run.runId job.job.id
  filing run "job run" (.document (Path.join place "job_run.json") (report result job.toJson))

/-- Ends the active job, if there is one. -/
def retireJob (s : Session) (result : RunResult) : Outcome :=
  match s.jobRun with
  | none => .done s []
  | some job =>
    let ended := { s with jobRun := none, stepRun := none }
    match s.workflowRun with
    | none => .done ended (s.abandonedInJob job)
    | some run =>
      let run := (run.register job).conclude job.conclusion
      let ended := { ended with
        github := { s.github with job := "" }
        matrix := ∅
        workflowRun := some run }
      .done ended.refresh (s.abandonedInJob job ++ [s.jobFiling run job result])

/-- Records how the active job ended. -/
def concludeJob (s : Session) (conclusion outcome : Conclusion) (outputs : Variables) : Outcome :=
  match s.jobRun with
  | none => .outOfScope s .noActiveJob
  | some job =>
    let job := { job with conclusion := conclusion, outcome := outcome, outputs := outputs }
    .done { s with jobRun := some job, job := ⟨conclusion⟩ } []

end WorkflowRuns.Session
