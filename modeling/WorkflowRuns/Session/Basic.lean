import WorkflowRuns.Context.Github
import WorkflowRuns.Context.Job
import WorkflowRuns.Context.Runner
import WorkflowRuns.Context.Secrets
import WorkflowRuns.Environment.Store
import WorkflowRuns.Layout
import WorkflowRuns.Report.Artifact
import WorkflowRuns.Report.Result
import WorkflowRuns.Workflow.Action

/-!
# Sessions

A `Session` is the state of an executor between two calls: which workflow, job and step are active,
what is recorded of them, and the contexts that expressions see. A call on a session has an
`Outcome`: its reply, the session after it, and notices. A notice is something that the session
wants said or kept. What becomes of notices has no way back into the session, so a report that
cannot be written changes nothing in it.
-/

namespace WorkflowRuns

/-- The state of an executor. -/
structure Session where
  /-- The directory in which everything is kept. -/
  home : String
  /-- The `github` context. -/
  github : Context.Github
  /-- The `runner` context. -/
  runner : Context.Runner
  /-- The `job` context. -/
  job : Context.Job
  /-- The `steps` context. -/
  steps : Context.Steps
  /-- The `needs` context. -/
  needs : Context.Needs
  /-- The `matrix` context. -/
  matrix : Matrix
  /-- The `secrets` context. -/
  secrets : Context.Secrets
  /-- The `inputs` context. -/
  inputs : Context.Inputs
  /-- The variables in force that workflow, job and step define. -/
  environment : Variables
  /-- The environment of the processes that are started. -/
  process : ProcessEnvironment
  /-- The run of the active workflow. -/
  workflowRun : Option WorkflowRun
  /-- The run of the active job. -/
  jobRun : Option JobRun
  /-- The run of the active step. -/
  stepRun : Option StepRun
  /-- The active action. -/
  action : Option CustomAction

/-- Something to keep of a run, and what is said of it if that fails. -/
structure Filing where
  /-- What it is, in words. -/
  what : String
  /-- The name of the workflow. -/
  workflow : String
  /-- The identifier of the run. -/
  runId : String
  /-- The thing itself. -/
  artifact : Artifact

/-- What is said of something that could not be kept. -/
def Filing.complaint (f : Filing) (failure : Failure) : TraceMessage :=
  let { what, workflow, runId, .. } := f
  ⟨.error, s!"Failed to write {what}: {failure.message} (workflow: {workflow}, run: {runId})"⟩

/-- What a session wants said or kept. -/
inductive Notice where
  /-- An event for the log. -/
  | log (event : LogEvent)
  /-- A message for the trace. -/
  | trace (message : TraceMessage)
  /-- Something to keep. -/
  | file (filing : Filing)

/-- The answer to a call. -/
inductive Reply where
  /-- It was done. -/
  | done
  /-- It was done, and this is the run of the workflow that ended, if one was active. -/
  | retired (run : Option WorkflowRun)
  /-- It failed. -/
  | failed (failure : Failure)
  /-- It broke off, because the system refused a variable. What was done before stays. -/
  | aborted

/-- What a call leads to. -/
structure Outcome where
  /-- The answer. -/
  reply : Reply
  /-- The session after the call. -/
  session : Session
  /-- What the session wants said and kept, in order. -/
  notices : List Notice

namespace Outcome

/-- The call was done. -/
def done (s : Session) (notices : List Notice) : Outcome := ⟨.done, s, notices⟩

/-- The call failed and changed nothing. -/
def refused (s : Session) (failure : Failure) : Outcome := ⟨.failed failure, s, []⟩

/-- The call needs a scope that is not there. -/
def outOfScope (s : Session) (e : ScopeError) : Outcome := refused s ⟨[], .scope e⟩

/-- The outcome with notices before its own. -/
def after (notices : List Notice) (o : Outcome) : Outcome :=
  { o with notices := notices ++ o.notices }

/-- Goes on after a part that was done. -/
def andThen (o : Outcome) (next : Session → Outcome) : Outcome :=
  match o.reply with
  | .done => (next o.session).after o.notices
  | _ => o

end Outcome

namespace Session

/-- A session in which nothing is active. -/
def start (home : String) (github : Context.Github) (runner : Context.Runner)
    (secrets : Context.Secrets) (inputs : Context.Inputs) (process : ProcessEnvironment) :
    Session where
  home := home
  github := github
  runner := runner
  job := {}
  steps := ∅
  needs := ∅
  matrix := ∅
  secrets := secrets
  inputs := inputs
  environment := ∅
  process := process
  workflowRun := none
  jobRun := none
  stepRun := none
  action := none

/-- The variables that the active workflow, job and step define, the step on top. -/
def effective (workflow : Option WorkflowRun) (job : Option JobRun) (step : Option StepRun) :
    Variables :=
  Variables.layered [
    (workflow.map (·.workflow.environment)).getD ∅,
    (job.map (·.job.environment)).getD ∅,
    (step.map (·.step.environment)).getD ∅]

/-- Puts the variables of the active scopes in force. -/
def refresh (s : Session) : Session :=
  { s with environment := effective s.workflowRun s.jobRun s.stepRun }

/-- Something to keep of a run of a workflow. -/
def filing (run : WorkflowRun) (what : String) (artifact : Artifact) : Notice :=
  .file ⟨what, run.workflow.name, run.runId, artifact⟩

/-- A warning for the log. -/
def logWarning (text : String) : Notice := .log ⟨.warn, text⟩

/-- A detail for the log. -/
def logDetail (text : String) : Notice := .log ⟨.debug, text⟩

/-- A warning for the trace. -/
def traceWarning (text : String) : Notice := .trace ⟨.warning, text⟩

end Session

end WorkflowRuns
