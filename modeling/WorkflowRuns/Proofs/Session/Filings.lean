import WorkflowRuns.Proofs.Report.Result
import WorkflowRuns.Proofs.Session.TakeOver

/-!
# What a call wants kept

Only ending something leaves anything to keep: a step in its main stage, a job, a workflow. What
that is follows from the call and the session that it finds (`filings_perform`); it carries the name
of the active workflow and the identifier of its run (`of_mem_filings`).
-/

namespace WorkflowRuns

/-- What is to be kept. -/
def Notice.filing? : Notice → Option Filing
  | .file f => some f
  | .log _ | .trace _ => none

/-- What an outcome wants kept, in order. -/
def Outcome.filings (o : Outcome) : List Filing := o.notices.filterMap Notice.filing?

@[simp] theorem Outcome.filings_done (s : Session) (ns : List Notice) :
    (done s ns).filings = ns.filterMap Notice.filing? := rfl

@[simp] theorem Outcome.filings_outOfScope (s : Session) (e : ScopeError) :
    (outOfScope s e).filings = [] := rfl

/-- A word for what is kept, and the name of the file in which it is. -/
def Filing.words : List (String × String) := [
  ("step run", "step_run.json"),
  ("step run summary", "summary.md"),
  ("job run", "job_run.json"),
  ("workflow run", "workflow_run.json"),
  ("workflow", "workflow.yaml")]

/-- Something to keep of the run of a workflow, with the word for the file in which it is. -/
structure Filing.Of (f : Filing) (run : WorkflowRun) : Prop where
  workflow : f.workflow = run.workflow.name
  runId : f.runId = run.runId
  word : ∃ file place, (f.what, file) ∈ Filing.words ∧ f.artifact.target = Path.join place file

/-- A report in a directory: an object with what is told of a result and a record. -/
def RunResult.reportIn (result : RunResult) (place file : String) (record : Json) : Artifact :=
  .document (Path.join place file) (.object [("result", result.told), ("run", record)])

namespace WorkflowRun

variable (run : WorkflowRun) (home : String) (result : RunResult)

/-- Something that is kept of a run. -/
def filing (what : String) (a : Artifact) : Filing := ⟨what, run.workflow.name, run.runId, a⟩

/-- What is kept of a step: its record, and its summary if it has one. -/
def filingsOfStep (job : JobRun) (step : StepRun) : List Filing :=
  let place := Layout.stepRun home run.runId job.job.id step.step.id
  run.filing "step run" (result.reportIn place "step_run.json" step.toJson) ::
    if step.summary = "" then []
    else
      [run.filing "step run summary"
        (.bytes (Path.join place "summary.md") step.summary.toUTF8)]

/-- What is kept of a job: its record. -/
def filingsOfJob (job : JobRun) : List Filing :=
  let place := Layout.jobRun home run.runId job.job.id
  [run.filing "job run" (result.reportIn place "job_run.json" job.toJson)]

/-- What is kept of a workflow: its record, and its source if it has one. -/
def filingsOfWorkflow : List Filing :=
  let place := Layout.workflowRun home run.runId
  run.filing "workflow run" (result.reportIn place "workflow_run.json" run.toJson) ::
    if run.workflow.path = "" then []
    else [run.filing "workflow" (.copy run.workflow.path (Path.join place "workflow.yaml"))]

variable {run home result}

theorem filing_of {what file : String} (hwhat : (what, file) ∈ Filing.words) (place : String)
    {a : Artifact} (ha : a.target = Path.join place file) : (run.filing what a).Of run :=
  ⟨rfl, rfl, file, place, hwhat, ha⟩

theorem of_mem_filingsOfStep {job : JobRun} {step : StepRun} {f : Filing}
    (h : f ∈ run.filingsOfStep home result job step) : f.Of run := by
  rcases List.mem_cons.1 h with rfl | h
  · exact filing_of (by decide) _ rfl
  · obtain ⟨-, h⟩ := List.mem_ite_nil_left.1 h
    obtain rfl := List.mem_singleton.1 h
    exact filing_of (by decide) _ rfl

theorem of_mem_filingsOfJob {job : JobRun} {f : Filing}
    (h : f ∈ run.filingsOfJob home result job) : f.Of run := by
  obtain rfl := List.mem_singleton.1 h
  exact filing_of (by decide) _ rfl

theorem of_mem_filingsOfWorkflow {f : Filing} (h : f ∈ run.filingsOfWorkflow home result) :
    f.Of run := by
  rcases List.mem_cons.1 h with rfl | h
  · exact filing_of (by decide) _ rfl
  · obtain ⟨-, h⟩ := List.mem_ite_nil_left.1 h
    obtain rfl := List.mem_singleton.1 h
    exact filing_of (by decide) _ rfl

end WorkflowRun

namespace Session

/-- What a call wants kept. -/
def filings (s : Session) : Call → List Filing
  | .retireStep result =>
    match s.workflowRun, s.jobRun, s.stepRun with
    | some run, some job, some step =>
      if step.stage = .main then run.filingsOfStep s.home result job step else []
    | _, _, _ => []
  | .retireJob result =>
    match s.workflowRun, s.jobRun with
    | some run, some job => run.filingsOfJob s.home result job
    | _, _ => []
  | .retireWorkflow result =>
    match s.workflowRun with
    | some run => run.filingsOfWorkflow s.home result
    | none => []
  | _ => []

/-! ## What is only said -/

theorem filings_of_onlyLogs {o : Outcome} (h : o.OnlyLogs) : o.filings = [] := by
  obtain ⟨events, h⟩ := h
  unfold Outcome.filings
  rw [h, List.filterMap_map]
  exact List.filterMap_eq_nil_iff.2 fun _ _ => rfl

theorem filings_replacedWorkflow (previous : Option WorkflowRun) (run : WorkflowRun) :
    (replacedWorkflow previous run).filterMap Notice.filing? = [] := by
  cases previous <;> rfl

theorem filings_replacedJob (previous : Option JobRun) (run : JobRun) :
    (replacedJob previous run).filterMap Notice.filing? = [] := by
  cases previous <;> rfl

theorem filings_replacedStep (previous : Option StepRun) (run : StepRun) :
    (replacedStep previous run).filterMap Notice.filing? = [] := by
  cases previous <;> rfl

theorem filings_missingNeed (run : JobRun) (missing : List String) :
    (missing.map (missingNeed run)).filterMap Notice.filing? = [] := by
  rw [List.filterMap_map]
  exact List.filterMap_eq_nil_iff.2 fun _ _ => rfl

theorem filings_abandonedInJob (s : Session) (job : JobRun) :
    (s.abandonedInJob job).filterMap Notice.filing? = [] := by
  unfold abandonedInJob
  split <;> rfl

theorem filings_abandonedInWorkflow (s : Session) :
    s.abandonedInWorkflow.filterMap Notice.filing? = [] := by
  unfold abandonedInWorkflow
  split <;> split <;> rfl

/-! ## Starts -/

theorem filings_startWorkflow (s : Session) (run : WorkflowRun) :
    (s.startWorkflow run).filings = [] := by
  have hsaid := filings_replacedWorkflow s.workflowRun run
  unfold startWorkflow Outcome.filings
  dsimp only
  split <;> exact hsaid

theorem filings_startJob (s : Session) (run : JobRun) : (s.startJob run).filings = [] := by
  unfold startJob
  cases s.workflowRun with
  | none => rfl
  | some w =>
    have hreplaced := filings_replacedJob s.jobRun run
    have hmissing := filings_missingNeed run
    simp [hreplaced, hmissing]

theorem filings_startStep (s : Session) (run : StepRun) : (s.startStep run).filings = [] := by
  unfold startStep
  cases s.jobRun with
  | none => rfl
  | some job => exact filings_replacedStep s.stepRun run

/-! ## Ends -/

theorem filings_stepFilings (s : Session) (run : WorkflowRun) (job : JobRun) (step : StepRun)
    (result : RunResult) : (s.stepFilings run job step result).filterMap Notice.filing? =
      run.filingsOfStep s.home result job step := by
  unfold stepFilings WorkflowRun.filingsOfStep RunResult.reportIn
  rw [report_eq]
  by_cases hsummary : step.summary = ""
  · simp only [hsummary, if_true]
    rfl
  · simp only [hsummary, if_false]
    rfl

theorem filings_workflowFilings (s : Session) (run : WorkflowRun) (result : RunResult) :
    (s.workflowFilings run result).filterMap Notice.filing? =
      run.filingsOfWorkflow s.home result := by
  unfold workflowFilings WorkflowRun.filingsOfWorkflow RunResult.reportIn
  rw [report_eq]
  by_cases hpath : run.workflow.path = ""
  · simp only [hpath, if_true]
    rfl
  · simp only [hpath, if_false]
    rfl

theorem filings_retireStep (s : Session) (result : RunResult) :
    (s.retireStep result).filings = s.filings (.retireStep result) := by
  unfold retireStep filings
  cases hs : s.stepRun with
  | none => cases s.workflowRun <;> cases s.jobRun <;> rfl
  | some step =>
    by_cases hmain : step.stage = .main
    · cases s.workflowRun with
      | none => simp [hmain, refresh]
      | some run =>
        cases s.jobRun with
        | none => simp [hmain, refresh]
        | some job =>
          simp only [hmain, if_true]
          exact filings_stepFilings ..
    · cases s.workflowRun <;> cases s.jobRun <;> simp [hmain]

theorem filings_retireJob (s : Session) (result : RunResult) :
    (s.retireJob result).filings = s.filings (.retireJob result) := by
  unfold retireJob filings
  cases s.jobRun with
  | none => cases s.workflowRun <;> rfl
  | some job =>
    have habandoned := filings_abandonedInJob s job
    cases s.workflowRun with
    | none => exact habandoned
    | some run =>
      -- the record in which the job is registered is that of the same run
      have hsame := (run.sameRun_register job).trans (WorkflowRun.sameRun_conclude _ job.conclusion)
      have hname : ((run.register job).conclude job.conclusion).workflow.name = run.workflow.name :=
        by rw [hsame]
      have hrun : ((run.register job).conclude job.conclusion).runId = run.runId := by rw [hsame]
      simp [habandoned, jobFiling, filing, WorkflowRun.filingsOfJob, RunResult.reportIn,
        WorkflowRun.filing, Notice.filing?, report_eq, hname, hrun]

theorem filings_retireWorkflow (s : Session) (result : RunResult) :
    (s.retireWorkflow result).filings = s.filings (.retireWorkflow result) := by
  unfold retireWorkflow filings
  cases s.workflowRun with
  | none => rfl
  | some run =>
    have hsaid := filings_abandonedInWorkflow s
    have hkept := filings_workflowFilings s run result
    simp [Outcome.filings, hsaid, hkept]

/-- What a call wants kept follows from the call and the session that it finds. -/
theorem filings_perform (s : Session) (c : Call) : (s.perform c).filings = s.filings c := by
  cases c with
  | startWorkflow run => exact s.filings_startWorkflow run
  | retireWorkflow result => exact s.filings_retireWorkflow result
  | startJob run => exact s.filings_startJob run
  | retireJob result => exact s.filings_retireJob result
  | startStep run => exact s.filings_startStep run
  | retireStep result => exact s.filings_retireStep result
  | takeOver contents => exact filings_of_onlyLogs (s.takeOver_onlyLogs contents)
  | concludeJob conclusion outcome outputs =>
    unfold perform concludeJob
    cases s.jobRun <;> rfl
  | write w =>
    unfold perform write
    cases s.stepRun <;> rfl
  | _ => rfl

/-- What is kept is kept of the active workflow, and under a word for the file in which it is. -/
theorem of_mem_filings {s : Session} {c : Call} {f : Filing} (h : f ∈ s.filings c) :
    ∃ run, s.workflowRun = some run ∧ f.Of run := by
  cases c with
  | retireStep result =>
    simp only [filings] at h
    split at h
    · rename_i run job step hw hj hs
      split at h
      · exact ⟨run, hw, run.of_mem_filingsOfStep h⟩
      · cases h
    · cases h
  | retireJob result =>
    simp only [filings] at h
    split at h
    · rename_i run job hw hj
      exact ⟨run, hw, run.of_mem_filingsOfJob h⟩
    · cases h
  | retireWorkflow result =>
    simp only [filings] at h
    split at h
    · rename_i run hw
      exact ⟨run, hw, run.of_mem_filingsOfWorkflow h⟩
    · cases h
  | _ => cases h

end Session

end WorkflowRuns
