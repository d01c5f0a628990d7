import WorkflowRuns.Proofs.Session.Calls

/-!
# Coherence of a session

The scopes of a session are nested, and what the contexts tell of the active workflow, job, matrix
and action is what the active runs say. Every call keeps this (`Coherent.effect`), so it holds
after every history (`coherent_performAll`), whatever scopes were replaced, torn down out of order
or left open in it.
-/

namespace WorkflowRuns

/-- The `github` context tells of a run of a workflow. -/
structure Context.Github.Describes (g : Context.Github) (run : WorkflowRun) : Prop where
  runId : g.runId = run.runId
  runNumber : g.runNumber = run.runNumber
  runAttempt : g.runAttempt = run.runAttempt
  retentionDays : g.retentionDays = run.retentionDays
  workflow : g.workflow = run.workflow.name
  workflowRef : g.workflowRef = g.repository ++ "/" ++ run.workflow.path ++ "@" ++ g.ref
  workflowSha : g.workflowSha = g.sha

/-- A description survives what is registered in the record, and the fields of the context that
tell of job, action and files. -/
theorem Context.Github.Describes.mono {g g' : Context.Github} {run run' : WorkflowRun}
    (h : g.Describes run)
    (hg : g' = { g with
      job := g'.job
      actionPath := g'.actionPath
      envFile := g'.envFile
      pathFile := g'.pathFile })
    (hrun : run.SameRun run') : g'.Describes run' := by
  rw [hg, hrun]
  exact ⟨h.runId, h.runNumber, h.runAttempt, h.retentionDays, h.workflow, h.workflowRef,
    h.workflowSha⟩

/-- What of the `github` context no call changes; the rest is blanked out. -/
def Context.Github.lasting (g : Context.Github) : Context.Github :=
  { g with
    workflow := ""
    workflowRef := ""
    workflowSha := ""
    runId := ""
    runNumber := ""
    runAttempt := ""
    retentionDays := ""
    job := ""
    actionPath := ""
    envFile := ""
    pathFile := "" }

namespace Session

/-- A step is active only within a job, and a job only within a workflow. -/
structure Nested (s : Session) : Prop where
  stepInJob : s.stepRun.isSome → s.jobRun.isSome
  jobInWorkflow : s.jobRun.isSome → s.workflowRun.isSome

/-- The scopes are nested and the contexts tell of the runs that are active. -/
structure Coherent (s : Session) : Prop extends s.Nested where
  /-- The `github` context has the identifier of the active job. -/
  jobId : s.github.job = s.jobRun.elim "" (·.job.id)
  /-- The `matrix` context is the matrix of the active job. -/
  matrix : s.matrix = s.jobRun.elim ∅ (·.matrix)
  /-- The `github` context tells of the active workflow. -/
  metadata : ∀ run, s.workflowRun = some run → s.github.Describes run
  /-- The `github` context has the path of the active action. -/
  actionPath : s.github.actionPath = s.action.elim "" (·.path)

/-- What a session was built with and no call changes. -/
structure SameOrigin (s t : Session) : Prop where
  home : t.home = s.home
  runner : t.runner = s.runner
  secrets : t.secrets = s.secrets
  inputs : t.inputs = s.inputs
  github : t.github.lasting = s.github.lasting

variable {s t : Session} {c : Call}

/-! ## What one call keeps -/

theorem Nested.effect (h : s.Nested) (e : s.Effect c t) : t.Nested := by
  cases e with
  | idle | startAction | leaveAction | nameEnvironmentFile | namePathFile =>
    exact ⟨h.stepInJob, h.jobInWorkflow⟩
  | startWorkflow | retireWorkflow | retireJob | retireJobOutside =>
    exact ⟨by simp, by simp⟩
  | editWorkflow change => exact ⟨h.stepInJob, by simpa using h.jobInWorkflow⟩
  | startJob hw run => exact ⟨by simp, by simp⟩
  | concludeJob hj => exact ⟨by simp, by simpa [hj] using h.jobInWorkflow⟩
  | startStep hj run => exact ⟨by simp [hj], h.jobInWorkflow⟩
  | retireStep hs result => exact ⟨by simp, by simpa using h.jobInWorkflow⟩
  | write hs | takeOver hs => exact ⟨by simpa [hs] using h.stepInJob, h.jobInWorkflow⟩

theorem Coherent.effect (h : s.Coherent) (hc : c.edits = false) (e : s.Effect c t) :
    t.Coherent := by
  refine { h.toNested.effect e with jobId := ?_, matrix := ?_, metadata := ?_, actionPath := ?_ }
  · -- jobId
    cases e with
    | startWorkflow | retireWorkflow | startJob | retireJob => rfl
    | retireJobOutside hw hj => simpa [hw, hj] using h.jobInWorkflow
    | concludeJob hj => exact h.jobId.trans (by rw [hj]; rfl)
    | retireStep => exact h.jobId.trans (by cases s.jobRun <;> rfl)
    | _ => exact h.jobId
  · -- matrix
    cases e with
    | startWorkflow | retireWorkflow | startJob | retireJob => rfl
    | retireJobOutside hw hj => simpa [hw, hj] using h.jobInWorkflow
    | concludeJob hj => exact h.matrix.trans (by rw [hj]; rfl)
    | retireStep => exact h.matrix.trans (by cases s.jobRun <;> rfl)
    | _ => exact h.matrix
  · -- metadata
    cases e with
    | startWorkflow run =>
      rintro _ ⟨rfl⟩
      exact ⟨rfl, rfl, rfl, rfl, rfl, rfl, rfl⟩
    | retireWorkflow => simp
    | editWorkflow => cases hc
    | startJob hw run =>
      rintro _ ⟨rfl⟩
      exact (h.metadata _ hw).mono rfl (WorkflowRun.sameRun_register _ run)
    | @retireJob w job hw hj =>
      rintro _ ⟨rfl⟩
      have hregister := w.sameRun_register job
      exact (h.metadata w hw).mono rfl (hregister.trans (WorkflowRun.sameRun_conclude _ _))
    | startAction | leaveAction | nameEnvironmentFile | namePathFile =>
      intro run hr
      exact (h.metadata run hr).mono rfl rfl
    | _ => exact h.metadata
  · -- actionPath
    cases e with
    | startAction | leaveAction => rfl
    | _ => exact h.actionPath

theorem SameOrigin.effect (e : s.Effect c t) : s.SameOrigin t := by
  cases e with
  | _ => exact ⟨rfl, rfl, rfl, rfl, rfl⟩

theorem SameOrigin.trans {u : Session} (h : s.SameOrigin t) (h' : t.SameOrigin u) :
    s.SameOrigin u :=
  ⟨h'.home.trans h.home, h'.runner.trans h.runner, h'.secrets.trans h.secrets,
    h'.inputs.trans h.inputs, h'.github.trans h.github⟩

/-! ## Whole histories -/

variable {home : String} {github : Context.Github} {runner : Context.Runner}
  {secrets : Context.Secrets} {inputs : Context.Inputs} {process : ProcessEnvironment}

theorem nested_start : (start home github runner secrets inputs process).Nested :=
  ⟨by simp [start], by simp [start]⟩

theorem nested_performAll (h : s.Nested) (calls : List Call) : (s.performAll calls).Nested :=
  performAll_keeps (p := fun _ => True) (fun s c _ h => h.effect (perform_effect s c))
    (fun _ _ => trivial) h

theorem coherent_start (hjob : github.job = "") (haction : github.actionPath = "") :
    (start home github runner secrets inputs process).Coherent :=
  { nested_start with
    jobId := hjob
    matrix := rfl
    metadata := by simp [start]
    actionPath := haction }

theorem coherent_performAll (h : s.Coherent) {calls : List Call}
    (hcalls : ∀ c ∈ calls, c.edits = false) : (s.performAll calls).Coherent :=
  performAll_keeps (fun s c hc h => h.effect hc (perform_effect s c)) hcalls h

theorem sameOrigin_performAll (s : Session) (calls : List Call) :
    s.SameOrigin (s.performAll calls) := by
  induction calls generalizing s with
  | nil => exact ⟨rfl, rfl, rfl, rfl, rfl⟩
  | cons c calls ih => exact (SameOrigin.effect (perform_effect s c)).trans (ih _)

/-- **A session is coherent after every history.** It may start from any `github` context that names
no job and no action, and calls may fail or break off. -/
theorem coherent_of_history (hjob : github.job = "") (haction : github.actionPath = "")
    (calls : List Call) (hcalls : ∀ c ∈ calls, c.edits = false) :
    ((start home github runner secrets inputs process).performAll calls).Coherent ∧
      (start home github runner secrets inputs process).SameOrigin
        ((start home github runner secrets inputs process).performAll calls) :=
  ⟨coherent_performAll (coherent_start hjob haction) hcalls, sameOrigin_performAll _ _⟩

/-- A step outside of any job is refused, a job is replaced with its step open, and the workflow ends
with the second job and its step open. -/
theorem coherent_of_history_replaced_job :
    let result : RunResult := .complete .epoch .epoch
    let built := start "/ghx" { repository := "octo/hello" } {} ∅ ∅ (.inMemory ∅)
    let calls : List Call := [
      .startStep {}, .startAction { path := "/actions/setup" },
      .startWorkflow (.start "42" { name := "CI", path := "ci.yml" }),
      .startJob { job := { id := "build" }, matrix := Dict.insert ∅ "os" .null },
      .startStep { step := { id := "compile" } },
      .startJob { job := { id := "test" } }, .startStep { step := { id := "unit" } },
      .retireWorkflow result, .retireJob result]
    (∀ c ∈ calls, c.edits = false) ∧
      (built.performAll calls).Coherent ∧ built.SameOrigin (built.performAll calls) :=
  ⟨by decide, coherent_of_history rfl rfl _ (by decide)⟩

end Session

end WorkflowRuns
