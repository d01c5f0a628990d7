import WorkflowRuns.Proofs.Session.Handover
import WorkflowRuns.Proofs.Workflow.Run
import WorkflowRuns.Session.Call

/-!
# What calls do to a session

`Effect s c t` lists what a call `c` can do to a session `s`, with one constructor for each call and
one for calls that find nothing to act on. Every call has its effect (`perform_effect`), so what is
proved of the effects holds of the calls, and by `performAll_keeps` of every history.
-/

namespace WorkflowRuns

/-- Whether a call changes the record of the active workflow from outside. -/
def Call.edits : Call → Bool
  | .editWorkflow _ => true
  | _ => false

/-- Whether the workflow that is active before a call is active after it, and changed by the
session alone. -/
def Call.staysInWorkflow : Call → Bool
  | .startWorkflow _ | .retireWorkflow _ | .editWorkflow _ => false
  | _ => true

namespace Session

variable {s : Session}

/-! ## Histories -/

@[simp] theorem performAll_nil (s : Session) : s.performAll [] = s := rfl

@[simp] theorem performAll_cons (s : Session) (c : Call) (calls : List Call) :
    s.performAll (c :: calls) = (s.perform c).session.performAll calls := rfl

@[simp] theorem performAll_append (s : Session) (calls more : List Call) :
    s.performAll (calls ++ more) = (s.performAll calls).performAll more :=
  List.foldl_append

/-- Of every call of a history and the session that it finds, `p` holds. -/
def Along (p : Session → Call → Prop) : Session → List Call → Prop
  | _, [] => True
  | s, c :: calls => p s c ∧ Along p (s.perform c).session calls

theorem along_append {p : Session → Call → Prop} {calls more : List Call} :
    s.Along p (calls ++ more) ↔ s.Along p calls ∧ (s.performAll calls).Along p more := by
  induction calls generalizing s with
  | nil => exact ⟨fun h => ⟨trivial, h⟩, fun h => h.2⟩
  | cons c calls ih =>
    show p s c ∧ (s.perform c).session.Along p (calls ++ more) ↔ _
    rw [ih, ← and_assoc]
    rfl

theorem along_of_forall {p : Call → Prop} {calls : List Call} (hcalls : ∀ c ∈ calls, p c) :
    s.Along (fun _ c => p c) calls := by
  induction calls generalizing s with
  | nil => exact trivial
  | cons c calls ih =>
    exact ⟨hcalls c List.mem_cons_self, ih fun c h => hcalls c (List.mem_cons_of_mem _ h)⟩

theorem Along.mono {p q : Session → Call → Prop} (h : ∀ s c, p s c → q s c) {calls : List Call}
    (hcalls : s.Along p calls) : s.Along q calls := by
  induction calls generalizing s with
  | nil => exact trivial
  | cons c calls ih => exact ⟨h s c hcalls.1, ih hcalls.2⟩

/-- What every call of a history keeps holds after the history. -/
theorem Along.keeps {I : Session → Prop} {p : Session → Call → Prop}
    (step : ∀ s c, p s c → I s → I (s.perform c).session) {calls : List Call}
    (hcalls : s.Along p calls) (hs : I s) : I (s.performAll calls) := by
  induction calls generalizing s with
  | nil => exact hs
  | cons c calls ih =>
    obtain ⟨hc, hrest⟩ := hcalls
    exact ih hrest (step s c hc hs)

/-- What every call of a kind keeps holds after every history of such calls. -/
theorem performAll_keeps {I : Session → Prop} {p : Call → Prop}
    (step : ∀ s c, p c → I s → I (s.perform c).session) {calls : List Call}
    (hcalls : ∀ c ∈ calls, p c) (hs : I s) : I (s.performAll calls) :=
  Along.keeps step (along_of_forall hcalls) hs

/-! ## Workflows -/

/-- The record of a workflow as it is installed. -/
def installed (run : WorkflowRun) : WorkflowRun := { run with conclusion := .success }

/-- The process environment after the `github` context was handed on, and whether all of it was
taken. -/
def handedOn (s : Session) (run : WorkflowRun) : ProcessEnvironment × Bool :=
  setAll s.process ((githubDuring s.github run).exports.filter (·.2 ≠ ""))

/-- Starting a workflow resets whatever belongs to one. Only the variables in force depend on
whether the process environment took everything. -/
theorem startWorkflow_session (s : Session) (run : WorkflowRun) :
    (s.startWorkflow run).session = { s with
      github := githubDuring s.github run
      job := {}
      steps := ∅
      needs := ∅
      matrix := ∅
      workflowRun := some (installed run)
      jobRun := none
      stepRun := none
      process := (s.handedOn run).1
      environment :=
        if (s.handedOn run).2 then effective (some (installed run)) none none
        else s.environment } := by
  unfold startWorkflow handOnGithub handedOn
  dsimp only
  cases (setAll s.process ((githubDuring s.github run).exports.filter (·.2 ≠ ""))).2 <;> rfl

theorem startWorkflow_reply (s : Session) (run : WorkflowRun) :
    (s.startWorkflow run).reply = if (s.handedOn run).2 then .done else .aborted := by
  unfold startWorkflow handOnGithub handedOn
  dsimp only
  cases (setAll s.process ((githubDuring s.github run).exports.filter (·.2 ≠ ""))).2 <;> rfl

theorem retireWorkflow_of_none (h : s.workflowRun = none) (result : RunResult) :
    s.retireWorkflow result = ⟨.retired none, s, []⟩ := by
  simp [retireWorkflow, h]

theorem retireWorkflow_session {run : WorkflowRun} (h : s.workflowRun = some run)
    (result : RunResult) :
    (s.retireWorkflow result).session = { s with
      github := { s.github with job := "" }
      job := {}
      matrix := ∅
      environment := ∅
      workflowRun := none
      jobRun := none
      stepRun := none } := by
  simp [retireWorkflow, h]

theorem retireWorkflow_workflowRun (s : Session) (result : RunResult) :
    (s.retireWorkflow result).session.workflowRun = none := by
  cases h : s.workflowRun with
  | none => rw [retireWorkflow_of_none h, h]
  | some w => rw [retireWorkflow_session h]

/-- The record that is given back is the one that the session held. -/
theorem retireWorkflow_reply (s : Session) (result : RunResult) :
    (s.retireWorkflow result).reply = .retired s.workflowRun := by
  cases h : s.workflowRun <;> simp [retireWorkflow, h]

/-! ## Jobs -/

theorem startJob_of_none (h : s.workflowRun = none) (run : JobRun) :
    s.startJob run = .outOfScope s .noActiveWorkflow := by
  simp [startJob, h]

theorem startJob_session {w : WorkflowRun} (h : s.workflowRun = some w) (run : JobRun) :
    (s.startJob run).session = { s with
      github := { s.github with job := run.job.id }
      job := ⟨w.conclusion⟩
      steps := ∅
      needs := (Context.Needs.snapshot (w.register run).jobs run.job.needs).1
      matrix := run.matrix
      environment := effective (some (w.register run)) (some run) none
      workflowRun := some (w.register run)
      jobRun := some run
      stepRun := none } := by
  simp [startJob, h, Outcome.done, refresh, WorkflowRun.register]

theorem startJob_reply {w : WorkflowRun} (h : s.workflowRun = some w) (run : JobRun) :
    (s.startJob run).reply = .done := by
  simp [startJob, h, Outcome.done]

/-- A job starts in every workflow, and nowhere else. -/
theorem startJob_reply_done {run : JobRun} :
    (s.startJob run).reply = .done ↔ ∃ w, s.workflowRun = some w := by
  cases hw : s.workflowRun with
  | none => simp [startJob_of_none hw, Outcome.outOfScope, Outcome.refused]
  | some w => simp [startJob_reply hw]

theorem retireJob_of_none (h : s.jobRun = none) (result : RunResult) :
    s.retireJob result = .done s [] := by
  simp [retireJob, h]

theorem retireJob_session {w : WorkflowRun} {job : JobRun} (hw : s.workflowRun = some w)
    (hj : s.jobRun = some job) (result : RunResult) :
    (s.retireJob result).session = { s with
      github := { s.github with job := "" }
      matrix := ∅
      environment :=
        effective (some ((w.register job).conclude job.conclusion)) none none
      workflowRun := some ((w.register job).conclude job.conclusion)
      jobRun := none
      stepRun := none } := by
  simp [retireJob, hw, hj, Outcome.done, refresh]

/-- A job without a workflow just ends; no history of calls leads there. -/
theorem retireJob_outside {job : JobRun} (hw : s.workflowRun = none) (hj : s.jobRun = some job)
    (result : RunResult) :
    (s.retireJob result).session = { s with jobRun := none, stepRun := none } := by
  simp [retireJob, hw, hj, Outcome.done]

theorem concludeJob_of_none (h : s.jobRun = none) (conclusion outcome : Conclusion)
    (outputs : Variables) :
    s.concludeJob conclusion outcome outputs = .outOfScope s .noActiveJob := by
  simp [concludeJob, h]

theorem concludeJob_session {job : JobRun} (h : s.jobRun = some job)
    (conclusion outcome : Conclusion) (outputs : Variables) :
    (s.concludeJob conclusion outcome outputs).session = { s with
      job := ⟨conclusion⟩
      jobRun := some (job.concluded conclusion outcome outputs) } := by
  simp [concludeJob, h, Outcome.done, JobRun.concluded]

/-! ## Steps -/

theorem startStep_of_none (h : s.jobRun = none) (run : StepRun) :
    s.startStep run = .outOfScope s .noActiveJob := by
  simp [startStep, h]

theorem startStep_session {job : JobRun} (h : s.jobRun = some job) (run : StepRun) :
    (s.startStep run).session = { s with
      stepRun := some run
      environment := effective s.workflowRun (some job) (some run) } := by
  simp [startStep, h, Outcome.done, refresh]

theorem retireStep_of_none (h : s.stepRun = none) (result : RunResult) :
    s.retireStep result = .done s [] := by
  simp [retireStep, h]

/-- A step that ends is added to the record of its job; only in the main stage is it shown to later
steps. -/
theorem retireStep_session {step : StepRun} (h : s.stepRun = some step) (result : RunResult) :
    (s.retireStep result).session = { s with
      steps :=
        if step.stage = .main then s.steps.insert step.step.id (.ofRun step) else s.steps
      environment := effective s.workflowRun (s.jobRun.map (·.withStep step)) none
      jobRun := s.jobRun.map (·.withStep step)
      stepRun := none } := by
  by_cases hm : step.stage = .main
  · cases hw : s.workflowRun <;> cases hj : s.jobRun <;>
      simp [retireStep, h, hm, hw, hj, Outcome.done, refresh, JobRun.withStep]
  · simp [retireStep, h, hm, Outcome.done, refresh, JobRun.withStep]

theorem write_of_none (h : s.stepRun = none) (w : StepWrite) :
    s.write w = .outOfScope s .noActiveStep := by
  simp [write, h]

theorem write_session {step : StepRun} (h : s.stepRun = some step) (w : StepWrite) :
    (s.write w).session = { s with stepRun := some (step.write w) } := by
  simp [write, h, Outcome.done]

/-- Taking over changes the run of the active step and the process environment, and nothing else. -/
theorem takeOver_session {step : StepRun} (h : s.stepRun = some step)
    (c : EnvironmentFiles.Contents) :
    (s.takeOver c).session = { s with
      process := (Handover.ofContents s.process c).process
      stepRun := some ((Handover.ofContents s.process c).writes.foldl StepRun.write step) } := by
  have hsome : s.stepRun.isSome = true := by rw [h]; rfl
  rw [(takeOver_hands hsome c).1, handed, writeAll]
  simp [h]

/-! ## Effects -/

/-- The scope that a call acts on is not active. -/
def Idle (s : Session) : Call → Prop
  | .retireWorkflow _ | .startJob _ => s.workflowRun = none
  | .retireJob _ | .concludeJob .. | .startStep _ => s.jobRun = none
  | .retireStep _ | .write _ | .takeOver _ => s.stepRun = none
  | _ => False

/-- A call starts neither a workflow nor, if a workflow is active, a job. What is reset at the start
of a job lasts over such calls. -/
def OpensNoJob (s : Session) : Call → Prop
  | .startWorkflow _ => False
  | .startJob _ => s.workflowRun = none
  | _ => True

theorem perform_of_idle {c : Call} (h : s.Idle c) : (s.perform c).session = s := by
  cases c with
  | retireWorkflow result => exact congrArg Outcome.session (retireWorkflow_of_none h result)
  | startJob run => exact congrArg Outcome.session (startJob_of_none h run)
  | retireJob result => exact congrArg Outcome.session (retireJob_of_none h result)
  | concludeJob conclusion outcome outputs =>
    exact congrArg Outcome.session (concludeJob_of_none h conclusion outcome outputs)
  | startStep run => exact congrArg Outcome.session (startStep_of_none h run)
  | retireStep result => exact congrArg Outcome.session (retireStep_of_none h result)
  | write w => exact congrArg Outcome.session (write_of_none h w)
  | takeOver contents => exact congrArg Outcome.session (takeOver_of_none h contents)
  | _ => exact h.elim

/-- What a call can do to a session: nothing if its scope is not active, and else what the
constructor of its name says. -/
inductive Effect (s : Session) : Call → Session → Prop where
  | idle {c : Call} (h : s.Idle c) : Effect s c s
  | startWorkflow (run : WorkflowRun) : Effect s (.startWorkflow run) { s with
      github := githubDuring s.github run
      job := {}
      steps := ∅
      needs := ∅
      matrix := ∅
      workflowRun := some (installed run)
      jobRun := none
      stepRun := none
      process := (s.handedOn run).1
      environment :=
        if (s.handedOn run).2 then effective (some (installed run)) none none
        else s.environment }
  | retireWorkflow {w : WorkflowRun} (hw : s.workflowRun = some w) (result : RunResult) :
      Effect s (.retireWorkflow result) { s with
        github := { s.github with job := "" }
        job := {}
        matrix := ∅
        environment := ∅
        workflowRun := none
        jobRun := none
        stepRun := none }
  | editWorkflow (change : WorkflowRun → WorkflowRun) :
      Effect s (.editWorkflow change) { s with workflowRun := s.workflowRun.map change }
  | startJob {w : WorkflowRun} (hw : s.workflowRun = some w) (run : JobRun) :
      Effect s (.startJob run) { s with
        github := { s.github with job := run.job.id }
        job := ⟨w.conclusion⟩
        steps := ∅
        needs := (Context.Needs.snapshot (w.register run).jobs run.job.needs).1
        matrix := run.matrix
        environment := effective (some (w.register run)) (some run) none
        workflowRun := some (w.register run)
        jobRun := some run
        stepRun := none }
  | retireJob {w : WorkflowRun} {job : JobRun} (hw : s.workflowRun = some w)
      (hj : s.jobRun = some job) (result : RunResult) :
      Effect s (.retireJob result) { s with
        github := { s.github with job := "" }
        matrix := ∅
        environment := effective (some ((w.register job).conclude job.conclusion)) none none
        workflowRun := some ((w.register job).conclude job.conclusion)
        jobRun := none
        stepRun := none }
  /-- A job without a workflow just ends; a session in which scopes are nested has none. -/
  | retireJobOutside {job : JobRun} (hw : s.workflowRun = none) (hj : s.jobRun = some job)
      (result : RunResult) :
      Effect s (.retireJob result) { s with jobRun := none, stepRun := none }
  | concludeJob {job : JobRun} (hj : s.jobRun = some job) (conclusion outcome : Conclusion)
      (outputs : Variables) :
      Effect s (.concludeJob conclusion outcome outputs) { s with
        job := ⟨conclusion⟩
        jobRun := some (job.concluded conclusion outcome outputs) }
  | startStep {job : JobRun} (hj : s.jobRun = some job) (run : StepRun) :
      Effect s (.startStep run) { s with
        stepRun := some run
        environment := effective s.workflowRun (some job) (some run) }
  | retireStep {step : StepRun} (hs : s.stepRun = some step) (result : RunResult) :
      Effect s (.retireStep result) { s with
        steps :=
          if step.stage = .main then s.steps.insert step.step.id (.ofRun step) else s.steps
        environment := effective s.workflowRun (s.jobRun.map (·.withStep step)) none
        jobRun := s.jobRun.map (·.withStep step)
        stepRun := none }
  | write {step : StepRun} (hs : s.stepRun = some step) (w : StepWrite) :
      Effect s (.write w) { s with stepRun := some (step.write w) }
  | takeOver {step : StepRun} (hs : s.stepRun = some step) (c : EnvironmentFiles.Contents) :
      Effect s (.takeOver c) { s with
        process := (Handover.ofContents s.process c).process
        stepRun := some ((Handover.ofContents s.process c).writes.foldl StepRun.write step) }
  | startAction (action : CustomAction) : Effect s (.startAction action) { s with
      github := { s.github with actionPath := action.path }
      action := some action }
  | leaveAction : Effect s .leaveAction { s with
      github := { s.github with actionPath := "" }
      action := none }
  | nameEnvironmentFile (path : String) : Effect s (.nameEnvironmentFile path)
      { s with github := { s.github with envFile := path } }
  | namePathFile (path : String) : Effect s (.namePathFile path)
      { s with github := { s.github with pathFile := path } }

theorem effect_of_idle {c : Call} (h : s.Idle c) : s.Effect c (s.perform c).session := by
  rw [perform_of_idle h]
  exact .idle h

/-- Every call has its effect. -/
theorem perform_effect (s : Session) (c : Call) : s.Effect c (s.perform c).session := by
  cases c with
  | startWorkflow run =>
    simp only [perform, startWorkflow_session]
    exact .startWorkflow run
  | retireWorkflow result =>
    cases hw : s.workflowRun with
    | none => exact effect_of_idle hw
    | some w =>
      simp only [perform, retireWorkflow_session hw]
      exact .retireWorkflow hw result
  | editWorkflow change => exact .editWorkflow change
  | startJob run =>
    cases hw : s.workflowRun with
    | none => exact effect_of_idle hw
    | some w =>
      simp only [perform, startJob_session hw]
      exact .startJob hw run
  | retireJob result =>
    cases hj : s.jobRun with
    | none => exact effect_of_idle hj
    | some job =>
      cases hw : s.workflowRun with
      | none =>
        simp only [perform, retireJob_outside hw hj]
        exact .retireJobOutside hw hj result
      | some w =>
        simp only [perform, retireJob_session hw hj]
        exact .retireJob hw hj result
  | concludeJob conclusion outcome outputs =>
    cases hj : s.jobRun with
    | none => exact effect_of_idle hj
    | some job =>
      simp only [perform, concludeJob_session hj]
      exact .concludeJob hj conclusion outcome outputs
  | startStep run =>
    cases hj : s.jobRun with
    | none => exact effect_of_idle hj
    | some job =>
      simp only [perform, startStep_session hj]
      exact .startStep hj run
  | retireStep result =>
    cases hs : s.stepRun with
    | none => exact effect_of_idle hs
    | some step =>
      simp only [perform, retireStep_session hs]
      exact .retireStep hs result
  | write w =>
    cases hs : s.stepRun with
    | none => exact effect_of_idle hs
    | some step =>
      simp only [perform, write_session hs]
      exact .write hs w
  | takeOver contents =>
    cases hs : s.stepRun with
    | none => exact effect_of_idle hs
    | some step =>
      simp only [perform, takeOver_session hs]
      exact .takeOver hs contents
  | startAction action => exact .startAction action
  | leaveAction => exact .leaveAction
  | nameEnvironmentFile path => exact .nameEnvironmentFile path
  | namePathFile path => exact .namePathFile path

end Session

end WorkflowRuns
