import Mathlib.Data.List.Induction
import WorkflowRuns.Proofs.Session.Activation

/-!
# The record of a workflow as its history

While a workflow is active, its record is what the activations of jobs make of it, one after the
other (`workflowRun_of_startWorkflow`). To prove it call by call, what is still to come is described
from any point of a history on, with a job and a step maybe active there: `stepsToRetire` for the
steps, `JobRun.after` for the job, and `WorkflowRun.after` for the record.
-/

namespace WorkflowRuns

/-- The record of a workflow after one more activation of a job. The job is registered as it starts,
and once more, with its end, if it is retired. -/
def WorkflowRun.settle (w : WorkflowRun) (a : Activation JobRun) : WorkflowRun :=
  if a.retired then ((w.register a.run).register a.finalJob).conclude a.conclusion
  else w.register a.run

theorem Activation.endedSteps_cons (a : Activation StepRun) (l : List (Activation StepRun)) :
    endedSteps (a :: l) = (if a.retired then [a.finalStep] else []) ++ endedSteps l := by
  unfold endedSteps
  cases h : a.retired <;> simp [h]

section ToCome

variable {e : Event} {events : List Event}

/-! ## The steps that are still to end -/

variable {active : Option StepRun}

/-- The runs of steps that end in the events, one of them maybe active before. -/
def stepsToRetire (active : Option StepRun) (events : List Event) : List StepRun :=
  Activation.endedSteps
    ((active.map (stepScope.activation · events)).toList ++ stepScope.activations events)

@[simp] theorem stepsToRetire_nil (active : Option StepRun) : stepsToRetire active [] = [] := by
  cases active <;> rfl

/-- What is still to come of the active step comes before what starts later. -/
theorem stepsToRetire_some (step : StepRun) (events : List Event) :
    stepsToRetire (some step) events =
      (if (stepScope.activation step events).retired then
        [(stepScope.activation step events).finalStep] else []) ++ stepsToRetire none events :=
  Activation.endedSteps_cons _ _

/-- A step that starts takes the place of the active one. -/
theorem stepsToRetire_cons_of_starts {run : StepRun} (h : stepScope.starts e.call = some run) :
    stepsToRetire active (e :: events) = stepsToRetire (some run) events := by
  have hnone : stepsToRetire none (e :: events) = stepsToRetire (some run) events := by
    unfold stepsToRetire
    rw [Scope.activations_cons_of_starts h]
    rfl
  cases active with
  | none => exact hnone
  | some step =>
    rw [stepsToRetire_some, Scope.activation_cons_of_starts h, hnone]
    rfl

/-- A step that ends is the active one, with what was written of it. -/
theorem stepsToRetire_cons_of_ends (h : stepScope.ends e.call = true) :
    stepsToRetire active (e :: events) = active.toList ++ stepsToRetire none events := by
  have hnone : stepsToRetire none (e :: events) = stepsToRetire none events := by
    unfold stepsToRetire
    rw [Scope.activations_cons_of_starts_none (stepScope.apart _ h)]
    rfl
  cases active with
  | none => exact hnone
  | some step =>
    rw [stepsToRetire_some, Scope.activation_cons_of_ends h, hnone]
    rfl

/-- What is written goes into the active step. -/
theorem stepsToRetire_cons_of_lasts (h : stepScope.lasts e = true) :
    stepsToRetire active (e :: events) =
      stepsToRetire (active.map (e.writes.foldl StepRun.write ·)) events := by
  have hnone : stepsToRetire none (e :: events) = stepsToRetire none events := by
    unfold stepsToRetire
    rw [Scope.activations_cons_of_starts_none (Scope.starts_of_lasts h)]
    rfl
  cases active with
  | none => exact hnone
  | some step =>
    -- the write may stand in the activation or be in the run already
    have hfinal : (stepScope.activation step (e :: events)).finalStep =
        (stepScope.activation (e.writes.foldl StepRun.write step) events).finalStep := by
      rw [Scope.activation_cons_of_lasts h]
      unfold Activation.finalStep Activation.writes
      rw [List.flatMap_cons, List.foldl_append]
      rfl
    have hretired : (stepScope.activation step (e :: events)).retired =
        (stepScope.activation (e.writes.foldl StepRun.write step) events).retired := by
      rw [Scope.activation_cons_of_lasts h]
      rfl
    rw [Option.map_some, stepsToRetire_some, stepsToRetire_some, hfinal, hretired, hnone]

/-! ## The end of the job -/

variable {job : JobRun}

/-- The record of a job after events of its activation, with a step maybe active before. -/
def JobRun.after (job : JobRun) (active : Option StepRun) (events : List Event) : JobRun :=
  { job.withResults (latest Event.results? events) with
    steps := job.steps ++ stepsToRetire active events }

@[simp] theorem JobRun.after_nil (job : JobRun) (active : Option StepRun) :
    job.after active [] = job := by
  simp [after, withResults]

theorem JobRun.after_cons_of_lasts (h : stepScope.lasts e = true) :
    job.after active (e :: events) =
      (job.withResults e.results?).after (active.map (e.writes.foldl StepRun.write ·)) events := by
  unfold after
  rw [latest_cons, withResults_or, stepsToRetire_cons_of_lasts h, withResults_steps]

theorem JobRun.after_cons_of_starts {run : StepRun} (h : e.call = .startStep run) :
    job.after active (e :: events) = job.after (some run) events := by
  have hstarts : stepScope.starts e.call = some run := by rw [h]; rfl
  have hresults : e.results? = none := by simp [Event.results?, h]
  unfold after
  rw [latest_cons, hresults, Option.or_none, stepsToRetire_cons_of_starts hstarts]

theorem JobRun.after_cons_of_ends {result : RunResult} (h : e.call = .retireStep result) :
    job.after active (e :: events) = (active.elim job job.withStep).after none events := by
  have hends : stepScope.ends e.call = true := by rw [h]; rfl
  have hresults : e.results? = none := by simp [Event.results?, h]
  unfold after
  rw [latest_cons, hresults, Option.or_none, stepsToRetire_cons_of_ends hends]
  cases active with
  | none => rfl
  | some step =>
    cases hr : latest Event.results? events <;>
      simp [JobRun.withStep, JobRun.withResults, JobRun.concluded]

/-! ## The record of the workflow -/

variable {w : WorkflowRun} {open? open?' : Option JobRun} {active' : Option StepRun}

namespace WorkflowRun

/-- The record of a workflow with the end of the job that is active, if that comes. -/
def close (w : WorkflowRun) (open? : Option JobRun) (active : Option StepRun)
    (events : List Event) : WorkflowRun :=
  match open? with
  | none => w
  | some job =>
    if (jobScope.activation job events).retired then
      let final := job.after active (jobScope.activation job events).during
      (w.register final).conclude final.conclusion
    else w

/-- The record of a workflow after events, with a job and a step maybe active before. -/
def after (w : WorkflowRun) (open? : Option JobRun) (active : Option StepRun)
    (events : List Event) : WorkflowRun :=
  (jobScope.activations events).foldl settle (w.close open? active events)

theorem close_eq_self_of_not_retired
    (h : ∀ job, open? = some job → (jobScope.activation job events).retired = false) :
    w.close open? active events = w := by
  cases open? with
  | none => rfl
  | some job =>
    have hr : ¬ (jobScope.activation job events).retired = true := by
      rw [h job rfl]
      exact Bool.false_ne_true
    exact if_neg hr

@[simp] theorem after_nil (w : WorkflowRun) (open? : Option JobRun) (active : Option StepRun) :
    w.after open? active [] = w :=
  close_eq_self_of_not_retired fun _ _ => rfl

/-- A job that is started is registered, and then its end is still to come. -/
theorem settle_activation (w : WorkflowRun) (run : JobRun) (events : List Event) :
    w.settle (jobScope.activation run events) =
      (w.register run).close (some run) none events := by
  unfold settle close
  have hfinal : (jobScope.activation run events).finalJob =
      run.after none (jobScope.activation run events).during := rfl
  have hconclusion : (jobScope.activation run events).conclusion =
      (run.after none (jobScope.activation run events).during).conclusion :=
    (JobRun.withResults_conclusion run _).symm
  rw [hfinal, hconclusion]
  rfl

theorem after_cons_of_starts {run : JobRun} (h : jobScope.starts e.call = some run) :
    w.after open? active (e :: events) = (w.register run).after (some run) none events := by
  have hclose : w.close open? active (e :: events) = w := by
    refine close_eq_self_of_not_retired fun job _ => ?_
    rw [Scope.activation_cons_of_starts h]
  unfold after
  rw [hclose, Scope.activations_cons_of_starts h, List.foldl_cons, settle_activation]

theorem after_cons_of_ends (h : jobScope.ends e.call = true) :
    w.after open? active (e :: events) =
      (open?.elim w fun job => (w.register job).conclude job.conclusion).after none none
        events := by
  have hclose : w.close open? active (e :: events) =
      open?.elim w fun job => (w.register job).conclude job.conclusion := by
    cases open? with
    | none => rfl
    | some job =>
      unfold close
      simp only [Scope.activation_cons_of_ends h, JobRun.after_nil]
      rfl
  unfold after
  rw [hclose, Scope.activations_cons_of_starts_none (jobScope.apart _ h)]
  rfl

/-- An event within a job matters to the record as far as it matters to the job. -/
theorem after_cons_of_lasts (h : jobScope.lasts e = true)
    (hjob : ∀ during,
      open?.map (·.after active (e :: during)) = open?'.map (·.after active' during)) :
    w.after open? active (e :: events) = w.after open?' active' events := by
  have hclose : w.close open? active (e :: events) = w.close open?' active' events := by
    cases open? with
    | none =>
      cases open?' with
      | none => rfl
      | some job' => cases hjob []
    | some job =>
      cases open?' with
      | none => cases hjob []
      | some job' =>
        have hjob := Option.some.inj (hjob (jobScope.activation job events).during)
        unfold close
        simp only [Scope.activation_cons_of_lasts h, hjob]
        rfl
  unfold after
  rw [hclose, Scope.activations_cons_of_starts_none (Scope.starts_of_lasts h)]

/-- What is written goes into the active step, if there is one. -/
theorem after_cons_of_writes (hjob : jobScope.lasts e = true) (hstep : stepScope.lasts e = true)
    (hresults : e.results? = none) :
    w.after open? active (e :: events) =
      w.after open? (active.map (e.writes.foldl StepRun.write ·)) events := by
  refine after_cons_of_lasts hjob fun during => ?_
  cases open? with
  | none => rfl
  | some job =>
    rw [Option.map_some, Option.map_some, JobRun.after_cons_of_lasts hstep, hresults]
    rfl

/-- What is recorded of the end of a job goes into the active job, if there is one. -/
theorem after_cons_of_results (hjob : jobScope.lasts e = true) (hstep : stepScope.lasts e = true)
    (hwrites : e.writes = []) :
    w.after open? active (e :: events) =
      w.after (open?.map (·.withResults e.results?)) active events := by
  refine after_cons_of_lasts hjob fun during => ?_
  cases open? with
  | none => rfl
  | some job =>
    rw [Option.map_some, Option.map_some, Option.map_some, JobRun.after_cons_of_lasts hstep,
      hwrites]
    cases active <;> rfl

/-- A step that starts takes the place of the active one. -/
theorem after_cons_of_startStep {run : StepRun} (h : e.call = .startStep run) (job : JobRun) :
    w.after (some job) active (e :: events) = w.after (some job) (some run) events := by
  have hjob : jobScope.lasts e = true := by
    unfold Scope.lasts
    rw [h]
    rfl
  refine after_cons_of_lasts hjob fun during => ?_
  rw [Option.map_some, Option.map_some, JobRun.after_cons_of_starts h]

/-- A step that ends goes into the active job. -/
theorem after_cons_of_retireStep {result : RunResult} (h : e.call = .retireStep result) :
    w.after open? active (e :: events) =
      w.after (open?.map fun job => active.elim job job.withStep) none events := by
  have hjob : jobScope.lasts e = true := by
    unfold Scope.lasts
    rw [h]
    rfl
  refine after_cons_of_lasts hjob fun during => ?_
  cases open? with
  | none => rfl
  | some job =>
    rw [Option.map_some, Option.map_some, Option.map_some, JobRun.after_cons_of_ends h]

end WorkflowRun

end ToCome

/-! ## What calls do to it -/

namespace Session

variable {s t : Session} {c : Call} {w : WorkflowRun}

/-- What finds nothing to act on falls into no activation of its kind. -/
theorem after_idle (hw : s.workflowRun = some w) (hc : c.staysInWorkflow = true) (h : s.Idle c)
    (events : List Event) :
    w.after s.jobRun s.stepRun (⟨c, s.process⟩ :: events) =
      w.after s.jobRun s.stepRun events := by
  cases c with
  | retireWorkflow => cases hc
  | startJob =>
    rw [show s.workflowRun = none from h] at hw
    cases hw
  | retireJob =>
    rw [show s.jobRun = none from h]
    exact WorkflowRun.after_cons_of_ends rfl
  | concludeJob =>
    rw [show s.jobRun = none from h]
    exact WorkflowRun.after_cons_of_results rfl rfl rfl
  | startStep =>
    rw [show s.jobRun = none from h]
    exact WorkflowRun.after_cons_of_lasts rfl fun _ => rfl
  | retireStep =>
    have hstep : s.stepRun = none := h
    rw [hstep, WorkflowRun.after_cons_of_retireStep rfl]
    cases s.jobRun <;> rfl
  | write | takeOver =>
    rw [show s.stepRun = none from h]
    exact WorkflowRun.after_cons_of_writes rfl rfl rfl
  | _ => exact h.elim

/-- Within a workflow, what a call does and what is still to come make up the same record. -/
theorem after_effect (hw : s.workflowRun = some w) (hc : c.staysInWorkflow = true)
    (e : s.Effect c t) :
    ∃ w', t.workflowRun = some w' ∧ ∀ events,
      w.after s.jobRun s.stepRun (⟨c, s.process⟩ :: events) =
        w'.after t.jobRun t.stepRun events := by
  cases e with
  | idle hidle => exact ⟨w, hw, after_idle hw hc hidle⟩
  | startWorkflow | retireWorkflow | editWorkflow => cases hc
  | startJob hw' run =>
    rw [hw] at hw'
    obtain rfl := Option.some.inj hw'
    exact ⟨_, rfl, fun _ => WorkflowRun.after_cons_of_starts rfl⟩
  | retireJob hw' hj result =>
    rw [hw] at hw'
    obtain rfl := Option.some.inj hw'
    refine ⟨_, rfl, fun _ => ?_⟩
    rw [hj]
    exact WorkflowRun.after_cons_of_ends rfl
  | retireJobOutside hw' =>
    rw [hw] at hw'
    cases hw'
  | concludeJob hj =>
    refine ⟨w, hw, fun _ => ?_⟩
    rw [hj]
    exact WorkflowRun.after_cons_of_results rfl rfl rfl
  | startStep hj run =>
    refine ⟨w, hw, fun _ => ?_⟩
    rw [hj]
    exact WorkflowRun.after_cons_of_startStep rfl _
  | retireStep hs result =>
    refine ⟨w, hw, fun _ => ?_⟩
    rw [hs]
    exact WorkflowRun.after_cons_of_retireStep rfl
  | write hs | takeOver hs =>
    refine ⟨w, hw, fun _ => ?_⟩
    rw [hs]
    exact WorkflowRun.after_cons_of_writes rfl rfl rfl
  | startAction | leaveAction | nameEnvironmentFile | namePathFile =>
    refine ⟨w, hw, fun _ => (WorkflowRun.after_cons_of_writes rfl rfl rfl).trans ?_⟩
    cases s.stepRun <;> rfl

/-- The record of an active workflow after any calls within it. -/
theorem workflowRun_performAll (hw : s.workflowRun = some w) {calls : List Call}
    (hcalls : ∀ c ∈ calls, c.staysInWorkflow = true) :
    (s.performAll calls).workflowRun =
      some (w.after s.jobRun s.stepRun (s.events calls)) := by
  -- the record so far changes from call to call, and with it what is still to come
  induction calls generalizing s w with
  | nil =>
    rw [performAll_nil, hw]
    exact congrArg some (WorkflowRun.after_nil _ _ _).symm
  | cons c calls ih =>
    have hc := hcalls c List.mem_cons_self
    have hrest : ∀ c ∈ calls, c.staysInWorkflow = true :=
      fun c h => hcalls c (List.mem_cons_of_mem _ h)
    obtain ⟨w', hw', hafter⟩ := after_effect hw hc (perform_effect s c)
    rw [performAll_cons, ih hw' hrest, events, hafter]

/-- The record of a workflow is what its activations of jobs make of it. -/
theorem workflowRun_of_startWorkflow (s : Session) (w : WorkflowRun) {calls : List Call}
    (hcalls : ∀ c ∈ calls, c.staysInWorkflow = true) :
    ((s.startWorkflow w).session.performAll calls).workflowRun =
      some ((jobScope.activations ((s.startWorkflow w).session.events calls)).foldl
        WorkflowRun.settle (installed w)) := by
  have hstarted : (s.startWorkflow w).session.workflowRun = some (installed w) := by
    rw [startWorkflow_session]
  have hnojob : (s.startWorkflow w).session.jobRun = none := by
    rw [startWorkflow_session]
  rw [workflowRun_performAll hstarted hcalls, hnojob]
  rfl

end Session

end WorkflowRuns
