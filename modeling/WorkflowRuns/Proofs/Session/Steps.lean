import WorkflowRuns.Proofs.Expression.Objects
import WorkflowRuns.Proofs.Session.Coherence
import WorkflowRuns.Proofs.Session.Record

/-!
# The steps that a job shows

The `steps` context of a job is what its steps left that ended in their main stage, the later over
the earlier (`steps_performAll`). Other stages, and steps that were replaced or torn down with their
job, leave nothing in it, and it outlives the job (`steps_of_history`).
-/

namespace WorkflowRuns

/-- Whether a call ends the active job, by itself or with its workflow. -/
def Call.endsJob : Call → Bool
  | .retireJob _ | .retireWorkflow _ => true
  | _ => false

/-- The events up to the end of the job that is active when they begin. -/
def withinJob (events : List Event) : List Event := events.takeWhile fun e => !e.call.endsJob

/-- A run of a step in its main stage, by the identifier of the step. -/
def StepRun.mainOf? (id : String) (r : StepRun) : Option StepRun :=
  if r.stage = .main ∧ r.step.id = id then some r else none

open Json in
/-- What an expression is told of a run of a step. -/
def StepRun.told (r : StepRun) : Json := .object [
  ("conclusion", .string r.conclusion.name),
  ("outcome", .string r.outcome.name),
  ("outputs", ofEntries r.outputs.entries),
  ("state", ofEntries r.state.entries),
  ("summary", .string r.summary)]

theorem StepRun.toJson_ofRun (r : StepRun) : (Context.Step.ofRun r).toJson = r.told :=
  (Context.Step.ofRun r).toJson_eq

namespace Context.Steps

/-- The `steps` context after runs of steps that ended. -/
def withEnded (steps : Steps) (ended : List StepRun) : Steps :=
  ended.foldl (fun steps r => if r.stage = .main then steps.insert r.step.id (.ofRun r) else steps)
    steps

theorem withEnded_append (steps : Steps) (ended more : List StepRun) :
    steps.withEnded (ended ++ more) = (steps.withEnded ended).withEnded more :=
  List.foldl_append

/-- The last run in its main stage counts. -/
theorem get?_withEnded (steps : Steps) (ended : List StepRun) (id : String) :
    (steps.withEnded ended).get? id =
      ((latest (StepRun.mainOf? id) ended).map .ofRun).or (steps.get? id) := by
  induction ended generalizing steps with
  | nil => rfl
  | cons r ended ih =>
    rw [withEnded, List.foldl_cons, ← withEnded, ih, latest_cons]
    by_cases hm : r.stage = .main
    · by_cases hid : id = r.step.id
      · cases latest (StepRun.mainOf? id) ended <;> simp [StepRun.mainOf?, hm, hid]
      · cases latest (StepRun.mainOf? id) ended <;>
          simp [StepRun.mainOf?, hm, hid, Ne.symm hid, Dict.get?_insert]
    · simp [StepRun.mainOf?, hm]

end Context.Steps

namespace Session

variable {s t : Session} {c : Call} {calls : List Call}

/-! ## Within a job -/

/-- Within a job, what a call does and the steps that are still to end come to the same context. -/
theorem withEnded_effect (hn : s.Nested) (hjob : s.jobRun.isSome) (hc : s.OpensNoJob c)
    (hends : c.endsJob = false) (e : s.Effect c t) :
    t.jobRun.isSome ∧ ∀ events,
      s.steps.withEnded (stepsToRetire s.stepRun (⟨c, s.process⟩ :: events)) =
        t.steps.withEnded (stepsToRetire t.stepRun events) := by
  have hworkflow : s.workflowRun ≠ none := Option.isSome_iff_ne_none.1 (hn.jobInWorkflow hjob)
  cases e with
  | idle hidle =>
    refine ⟨hjob, fun events => ?_⟩
    cases c with
    | retireWorkflow | retireJob => cases hends
    | startJob => exact absurd hidle hworkflow
    | concludeJob | startStep => exact absurd hidle (Option.isSome_iff_ne_none.1 hjob)
    | retireStep =>
      rw [show s.stepRun = none from hidle, stepsToRetire_cons_of_ends rfl]
      rfl
    | write | takeOver =>
      rw [show s.stepRun = none from hidle, stepsToRetire_cons_of_lasts rfl]
      rfl
    | _ => exact hidle.elim
  | startWorkflow => exact hc.elim
  | retireWorkflow | retireJob | retireJobOutside => cases hends
  | startJob hw => exact absurd hc hworkflow
  | startStep hj run =>
    refine ⟨hjob, fun events => ?_⟩
    rw [stepsToRetire_cons_of_starts rfl]
  | @retireStep step hs result =>
    refine ⟨by simpa using hjob, fun events => ?_⟩
    rw [stepsToRetire_cons_of_ends rfl, Context.Steps.withEnded_append, hs]
    rfl
  | write hs | takeOver hs =>
    refine ⟨hjob, fun events => ?_⟩
    rw [stepsToRetire_cons_of_lasts rfl, hs]
    rfl
  | editWorkflow | concludeJob | startAction | leaveAction | nameEnvironmentFile
  | namePathFile =>
    refine ⟨by simp [hjob], fun events => ?_⟩
    rw [stepsToRetire_cons_of_lasts rfl]
    cases s.stepRun <;> rfl

/-! ## After a job -/

/-- No job is active, and the `steps` context is an older one. -/
structure Closed (older : Context.Steps) (s : Session) : Prop where
  noJob : s.jobRun = none
  noStep : s.stepRun = none
  steps : s.steps = older

theorem Closed.effect {older : Context.Steps} (h : s.Closed older) (hc : s.OpensNoJob c)
    (e : s.Effect c t) : t.Closed older := by
  cases e with
  | startWorkflow => exact hc.elim
  | startJob hw => simp [OpensNoJob, hw] at hc
  | retireWorkflow | retireJob | retireJobOutside => exact ⟨rfl, rfl, h.steps⟩
  | concludeJob hj | startStep hj =>
    rw [h.noJob] at hj
    cases hj
  | retireStep hs | write hs | takeOver hs =>
    rw [h.noStep] at hs
    cases hs
  | idle | editWorkflow | startAction | leaveAction | nameEnvironmentFile | namePathFile =>
    exact ⟨h.noJob, h.noStep, h.steps⟩

/-- The end of a job leaves the `steps` context as it is. -/
theorem closed_of_endsJob (hn : s.Nested) (hends : c.endsJob = true) (e : s.Effect c t) :
    t.Closed s.steps := by
  have hidle : s.jobRun = none → s.Closed s.steps := fun hj =>
    ⟨hj, by simpa [hj] using hn.stepInJob, rfl⟩
  cases e with
  | idle h =>
    cases c with
    | retireWorkflow => exact hidle (by simpa [show s.workflowRun = none from h] using
        hn.jobInWorkflow)
    | retireJob => exact hidle h
    | _ => cases hends
  | retireWorkflow | retireJob | retireJobOutside => exact ⟨rfl, rfl, rfl⟩
  | _ => cases hends

/-! ## Whole histories -/

/-- From within a job on, the `steps` context takes in what the steps leave that end in the job. -/
theorem steps_performAll (hn : s.Nested) (hjob : s.jobRun.isSome)
    (hcalls : s.Along OpensNoJob calls) :
    (s.performAll calls).steps =
      s.steps.withEnded (stepsToRetire s.stepRun (withinJob (s.events calls))) := by
  induction calls generalizing s with
  | nil =>
    show _ = s.steps.withEnded (stepsToRetire s.stepRun [])
    rw [stepsToRetire_nil]
    rfl
  | cons c calls ih =>
    obtain ⟨hc, hrest⟩ := hcalls
    cases hends : c.endsJob with
    | true =>
      -- the job is over, and nothing is added any more
      have hclosed : ((s.perform c).session.performAll calls).Closed s.steps :=
        Along.keeps (fun s c hc h => h.effect hc (perform_effect s c)) hrest
          (closed_of_endsJob hn hends (perform_effect s c))
      have hnothing : withinJob (s.events (c :: calls)) = [] := by
        simp [withinJob, events, hends]
      rw [performAll_cons, hclosed.steps, hnothing, stepsToRetire_nil]
      rfl
    | false =>
      obtain ⟨hjob', hsteps⟩ := withEnded_effect hn hjob hc hends (perform_effect s c)
      have hwithin : withinJob (s.events (c :: calls)) =
          ⟨c, s.process⟩ :: withinJob ((s.perform c).session.events calls) := by
        simp [withinJob, events, hends]
      rw [performAll_cons, ih (hn.effect (perform_effect s c)) hjob' hrest, hwithin, hsteps]

theorem retireJob_steps (s : Session) (result : RunResult) :
    (s.retireJob result).session.steps = s.steps := by
  cases hj : s.jobRun with
  | none => rw [retireJob_of_none hj]; rfl
  | some job =>
    cases hw : s.workflowRun with
    | none => rw [retireJob_outside hw hj]
    | some w => rw [retireJob_session hw hj]

theorem retireWorkflow_steps (s : Session) (result : RunResult) :
    (s.retireWorkflow result).session.steps = s.steps := by
  cases hw : s.workflowRun with
  | none => rw [retireWorkflow_of_none hw]
  | some w => rw [retireWorkflow_session hw]

/-- **The `steps` context shows the main stage of a job.** From the start of a job on, until the next
one starts, an expression finds under every identifier what the last step with it left that ended in
its main stage within the job, and nothing if there is none. Steps of other stages, and steps that
were replaced or torn down with their job, are not to be found. The ends of job and workflow change
nothing in it. -/
theorem steps_of_history (s : Session) (job : JobRun) (hdone : (s.startJob job).reply = .done)
    (calls : List Call) (hcalls : (s.startJob job).session.Along OpensNoJob calls) :
    let begun := (s.startJob job).session
    let t := begun.performAll calls
    let ended := Activation.endedSteps (stepScope.activations (withinJob (begun.events calls)))
    t.Shows "steps" (fun id => (latest (StepRun.mainOf? id) ended).map StepRun.told) ∧
      ∀ result,
        (t.retireJob result).session.steps = t.steps ∧
        (t.retireWorkflow result).session.steps = t.steps := by
  intro begun t ended
  obtain ⟨w, hw⟩ := startJob_reply_done.1 hdone
  have hbegun := startJob_session hw job
  have hjob : begun.jobRun = some job := congrArg Session.jobRun hbegun
  have hstep : begun.stepRun = none := congrArg Session.stepRun hbegun
  have hworkflow : begun.workflowRun = some (w.register job) :=
    congrArg Session.workflowRun hbegun
  have hempty : begun.steps = ∅ := congrArg Session.steps hbegun
  have hnested : begun.Nested := ⟨by simp [hstep], by simp [hworkflow]⟩
  have hsteps : t.steps = Context.Steps.withEnded ∅ ended := by
    have h := steps_performAll hnested (by simp [hjob]) hcalls
    rwa [hempty, hstep] at h
  refine ⟨(shows_steps t).congr fun id => ?_, fun result =>
    ⟨retireJob_steps t result, retireWorkflow_steps t result⟩⟩
  -- what is told under an identifier
  have hget : t.steps.get? id = (latest (StepRun.mainOf? id) ended).map .ofRun := by
    rw [hsteps, Context.Steps.get?_withEnded, Dict.get?_emptyCollection, Option.or_none]
  rw [hget, Option.map_map]
  exact congrArg (Option.map · _) (funext StepRun.toJson_ofRun)

/-- A step runs in its pre-stage, in its main stage, again with its run replaced by one of the
post-stage, and a last step is open at the end of the job, after which nothing more can start. -/
theorem steps_of_history_abandoned_step :
    let result : RunResult := .complete .epoch .epoch
    let opened := ((start "/ghx" {} {} ∅ ∅ (.inMemory ∅)).startWorkflow {}).session
    let begun := (opened.startJob {}).session
    let install : StepRun := { step := { id := "install" } }
    let calls : List Call := [
      .startStep { install with stage := .pre }, .write (.output "n" "0"), .retireStep result,
      .startStep install, .write (.output "n" "1"), .write (.state "pid" "7"), .retireStep result,
      .startStep install, .write (.output "n" "2"),
      .startStep { install with stage := .post }, .write (.output "n" "3"), .retireStep result,
      .startStep { step := { id := "check" } }, .write (.summary "open"), .retireJob result,
      .startStep install, .retireStep result, .retireWorkflow result, .startJob {}]
    (opened.startJob {}).reply = .done ∧ begun.Along OpensNoJob calls ∧
      ∃ members,
        Expression.lookUp? (begun.performAll calls) "steps" = some (.value (.object members)) ∧
        Json.lookUp? "install" members = some (some (.object [
          ("conclusion", .string "success"), ("outcome", .string "success"),
          ("outputs", .object [("n", .string "1")]), ("state", .object [("pid", .string "7")]),
          ("summary", .string "")])) ∧
        Json.lookUp? "check" members = some none := by
  intro result opened begun install calls
  have hdone : (opened.startJob {}).reply = .done := rfl
  have hcalls : begun.Along OpensNoJob calls := by
    simp only [calls, Along, OpensNoJob, perform, retireWorkflow_workflowRun, and_self]
  obtain ⟨⟨members, hobject, hmembers⟩, -⟩ := steps_of_history opened {} hdone calls hcalls
  have hinstall : latest (StepRun.mainOf? "install") (Activation.endedSteps
      (stepScope.activations (withinJob (begun.events calls)))) =
        some { install with
          outputs := Dict.insert ∅ "n" "1", state := Dict.insert ∅ "pid" "7" } := by
    decide +kernel
  have hcheck : latest (StepRun.mainOf? "check") (Activation.endedSteps
      (stepScope.activations (withinJob (begun.events calls)))) = none := by
    decide +kernel
  exact ⟨hdone, hcalls, members, hobject,
    (hmembers "install").trans (congrArg (fun r => some (r.map StepRun.told)) hinstall),
    (hmembers "check").trans (congrArg (fun r => some (r.map StepRun.told)) hcheck)⟩

end Session

end WorkflowRuns
