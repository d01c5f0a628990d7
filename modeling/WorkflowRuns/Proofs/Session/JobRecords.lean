import WorkflowRuns.Proofs.Session.Record

/-!
# What is recorded of the jobs of a workflow

The record of a workflow has, for every job that was started in it, what the latest activation of
that job left behind (`WorkflowRun.get?_foldl_settle_jobs`), and everything else as it was given. So
no step that ended in a retired activation is missing and none comes twice.
-/

namespace WorkflowRuns

/-- What an activation leaves in the record of the workflow: the job with its end if it was retired,
and else the job as it was started. -/
def Activation.record (a : Activation JobRun) : JobRun := if a.retired then a.finalJob else a.run

/-- What an activation leaves in the record under an identifier. -/
def Activation.recordOf? (id : String) (a : Activation JobRun) : Option JobRun :=
  if id = a.run.job.id then some a.record else none

namespace WorkflowRun

theorem sameRun_settle (w : WorkflowRun) (a : Activation JobRun) : w.SameRun (w.settle a) := by
  unfold settle
  cases a.retired with
  | false => exact sameRun_register w a.run
  | true =>
    have hregister : w.SameRun ((w.register a.run).register a.finalJob) :=
      (sameRun_register w a.run).trans (sameRun_register _ a.finalJob)
    exact hregister.trans (sameRun_conclude _ a.conclusion)

theorem sameRun_foldl_settle (w : WorkflowRun) (activations : List (Activation JobRun)) :
    w.SameRun (activations.foldl settle w) := by
  induction activations generalizing w with
  | nil => rfl
  | cons a activations ih => exact (sameRun_settle w a).trans (ih _)

/-- An activation is recorded under its identifier, over what was there. -/
theorem get?_settle_jobs (w : WorkflowRun) (a : Activation JobRun) (id : String) :
    (w.settle a).jobs.get? id = (a.recordOf? id).or (w.jobs.get? id) := by
  have hid : a.finalJob.job.id = a.run.job.id := by
    show (a.run.withResults a.results?).job.id = a.run.job.id
    rw [JobRun.withResults_job]
  unfold settle Activation.recordOf? Activation.record
  cases a.retired with
  | false =>
    show (w.register a.run).jobs.get? id = _
    rw [register_jobs, Dict.get?_insert]
    by_cases h : id = a.run.job.id <;> simp [h]
  | true =>
    show (((w.register a.run).register a.finalJob).conclude a.conclusion).jobs.get? id = _
    rw [conclude_jobs, register_jobs, register_jobs, Dict.get?_insert, Dict.get?_insert, hid]
    by_cases h : id = a.run.job.id <;> simp [h]

/-- The latest activation with an identifier counts. -/
theorem get?_foldl_settle_jobs (w : WorkflowRun) (activations : List (Activation JobRun))
    (id : String) :
    (activations.foldl settle w).jobs.get? id =
      (latest (Activation.recordOf? id) activations).or (w.jobs.get? id) := by
  induction activations generalizing w with
  | nil => rfl
  | cons a activations ih =>
    rw [List.foldl_cons, ih, get?_settle_jobs, latest_cons, Option.or_assoc]

end WorkflowRun

namespace Session

/-- **The record loses and duplicates nothing.** After any calls within a workflow, its record, which
is also the one given back at its end, has under every identifier what the latest activation of a job
with it left behind, and what it was started with if there is none; the runs of steps in it are those
that were started, with what was written of them and nothing else. -/
theorem jobs_of_history (s : Session) (w : WorkflowRun) (calls : List Call)
    (hcalls : ∀ c ∈ calls, c.staysInWorkflow = true) :
    let begun := (s.startWorkflow w).session
    let activations := jobScope.activations (begun.events calls)
    ∃ run, (begun.performAll calls).workflowRun = some run ∧
      (∀ result, ((begun.performAll calls).retireWorkflow result).reply = .retired (some run)) ∧
      w.SameRun run ∧
      (∀ id, run.jobs.get? id =
        (latest (Activation.recordOf? id) activations).or (w.jobs.get? id)) ∧
      ∀ a ∈ activations, ∀ step ∈ stepScope.activations a.during,
        step.run.Wrote step.writes step.finalStep := by
  intro begun activations
  have hrun : (begun.performAll calls).workflowRun =
      some (activations.foldl WorkflowRun.settle (installed w)) :=
    workflowRun_of_startWorkflow s w hcalls
  refine ⟨_, hrun, fun result => ?_, ?_, fun id => ?_, fun a _ step _ => ?_⟩
  · -- the end of the workflow
    rw [retireWorkflow_reply, hrun]
  · -- everything but conclusion and jobs
    have hinstalled : w.SameRun (installed w) := rfl
    exact hinstalled.trans (WorkflowRun.sameRun_foldl_settle (installed w) _)
  · -- jobs
    exact WorkflowRun.get?_foldl_settle_jobs (installed w) activations id
  · -- steps
    exact StepRun.wrote_foldl step.run step.writes

/-- A job runs twice, and in its second run a step is replaced. -/
theorem jobs_of_history_rerun_job :
    let result : RunResult := .complete .epoch .epoch
    let built := start "/ghx" {} {} ∅ ∅ (.inMemory ∅)
    let begun := (built.startWorkflow {}).session
    let build : JobRun := { job := { id := "build" } }
    let calls : List Call := [
      .startJob build, .startStep {}, .write (.path "/old"), .retireStep result,
      .retireJob result,
      .startJob build, .startStep { stage := .pre }, .write (.output "n" "1"),
      .takeOver { env := .ok "", path := .ok "", outputs := .ok "n=2", summary := .ok "done" },
      .retireStep result, .startStep {}, .write (.path "/lost"), .startStep {},
      .concludeJob .failure .failure ∅, .retireStep result, .retireJob result]
    (∀ c ∈ calls, c.staysInWorkflow = true) ∧
      ∃ run, (begun.performAll calls).workflowRun = some run ∧
        (run.jobs.get? "build").map (fun job => (job.conclusion, job.steps)) =
          some (.failure, [
            { stage := .pre, outputs := Dict.insert ∅ "n" "2", summary := "done" }, {}]) ∧
        (run.jobs.get? "test").isNone := by
  intro result built begun build calls
  have hcalls : ∀ c ∈ calls, c.staysInWorkflow = true := by decide
  obtain ⟨run, hrun, -, -, hjobs, -⟩ := jobs_of_history built {} calls hcalls
  refine ⟨hcalls, run, hrun, ?_, ?_⟩
  · rw [hjobs]
    decide +kernel
  · rw [hjobs]
    decide +kernel

end Session

end WorkflowRuns
