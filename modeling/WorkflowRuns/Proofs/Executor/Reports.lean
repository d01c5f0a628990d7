import WorkflowRuns.Proofs.Executor.Archive
import WorkflowRuns.Proofs.Session.Coherence
import WorkflowRuns.Proofs.Workflow.Codec

/-!
# Reports

What lies on a shelf that takes everything is the history of what was ended, in its order
(`shelved_of_history`). A report holds the result that the operation was told and the record as it
is kept from then on: nothing of the record is lost in its JSON form, and it is the record of the
state after the same operation.
-/

namespace WorkflowRuns

/-- An operation was told a result, and the JSON value holds the record that it left: the run of the
step at the end of those of its job, the run of the job in the record of the workflow, or the run of
the workflow that was given back. -/
def Occurrence.Recorded (v : Occurrence) (result : RunResult) (run : Json) : Prop :=
  match v.operation with
  | .call (.retireStep told) => told = result ∧ ∃ job step, v.found.jobRun = some job ∧
      v.left.jobRun = some (job.withStep step) ∧ StepRun.ofJson? run = some step
  | .call (.retireJob told) => told = result ∧ ∃ job workflow kept, v.found.jobRun = some job ∧
      v.left.workflowRun = some workflow ∧ workflow.jobs.get? job.job.id = some kept ∧
      JobRun.ofJson? run = some kept
  | .call (.retireWorkflow told) => told = result ∧ ∃ workflow,
      v.answer = .reply (.retired (some workflow)) ∧ WorkflowRun.ofJson? run = some workflow
  | _ => False

namespace Executor

variable {e : Executor}

/-! ## A shelf that takes everything -/

theorem taken?_of_decided {n : Nat} {told : List Delivery}
    (h : Delivery.Decided (fun _ _ => none) n told) :
    told.filterMap Delivery.taken? = told.filterMap Delivery.filing? := by
  induction told generalizing n with
  | nil => rfl
  | cons d told ih =>
    cases d with
    | logged event => exact ih (n := n) h
    | traced m => exact ih (n := n) h
    | kept f =>
      obtain ⟨-, hrest⟩ := h
      simp [ih hrest]
    | refused f failure =>
      obtain ⟨hr, -⟩ := h
      cases hr

theorem filings_transcript (e : Executor) (ops : List Operation) :
    (e.transcript ops).filterMap Delivery.filing? =
      (e.history ops).flatMap fun v => v.operation.filings v.found := by
  induction ops generalizing e with
  | nil => rfl
  | cons op ops ih =>
    rw [transcript_cons, List.filterMap_append, filings_told, ih, history, List.flatMap_cons]
    rfl

theorem shelved_operateAll (h : e.archive = .shelf fun _ _ => none) (ops : List Operation) :
    (e.operateAll ops).shelved = e.shelved ++
      (e.history ops).flatMap fun v => (v.operation.filings v.found).map Filing.artifact := by
  rw [(e.tells_operateAll ops).shelved _ h, taken?_of_decided (decided_transcript h ops),
    filings_transcript, List.map_flatMap]

/-! ## What a report holds -/

theorem recorded_retireStep {result : RunResult} {f : Filing}
    (h : f ∈ e.session.filings (.retireStep result)) {path : String} {value : Json}
    (hf : f.artifact = .document path value) : ∃ run,
      value = .object [("result", result.told), ("run", run)] ∧
      (e.occurrence (.call (.retireStep result))).Recorded result run := by
  simp only [Session.filings] at h
  split at h
  · rename_i run job step hw hj hs
    split at h
    · have hleft : (e.perform (.retireStep result)).2.session.jobRun =
          some (job.withStep step) := by
        rw [perform_session]
        simp only [Session.perform, Session.retireStep_session hs, hj, Option.map_some]
      rcases List.mem_cons.1 h with rfl | h
      · cases hf
        exact ⟨step.toJson, rfl, rfl, job, step, hj, hleft, StepRun.lossless step⟩
      · -- the summary is no document
        obtain ⟨-, h⟩ := List.mem_ite_nil_left.1 h
        obtain rfl := List.mem_singleton.1 h
        cases hf
    · cases h
  · cases h

theorem recorded_retireJob {result : RunResult} {f : Filing}
    (h : f ∈ e.session.filings (.retireJob result)) {path : String} {value : Json}
    (hf : f.artifact = .document path value) : ∃ run,
      value = .object [("result", result.told), ("run", run)] ∧
      (e.occurrence (.call (.retireJob result))).Recorded result run := by
  simp only [Session.filings] at h
  split at h
  · rename_i run job hw hj
    have hleft : (e.perform (.retireJob result)).2.session.workflowRun =
        some ((run.register job).conclude job.conclusion) := by
      rw [perform_session]
      simp only [Session.perform, Session.retireJob_session hw hj]
    have hkept : ((run.register job).conclude job.conclusion).jobs.get? job.job.id = some job := by
      simp
    obtain rfl := List.mem_singleton.1 h
    cases hf
    exact ⟨job.toJson, rfl, rfl, job, _, job, hj, hleft, hkept, JobRun.lossless job⟩
  · cases h

theorem recorded_retireWorkflow {result : RunResult} {f : Filing}
    (h : f ∈ e.session.filings (.retireWorkflow result)) {path : String} {value : Json}
    (hf : f.artifact = .document path value) : ∃ run,
      value = .object [("result", result.told), ("run", run)] ∧
      (e.occurrence (.call (.retireWorkflow result))).Recorded result run := by
  simp only [Session.filings] at h
  split at h
  · rename_i run hw
    have hreply : (e.session.retireWorkflow result).reply = .retired (some run) := by
      rw [Session.retireWorkflow_reply, hw]
    rcases List.mem_cons.1 h with rfl | h
    · cases hf
      exact ⟨run.toJson, rfl, rfl, run, congrArg Answer.reply hreply, WorkflowRun.lossless run⟩
    · -- the copy of the source is no document
      obtain ⟨-, h⟩ := List.mem_ite_nil_left.1 h
      obtain rfl := List.mem_singleton.1 h
      cases hf
  · cases h

/-- Every document is a report on what the operation ended. -/
theorem recorded_of_mem_filings {op : Operation} {f : Filing} (h : f ∈ op.filings e.session)
    {path : String} {value : Json} (hf : f.artifact = .document path value) :
    ∃ result run, value = .object [("result", result.told), ("run", run)] ∧
      (e.occurrence op).Recorded result run := by
  cases op with
  | call c =>
    cases c with
    | retireStep result => exact ⟨result, recorded_retireStep h hf⟩
    | retireJob result => exact ⟨result, recorded_retireJob h hf⟩
    | retireWorkflow result => exact ⟨result, recorded_retireWorkflow h hf⟩
    | _ => cases h
  | _ => cases h

/-! ## Whole histories -/

theorem nested_operate (h : e.session.Nested) (op : Operation) :
    (e.operate op).2.session.Nested := by
  rw [operate_session]
  cases e.callOf? op with
  | none => exact h
  | some c => exact h.effect (Session.perform_effect _ c)

theorem home_operate (e : Executor) (op : Operation) :
    (e.operate op).2.session.home = e.session.home := by
  rw [operate_session]
  cases e.callOf? op with
  | none => rfl
  | some c => exact (Session.SameOrigin.effect (Session.perform_effect _ c)).home

/-- **The reports are the history of what was ended, and what is reported is what is kept.** A shelf
that takes everything holds what each operation of a history wants kept of the session that it
finds, in order: something of a step in its main stage, of a job and of a workflow that is ended,
and nothing else. Scopes are nested throughout, so a step that is active has its job and its
workflow. Every document among it is an object of two members: what is told of the result that the
operation was given, from which that result is read back, and the record that the operation left. -/
theorem shelved_of_history (around : Executor) (home : String) (github : Context.Github)
    (runner : Context.Runner) (secrets : Context.Secrets) (inputs : Context.Inputs)
    (process : ProcessEnvironment) (ops : List Operation) :
    let e : Executor := { around with
      session := .start home github runner secrets inputs process
      archive := .shelf fun _ _ => none
      shelved := [] }
    (e.operateAll ops).shelved =
        ((e.history ops).flatMap fun v => (v.operation.filings v.found).map Filing.artifact) ∧
      ∀ v ∈ e.history ops, v.found.Nested ∧ v.found.home = home ∧
        ∀ f ∈ v.operation.filings v.found, ∀ path value, f.artifact = .document path value →
          ∃ result run, value = .object [("result", result.told), ("run", run)] ∧
            RunResult.ofJson? result.told = some result ∧ v.Recorded result run := by
  intro e
  have hshelved := shelved_operateAll (e := e) rfl ops
  refine ⟨hshelved, ?_⟩
  refine forall_history (I := fun e => e.session.Nested ∧ e.session.home = home) ?_
    ⟨Session.nested_start, rfl⟩ ops
  rintro e op ⟨hnested, hhome⟩
  refine ⟨⟨nested_operate hnested op, (e.home_operate op).trans hhome⟩, hnested, hhome, ?_⟩
  intro f hmem path value hf
  obtain ⟨result, run, hvalue, hrecorded⟩ := recorded_of_mem_filings hmem hf
  exact ⟨result, run, hvalue, result.ofJson?_told, hrecorded⟩

/-- An executor that has done nothing yet, with a shelf that takes everything. -/
def withShelf : Executor :=
  ⟨.start "/ghx" {} {} ∅ ∅ (.inMemory ∅), .blank, .shelf fun _ _ => none, [], [], false, [], []⟩

/-- A step that fails with an error after one and a half seconds. -/
def failing : RunResult :=
  .failed "exit code 2" ⟨1709208000, 0, by decide, by decide⟩
    ⟨1709208001, 500000000, by decide, by decide⟩

/-- One step ends in its pre-stage, and another one fails in its main stage. -/
def failingCalls : List Call := [
  .startWorkflow (.start "42" { name := "CI" }), .startJob { job := { id := "build" } },
  .startStep { step := { id := "setup" }, stage := .pre }, .retireStep (.complete .epoch .epoch),
  .startStep { step := { id := "a/b" } }, .write (.output "x" "1"), .write (.summary "done"),
  .retireStep failing]

/-- Of a step that fails there is a report, with the times and the error, from which its run is read,
and its summary. -/
theorem shelved_of_history_failing_step :
    let run : Json := .object [
      ("conclusion", .string "success"), ("environment", .object []),
      ("outcome", .string "success"), ("outputs", .object [("x", .string "1")]),
      ("path", .array []), ("stage", .string "main"), ("state", .object []),
      ("step", .object [("continue-on-error", .bool false), ("env", .object []),
        ("id", .string "a/b")]),
      ("summary", .string "done")]
    (withShelf.operateAll (failingCalls.map .call)).shelved = [
        .document "/ghx/runs/42/jobs/build/steps/a_b/step_run.json" (.object [
          ("result", .object [
            ("completed_at", .string "2024-02-29T12:00:01.500Z"),
            ("error", .string "exit code 2"),
            ("ran", .bool true),
            ("started_at", .string "2024-02-29T12:00:00Z")]),
          ("run", run)]),
        .bytes "/ghx/runs/42/jobs/build/steps/a_b/summary.md" "done".toUTF8] ∧
      StepRun.ofJson? run = some {
        step := { id := "a/b" }, outputs := Dict.insert ∅ "x" "1", summary := "done" } := by
  intro run
  have hfilings : (withShelf.history (failingCalls.map .call)).flatMap (fun v =>
      (v.operation.filings v.found).map Filing.artifact) = [
        .document "/ghx/runs/42/jobs/build/steps/a_b/step_run.json" (.object [
          ("result", failing.told), ("run", run)]),
        .bytes "/ghx/runs/42/jobs/build/steps/a_b/summary.md" "done".toUTF8] := rfl
  have htold : failing.told = .object [
      ("completed_at", .string "2024-02-29T12:00:01.500Z"), ("error", .string "exit code 2"),
      ("ran", .bool true), ("started_at", .string "2024-02-29T12:00:00Z")] := by
    have hstarted : failing.startedAt.text = "2024-02-29T12:00:00Z" := by decide +kernel
    have hcompleted : failing.completedAt.text = "2024-02-29T12:00:01.500Z" := by decide +kernel
    rw [RunResult.told, hstarted, hcompleted]
    rfl
  obtain ⟨hshelved, -⟩ :=
    shelved_of_history withShelf "/ghx" {} {} ∅ ∅ (.inMemory ∅) (failingCalls.map .call)
  rw [htold] at hfilings
  exact ⟨hshelved.trans hfilings, by decide +kernel⟩

/-- A stage before the main one is not reported, and a job is only ended once. -/
example :
    let result : RunResult := .complete .epoch .epoch
    let calls : List Call := [
      .startWorkflow (.start "42" { name := "CI", path := "ci.yml" }),
      .startJob { job := { id := "build" } },
      .startStep { step := { id := "setup" }, stage := .pre }, .retireStep result,
      .startStep { step := { id := "a/b" } }, .write (.summary "done"), .retireStep result,
      .retireJob result, .retireJob result, .retireWorkflow result]
    (withShelf.operateAll (calls.map .call)).shelved.map Artifact.target = [
      "/ghx/runs/42/jobs/build/steps/a_b/step_run.json",
      "/ghx/runs/42/jobs/build/steps/a_b/summary.md",
      "/ghx/runs/42/jobs/build/job_run.json",
      "/ghx/runs/42/workflow_run.json",
      "/ghx/runs/42/workflow.yaml"] := by decide +kernel

end Executor

end WorkflowRuns
