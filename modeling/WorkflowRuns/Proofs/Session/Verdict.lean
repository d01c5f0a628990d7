import WorkflowRuns.Proofs.Session.Record

/-!
# The conclusion of a workflow

While a workflow is active, its conclusion is that of the first job that was retired and no success
(`WorkflowRun.foldl_settle_conclusion`). Jobs that were replaced or left open have no say in it.
-/

namespace WorkflowRuns

/-- The first conclusion that is no success, and success if there is none. -/
def Conclusion.verdict (conclusions : List Conclusion) : Conclusion :=
  (conclusions.find? (· ≠ .success)).getD .success

/-- How the jobs ended that were retired, in order. -/
def Activation.conclusions (activations : List (Activation JobRun)) : List Conclusion :=
  (activations.filter (·.retired)).map conclusion

namespace Conclusion

@[simp] theorem verdict_success_cons (l : List Conclusion) : verdict (.success :: l) = verdict l :=
  rfl

@[simp] theorem verdict_singleton (c : Conclusion) : verdict [c] = c := by
  cases c <;> rfl

/-- The first failure decides, whatever comes later. -/
theorem verdict_cons_of_ne {c : Conclusion} (h : c ≠ .success) (l : List Conclusion) :
    verdict (c :: l) = c := by
  simp [verdict, h]

/-- A verdict stands for all that led to it. -/
theorem verdict_verdict_cons (c c' : Conclusion) (l : List Conclusion) :
    verdict (verdict [c, c'] :: l) = verdict (c :: c' :: l) := by
  by_cases h : c = .success
  · rw [h, verdict_success_cons, verdict_success_cons, verdict_singleton]
  · rw [verdict_cons_of_ne h [c'], verdict_cons_of_ne h, verdict_cons_of_ne h]

end Conclusion

namespace WorkflowRun

theorem conclude_conclusion (w : WorkflowRun) (c : Conclusion) :
    (w.conclude c).conclusion = .verdict [w.conclusion, c] := by
  unfold conclude
  by_cases h : w.conclusion = .success
  · rw [if_pos h, h, Conclusion.verdict_success_cons, Conclusion.verdict_singleton]
  · rw [if_neg h, Conclusion.verdict_cons_of_ne h]

/-- What the jobs make of a conclusion. -/
theorem foldl_settle_conclusion (w : WorkflowRun) (activations : List (Activation JobRun)) :
    (activations.foldl settle w).conclusion =
      .verdict (w.conclusion :: Activation.conclusions activations) := by
  induction activations generalizing w with
  | nil => exact (Conclusion.verdict_singleton w.conclusion).symm
  | cons a activations ih =>
    rw [List.foldl_cons, ih]
    cases ha : a.retired with
    | true =>
      have hsettle : (w.settle a).conclusion = .verdict [w.conclusion, a.conclusion] := by
        unfold settle
        rw [if_pos ha, conclude_conclusion]
        rfl
      have hended : Activation.conclusions (a :: activations) =
          a.conclusion :: Activation.conclusions activations := by
        simp [Activation.conclusions, ha]
      rw [hsettle, hended, Conclusion.verdict_verdict_cons]
    | false =>
      have hsettle : (w.settle a).conclusion = w.conclusion := by
        unfold settle
        rw [ha]
        rfl
      have hended : Activation.conclusions (a :: activations) =
          Activation.conclusions activations := by
        simp [Activation.conclusions, ha]
      rw [hsettle, hended]

end WorkflowRun

namespace Session

variable {s t : Session} {c : Call}

/-- A workflow is active and has this conclusion. -/
def Concluded (conclusion : Conclusion) (s : Session) : Prop :=
  ∃ run, s.workflowRun = some run ∧ run.conclusion = conclusion

/-- A conclusion that is no success is final. -/
theorem Concluded.effect {conclusion : Conclusion} (h : s.Concluded conclusion)
    (hne : conclusion ≠ .success) (hc : c.staysInWorkflow = true) (e : s.Effect c t) :
    t.Concluded conclusion := by
  obtain ⟨run, hrun, rfl⟩ := h
  cases e with
  | startWorkflow | retireWorkflow | editWorkflow => cases hc
  | startJob hw job =>
    rw [hrun] at hw
    obtain rfl := Option.some.inj hw
    exact ⟨_, rfl, rfl⟩
  | retireJob hw hj =>
    rw [hrun] at hw
    obtain rfl := Option.some.inj hw
    refine ⟨_, rfl, ?_⟩
    rw [WorkflowRun.conclude_conclusion]
    exact Conclusion.verdict_cons_of_ne hne _
  | _ => exact ⟨run, hrun, rfl⟩

theorem Concluded.performAll {conclusion : Conclusion} (h : s.Concluded conclusion)
    (hne : conclusion ≠ .success) {calls : List Call}
    (hcalls : ∀ c ∈ calls, c.staysInWorkflow = true) :
    (s.performAll calls).Concluded conclusion :=
  performAll_keeps (fun s c hc h => h.effect hne hc (perform_effect s c)) hcalls h

/-- **The first failure wins.** After any calls within a workflow, whatever conclusion its run
carried when it was started, the active run has the conclusion of the first job that was retired and
no success. The run that is given back at the end of the workflow has it, a job that starts sees it,
and once it is no success it stays. -/
theorem conclusion_of_history (s : Session) (w : WorkflowRun) (calls : List Call)
    (hcalls : ∀ c ∈ calls, c.staysInWorkflow = true) :
    let begun := (s.startWorkflow w).session
    let t := begun.performAll calls
    let verdict := Conclusion.verdict
      (Activation.conclusions (jobScope.activations (begun.events calls)))
    (∃ run, t.workflowRun = some run ∧ run.conclusion = verdict ∧
        ∀ result, (t.retireWorkflow result).reply = .retired (some run)) ∧
      (∀ job, (t.startJob job).reply = .done ∧ (t.startJob job).session.job.status = verdict) ∧
      (verdict ≠ .success → ∀ more : List Call, (∀ c ∈ more, c.staysInWorkflow = true) →
        (t.performAll more).Concluded verdict) := by
  intro begun t verdict
  have hrun : t.workflowRun = some ((jobScope.activations (begun.events calls)).foldl
      WorkflowRun.settle (installed w)) := workflowRun_of_startWorkflow s w hcalls
  have hverdict : ((jobScope.activations (begun.events calls)).foldl
      WorkflowRun.settle (installed w)).conclusion = verdict :=
    WorkflowRun.foldl_settle_conclusion _ _
  refine ⟨⟨_, hrun, hverdict, fun result => ?_⟩, fun job => ⟨?_, ?_⟩, fun hne more hmore => ?_⟩
  · -- the end of the workflow
    rw [retireWorkflow_reply, hrun]
  · -- the start of a job
    exact startJob_reply hrun job
  · -- what the job sees
    rw [startJob_session hrun]
    exact hverdict
  · -- what comes later
    exact Concluded.performAll ⟨_, hrun, hverdict⟩ hne hmore

/-- A job that failed is replaced, one is said to be a success in the end, one is cancelled, and then
one fails. -/
theorem conclusion_of_history_cancelled :
    let result : RunResult := .complete .epoch .epoch
    let built := start "/ghx" {} {} ∅ ∅ (.inMemory ∅)
    let begun := (built.startWorkflow { conclusion := .neutral }).session
    let calls : List Call := [
      .startJob { job := { id := "lint" }, conclusion := .failure },
      .startJob { job := { id := "build" } }, .concludeJob .failure .failure ∅,
      .concludeJob .success .failure ∅, .retireJob result,
      .startJob { job := { id := "test" }, conclusion := .cancelled }, .retireJob result,
      .startJob { job := { id := "lint" } }, .concludeJob .failure .failure ∅, .retireJob result]
    (∀ c ∈ calls, c.staysInWorkflow = true) ∧
      (begun.performAll calls).Concluded .cancelled := by
  intro result built begun calls
  have hcalls : ∀ c ∈ calls, c.staysInWorkflow = true := by decide
  obtain ⟨⟨run, hrun, hconclusion, -⟩, -⟩ := conclusion_of_history _ _ calls hcalls
  exact ⟨hcalls, run, hrun, hconclusion.trans (by decide +kernel)⟩

end Session

end WorkflowRuns
