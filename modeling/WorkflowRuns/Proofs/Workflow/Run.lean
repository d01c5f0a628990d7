import WorkflowRuns.Workflow.Run

/-!
# Laws of runs

What is recorded of a step, a job and a workflow. Of what is written of a step the last of each kind
counts (`StepRun.Wrote`); what is registered of a job and how it ended touch the record of the
workflow in its jobs and its conclusion only (`WorkflowRun.SameRun`).
-/

namespace WorkflowRuns

/-! ## The last of many -/

section Latest

variable {α β γ : Type}

/-- The last thing that `f` finds in a list. -/
def latest (f : α → Option β) (l : List α) : Option β := l.reverse.findSome? f

@[simp] theorem latest_nil (f : α → Option β) : latest f [] = none := rfl

theorem latest_append (f : α → Option β) (l l' : List α) :
    latest f (l ++ l') = (latest f l').or (latest f l) := by
  unfold latest
  rw [List.reverse_append, List.findSome?_append]

theorem latest_cons (f : α → Option β) (a : α) (l : List α) :
    latest f (a :: l) = (latest f l).or (f a) := by
  have h : latest f [a] = f a := by
    unfold latest
    cases h : f a <;> simp [h]
  rw [← h]
  exact latest_append f [a] l

theorem latest_map (f : β → Option γ) (g : α → β) (l : List α) :
    latest f (l.map g) = latest (fun a => f (g a)) l := by
  unfold latest
  rw [← List.map_reverse, List.findSome?_map]
  rfl

/-- Who looks for nothing finds nothing. -/
@[simp] theorem latest_none (l : List α) : latest (fun _ => (none : Option β)) l = none :=
  List.findSome?_eq_none_iff.2 fun _ _ => rfl

end Latest

/-! ## What is written of a step -/

namespace StepWrite

/-- The value that is written for an output. -/
def output? (name : String) : StepWrite → Option String
  | .output n value => if name = n then some value else none
  | _ => none

/-- The value that is saved for the later stages. -/
def state? (name : String) : StepWrite → Option String
  | .state n value => if name = n then some value else none
  | _ => none

/-- The value that is written for a variable. -/
def environment? (name : String) : StepWrite → Option String
  | .environment n value => if name = n then some value else none
  | _ => none

/-- The directory that is added to the search path. -/
def path? : StepWrite → Option String
  | .path entry => some entry
  | _ => none

/-- The summary that is written. -/
def summary? : StepWrite → Option String
  | .summary text => some text
  | _ => none

/-- The conclusion and the outcome that are written. -/
def results? : StepWrite → Option (Conclusion × Conclusion)
  | .results conclusion outcome => some (conclusion, outcome)
  | _ => none

end StepWrite

/-- The run of a step after writes: of each thing the last write counts, directories add up, and the
rest is untouched. -/
structure StepRun.Wrote (before : StepRun) (writes : List StepWrite) (after : StepRun) : Prop where
  step : after.step = before.step
  stage : after.stage = before.stage
  outputs : ∀ name, after.outputs.get? name =
    (latest (StepWrite.output? name) writes).or (before.outputs.get? name)
  state : ∀ name, after.state.get? name =
    (latest (StepWrite.state? name) writes).or (before.state.get? name)
  environment : ∀ name, after.environment.get? name =
    (latest (StepWrite.environment? name) writes).or (before.environment.get? name)
  path : after.path = before.path ++ writes.filterMap StepWrite.path?
  summary : after.summary = (latest StepWrite.summary? writes).getD before.summary
  results : (after.conclusion, after.outcome) =
    (latest StepWrite.results? writes).getD (before.conclusion, before.outcome)

namespace StepRun

/-- One write comes before all the others. -/
theorem Wrote.cons {before after : StepRun} {w : StepWrite} {writes : List StepWrite}
    (h : (before.write w).Wrote writes after) : before.Wrote (w :: writes) after where
  step := h.step.trans (by cases w <;> rfl)
  stage := h.stage.trans (by cases w <;> rfl)
  outputs name := by
    rw [h.outputs, latest_cons, Option.or_assoc]
    cases w with
    | output n value =>
      simp only [write, StepWrite.output?, Dict.get?_insert]
      by_cases hn : name = n <;> simp [hn]
    | _ => rfl
  state name := by
    rw [h.state, latest_cons, Option.or_assoc]
    cases w with
    | state n value =>
      simp only [write, StepWrite.state?, Dict.get?_insert]
      by_cases hn : name = n <;> simp [hn]
    | _ => rfl
  environment name := by
    rw [h.environment, latest_cons, Option.or_assoc]
    cases w with
    | environment n value =>
      simp only [write, StepWrite.environment?, Dict.get?_insert]
      by_cases hn : name = n <;> simp [hn]
    | _ => rfl
  path := by
    rw [h.path]
    cases w with
    | path entry => simp [write, StepWrite.path?]
    | _ => rfl
  summary := by
    rw [h.summary, latest_cons]
    cases latest StepWrite.summary? writes <;> cases w <;> rfl
  results := by
    rw [h.results, latest_cons]
    cases latest StepWrite.results? writes <;> cases w <;> rfl

/-- What is written one after the other. -/
theorem wrote_foldl (before : StepRun) (writes : List StepWrite) :
    before.Wrote writes (writes.foldl write before) := by
  induction writes generalizing before with
  | nil => exact ⟨rfl, rfl, fun _ => rfl, fun _ => rfl, fun _ => rfl, by simp, rfl, rfl⟩
  | cons w writes ih => exact (ih (before.write w)).cons

end StepRun

/-! ## Jobs and workflows -/

/-- The record of a job with how it ended. -/
def JobRun.concluded (job : JobRun) (conclusion outcome : Conclusion) (outputs : Variables) :
    JobRun :=
  { job with conclusion := conclusion, outcome := outcome, outputs := outputs }

/-- The record of a job with one more step that ended. -/
def JobRun.withStep (job : JobRun) (step : StepRun) : JobRun :=
  { job with steps := job.steps ++ [step] }

/-- How a job ended. -/
structure JobResults where
  /-- What the outcome counts as. -/
  conclusion : Conclusion
  /-- How it ended. -/
  outcome : Conclusion
  /-- The outputs that it gave. -/
  outputs : Variables

/-- The run of a job with its last results, if there are any. -/
def JobRun.withResults (job : JobRun) : Option JobResults → JobRun
  | none => job
  | some r => job.concluded r.conclusion r.outcome r.outputs

theorem JobRun.withResults_or (job : JobRun) (later earlier : Option JobResults) :
    job.withResults (later.or earlier) = (job.withResults earlier).withResults later := by
  cases later <;> cases earlier <;> rfl

@[simp] theorem JobRun.withResults_steps (job : JobRun) (results : Option JobResults) :
    (job.withResults results).steps = job.steps := by
  cases results <;> rfl

@[simp] theorem JobRun.withResults_job (job : JobRun) (results : Option JobResults) :
    (job.withResults results).job = job.job := by
  cases results <;> rfl

theorem JobRun.withResults_conclusion (job : JobRun) (results : Option JobResults) :
    (job.withResults results).conclusion = (results.map (·.conclusion)).getD job.conclusion := by
  cases results <;> rfl

namespace WorkflowRun

@[simp] theorem register_jobs (w : WorkflowRun) (job : JobRun) :
    (w.register job).jobs = w.jobs.insert job.job.id job := rfl

@[simp] theorem conclude_jobs (w : WorkflowRun) (c : Conclusion) :
    (w.conclude c).jobs = w.jobs := by
  unfold conclude
  split <;> rfl

/-- The records differ at most in their conclusion and their jobs. -/
def SameRun (w w' : WorkflowRun) : Prop :=
  w' = { w with conclusion := w'.conclusion, jobs := w'.jobs }

theorem sameRun_register (w : WorkflowRun) (job : JobRun) : w.SameRun (w.register job) := rfl

theorem sameRun_conclude (w : WorkflowRun) (c : Conclusion) : w.SameRun (w.conclude c) := by
  unfold conclude
  split <;> rfl

theorem SameRun.trans {w w' w'' : WorkflowRun} (h : w.SameRun w') (h' : w'.SameRun w'') :
    w.SameRun w'' := by
  unfold SameRun at h h' ⊢
  rw [h', h]

end WorkflowRun

end WorkflowRuns
