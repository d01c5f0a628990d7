import Mathlib.Order.Nat
import WorkflowRuns.Proofs.Executor.Reports
import WorkflowRuns.Proofs.Files.Tasks
import WorkflowRuns.Proofs.Layout

/-!
# Where reports are kept

What is kept of a run has its place in the directory of the run. It is kept there if and only if the
identifiers of the run are ordinary: the identifiers `.` and `..` lead out of the directories that
are meant for them (`places_of_history`, `not_inside_dots`).
-/

namespace WorkflowRuns

open Layout

/-- The identifiers of the active runs: of the workflow, of the job and of the step. -/
def Session.activeIds (s : Session) : List String :=
  (s.workflowRun.map (·.runId)).toList ++ (s.jobRun.map (·.job.id)).toList ++
    (s.stepRun.map (·.step.id)).toList

theorem Session.length_activeIds_le (s : Session) : s.activeIds.length ≤ levels.length := by
  unfold activeIds
  cases s.workflowRun <;> cases s.jobRun <;> cases s.stepRun <;> simp [levels]

/-- Something is kept under a file name in the directory of an active run. -/
structure Filing.At (f : Filing) (s : Session) (ids : List String) (file : String) : Prop where
  active : ids <+: s.activeIds
  nonempty : ids ≠ []
  word : (f.what, file) ∈ Filing.words
  target : f.artifact.target = Path.join (nested s.home ids) file

theorem Filing.component_of_mem_words : ∀ w ∈ Filing.words, Path.Component w.2 := by decide

namespace Session

variable {s : Session} {f : Filing}

theorem at_of_active {run : WorkflowRun} {what file id : String} {ids : List String} {a : Artifact}
    (hactive : id :: ids <+: s.activeIds) (hword : (what, file) ∈ Filing.words)
    (ha : a.target = Path.join (nested s.home (id :: ids)) file) :
    ∃ ids file, (run.filing what a).At s ids file :=
  ⟨id :: ids, file, hactive, List.cons_ne_nil _ _, hword, ha⟩

/-- Whatever a call wants kept is kept in the directory of an active run. -/
theorem at_of_mem_filings {c : Call} (h : f ∈ s.filings c) : ∃ ids file, f.At s ids file := by
  cases c with
  | retireStep result =>
    simp only [filings] at h
    split at h
    · rename_i run job step hw hj hs
      have hactive : [run.runId, job.job.id, step.step.id] <+: s.activeIds := by
        simp [activeIds, hw, hj, hs]
      have hplace := stepRun_eq_nested s.home run.runId job.job.id step.step.id
      split at h
      · rcases List.mem_cons.1 h with rfl | h
        · exact at_of_active hactive (by decide) (congrArg (Path.join · "step_run.json") hplace)
        · obtain ⟨-, h⟩ := List.mem_ite_nil_left.1 h
          obtain rfl := List.mem_singleton.1 h
          exact at_of_active hactive (by decide) (congrArg (Path.join · "summary.md") hplace)
      · cases h
    · cases h
  | retireJob result =>
    simp only [filings] at h
    split at h
    · rename_i run job hw hj
      have hactive : [run.runId, job.job.id] <+: s.activeIds := by
        simp [activeIds, hw, hj]
      have hplace := jobRun_eq_nested s.home run.runId job.job.id
      obtain rfl := List.mem_singleton.1 h
      exact at_of_active hactive (by decide) (congrArg (Path.join · "job_run.json") hplace)
    · cases h
  | retireWorkflow result =>
    simp only [filings] at h
    split at h
    · rename_i run hw
      have hactive : [run.runId] <+: s.activeIds := by
        simp [activeIds, hw]
      have hplace := workflowRun_eq_nested s.home run.runId
      rcases List.mem_cons.1 h with rfl | h
      · exact at_of_active hactive (by decide)
          (congrArg (Path.join · "workflow_run.json") hplace)
      · obtain ⟨-, h⟩ := List.mem_ite_nil_left.1 h
        obtain rfl := List.mem_singleton.1 h
        exact at_of_active hactive (by decide) (congrArg (Path.join · "workflow.yaml") hplace)
    · cases h
  | _ => cases h

end Session

/-- What is kept in the directory of a run lies in the branch of the run if and only if the
identifiers of the run are ordinary. -/
theorem Filing.At.resolve_iff {f : Filing} {s : Session} {ids : List String} {file : String}
    (h : f.At s ids file) (here : Place) :
    Path.resolve here f.artifact.target = Path.resolve here s.home ++ branch ids ++ [file] ↔
      ∀ id ∈ ids, Ordinary id := by
  have hfile := Filing.component_of_mem_words _ h.word
  have hlength : ids.length ≤ levels.length :=
    h.active.length_le.trans s.length_activeIds_le
  rw [h.target, Path.resolve_join hfile.noSlash, hfile.descend, List.append_left_inj]
  exact resolve_nested_iff hlength here s.home

namespace Executor

/-- **Reports stay in the tree of runs, but for two identifiers.** An identifier becomes an ordinary
name unless it is `.` or `..`. Whatever is kept in a history is kept under a file name in the
directory of an active run, and its path leads into the branch that the identifiers of this run make
below the home, if and only if none of them is `.` or `..`. A disk that keeps it has a file where
the path leads. -/
theorem places_of_history (around : Executor) (home : String) (github : Context.Github)
    (runner : Context.Runner) (secrets : Context.Secrets) (inputs : Context.Inputs)
    (process : ProcessEnvironment) (ops : List Operation) (here : Place) :
    let e : Executor := { around with
      session := .start home github runner secrets inputs process }
    (∀ id, Path.Component (safeName id) ↔ id ≠ "." ∧ id ≠ "..") ∧
      ∀ v ∈ e.history ops, ∀ f ∈ v.operation.filings v.found, ∃ ids file,
        f.At v.found ids file ∧
        (Path.resolve here f.artifact.target = Path.resolve here home ++ branch ids ++ [file] ↔
          ∀ id ∈ ids, id ≠ "." ∧ id ≠ "..") ∧
        ∀ d d', Disk.keep d f.artifact = (.ok (), d') →
          d'.HasFile (Path.resolve [] f.artifact.target) := by
  intro e
  refine ⟨fun id => component_safeName_iff, ?_⟩
  refine forall_history (I := fun e => e.session.home = home) (fun e op hhome => ?_) rfl ops
  refine ⟨(e.home_operate op).trans hhome, fun f hf => ?_⟩
  cases op with
  | call c =>
    obtain ⟨ids, file, hat⟩ := Session.at_of_mem_filings hf
    have hplace := hat.resolve_iff here
    have hfound : (e.occurrence (.call c)).found.home = home := hhome
    rw [hfound] at hplace
    exact ⟨ids, file, hat, hplace, fun _ _ => Disk.hasFile_keep⟩
  | _ => cases hf

/-- A run leads out of the tree of runs, a job into the directory of its run, and a step into that
of its job. -/
theorem not_inside_dots :
    let result : RunResult := .complete .epoch .epoch
    let built := Session.start "/ghx" {} {} ∅ ∅ (.inMemory ∅)
    let kept (calls : List Call) (last : Call) : List Place :=
      ((built.performAll calls).filings last).map (Path.resolve [] ·.artifact.target)
    ¬ Path.Component (safeName "..") ∧
      kept [.startWorkflow (.start ".." { name := "CI" })] (.retireWorkflow result) =
        [["ghx", "workflow_run.json"]] ∧
      kept [.startWorkflow (.start "1" { name := "CI" }), .startJob { job := { id := ".." } }]
        (.retireJob result) = [["ghx", "runs", "1", "job_run.json"]] ∧
      kept [.startWorkflow (.start "1" { name := "CI" }), .startJob { job := { id := "build" } },
          .startStep { step := { id := ".." } }] (.retireStep result) =
        [["ghx", "runs", "1", "jobs", "build", "step_run.json"]] := by
  decide +kernel

end Executor

end WorkflowRuns
