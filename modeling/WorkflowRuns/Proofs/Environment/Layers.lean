import Mathlib.Data.List.Induction
import WorkflowRuns.Session.Basic

/-!
# What the layers of variables define

Putting layers over one another is pinned down by its look-ups: the uppermost layer that has a name
decides. For the three layers of a session this is `Session.get?_effective`.
-/

namespace WorkflowRuns

namespace Variables

/-- A name has the value of the layer above, and else the one below. -/
theorem get?_overlay (below above : Variables) (k : String) :
    (overlay below above).get? k = (above.get? k).or (below.get? k) := by
  unfold overlay
  rw [Dict.get?_insertAll, Dict.find?_reverse_entries]

/-- One more layer goes over all the others. -/
theorem layered_concat (layers : List Variables) (above : Variables) :
    layered (layers ++ [above]) = overlay (layered layers) above := by
  unfold layered
  rw [List.foldl_append]
  rfl

/-- **The uppermost layer with a name decides.** -/
theorem get?_layered (layers : List Variables) (k : String) :
    (layered layers).get? k = layers.reverse.findSome? (·.get? k) := by
  induction layers using List.reverseRecOn with
  | nil => rfl
  | append_singleton layers above ih =>
    rw [layered_concat, get?_overlay, ih, List.reverse_concat, List.findSome?_cons]
    cases above.get? k <;> rfl

end Variables

/-- The variables in force are those of the step, then those of the job, then those of the
workflow. -/
theorem Session.get?_effective (workflow : Option WorkflowRun) (job : Option JobRun)
    (step : Option StepRun) (k : String) :
    (effective workflow job step).get? k =
      (step.bind (·.step.environment.get? k)).or
        ((job.bind (·.job.environment.get? k)).or
          (workflow.bind (·.workflow.environment.get? k))) := by
  have h {ρ : Type} (run : Option ρ) (f : ρ → Variables) :
      ((run.map f).getD ∅).get? k = run.bind fun r => (f r).get? k := by cases run <;> rfl
  unfold effective
  rw [Variables.get?_layered]
  simp only [List.reverse_cons, List.reverse_nil, List.nil_append, List.cons_append,
    List.findSome?_cons, List.findSome?_nil, h]
  cases step.bind (·.step.environment.get? k) with
  | some v => rfl
  | none => cases job.bind (·.job.environment.get? k) with
    | some v => rfl
    | none => cases workflow.bind (·.workflow.environment.get? k) <;> rfl

end WorkflowRuns
