import WorkflowRuns.Context.Github
import WorkflowRuns.Context.Job
import WorkflowRuns.Context.Runner
import WorkflowRuns.Context.Secrets
import WorkflowRuns.Proofs.Report.Result

/-!
# Contexts and settings are read back as they were written

The contexts that expressions see and the settings lose nothing in their JSON forms either. So every
form that something is kept in is a faithful one (`faithful_forms`): it holds whatever the values
are, down to the values of a matrix and what is told of an event, which may be any JSON.
-/

namespace WorkflowRuns

open Json

/-! ## Settings -/

theorem LogFormat.lossless : Lossless toJson ofJson? := by
  intro f
  cases f <;> rfl

theorem Settings.lossless : Lossless toJson ofJson? := by
  intro s
  simp [toJson, ofJson?, lossless_string.defaulted s.home, lossless_bool.defaulted s.debug,
    LogFormat.lossless.defaulted s.logFormat]

theorem Settings.isDatum_toJson (s : Settings) : s.toJson.IsDatum := by
  refine isDatum_record ?_
  simp [LogFormat.toJson]

/-! ## Contexts -/

namespace Context

theorem Github.lossless : Lossless toJson ofJson? := by
  intro g
  unfold toJson ofJson?
  generalize hfs : (_ :: _ : List Field) = fs
  have hget (name : String) := congrArg (fun fs => (members fs).get? name) hfs.symm
  simp only [get?_members_field, get?_members_nil] at hget
  rw [fields?_record, Option.bind_eq_bind, Option.bind_some]
  -- one field after the other; all at once is too much for so many
  repeat refine lossless_string.required_bind (by simp [hget]; rfl) ?_
  refine lossless_bool.required_bind (by simp [hget]; rfl) ?_
  repeat refine lossless_string.required_bind (by simp [hget]; rfl) ?_
  refine lossless_datum.required_bind (by simp [hget]; rfl) ?_
  repeat refine lossless_string.required_bind (by simp [hget]; rfl) ?_
  rfl

theorem Github.isDatum_toJson (g : Github) : g.toJson.IsDatum := by
  refine isDatum_record ?_
  simp [g.event.isDatum]

theorem Runner.lossless : Lossless toJson ofJson? := by
  intro r
  simp [toJson, ofJson?, lossless_string.required r.name, lossless_string.required r.os,
    lossless_string.required r.arch, lossless_string.required r.temp,
    lossless_string.required r.toolCache, lossless_string.required r.debug]

theorem Runner.isDatum_toJson (r : Runner) : r.toJson.IsDatum := by
  refine isDatum_record ?_
  simp

theorem Job.lossless : Lossless toJson ofJson? := by
  intro j
  simp [toJson, ofJson?, Conclusion.lossless.required j.status]

theorem Job.isDatum_toJson (j : Job) : j.toJson.IsDatum := by
  refine isDatum_record ?_
  simp [Conclusion.isDatum_toJson]

theorem Step.lossless : Lossless toJson ofJson? := by
  intro s
  simp [toJson, ofJson?, lossless_texts.required s.state, lossless_string.required s.summary,
    lossless_texts.required s.outputs, Conclusion.lossless.required s.outcome,
    Conclusion.lossless.required s.conclusion]

theorem Step.isDatum_toJson (s : Step) : s.toJson.IsDatum := by
  refine isDatum_record ?_
  simp [isDatum_ofTexts, Conclusion.isDatum_toJson]

theorem Need.lossless : Lossless toJson ofJson? := by
  intro n
  simp [toJson, ofJson?, Conclusion.lossless.required n.result, lossless_texts.required n.outputs]

theorem Need.isDatum_toJson (n : Need) : n.toJson.IsDatum := by
  refine isDatum_record ?_
  simp [isDatum_ofTexts, Conclusion.isDatum_toJson]

end Context

/-- **Every form is faithful.** Definitions, actions, runs, settings and contexts are written as
JSON values from which they are read back as they were; what was read of any value is read again
once it is written; and different things are written differently. -/
theorem faithful_forms :
    Faithful Workflow.toJson Workflow.ofJson? ∧
    Faithful Job.toJson Job.ofJson? ∧
    Faithful Step.toJson Step.ofJson? ∧
    Faithful CustomAction.toJson CustomAction.ofJson? ∧
    Faithful ActionMeta.toJson ActionMeta.ofJson? ∧
    Faithful ActionInput.toJson ActionInput.ofJson? ∧
    Faithful ActionOutput.toJson ActionOutput.ofJson? ∧
    Faithful ActionRuns.toJson ActionRuns.ofJson? ∧
    Faithful WorkflowRun.toJson WorkflowRun.ofJson? ∧
    Faithful JobRun.toJson JobRun.ofJson? ∧
    Faithful StepRun.toJson StepRun.ofJson? ∧
    Faithful Settings.toJson Settings.ofJson? ∧
    Faithful Context.Github.toJson Context.Github.ofJson? ∧
    Faithful Context.Runner.toJson Context.Runner.ofJson? ∧
    Faithful Context.Job.toJson Context.Job.ofJson? ∧
    Faithful Context.Needs.toJson Context.Needs.ofJson? ∧
    Faithful Matrix.toJson Matrix.ofJson? ∧
    Faithful Context.Steps.toJson Context.Steps.ofJson? ∧
    -- the `secrets` and the `inputs` context
    Faithful (α := Context.Secrets) ofTexts asTexts? ∧
    Faithful (α := Context.Inputs) ofTexts asTexts? := by
  refine ⟨?_, ?_, ?_, ?_, ?_, ?_, ?_, ?_, ?_, ?_, ?_, ?_, ?_, ?_, ?_, ?_, ?_, ?_, ?_, ?_⟩
  -- definitions
  · exact Workflow.lossless.faithful Workflow.isDatum_toJson
  · exact Job.lossless.faithful Job.isDatum_toJson
  · exact Step.lossless.faithful Step.isDatum_toJson
  -- actions
  · exact CustomAction.lossless.faithful CustomAction.isDatum_toJson
  · exact ActionMeta.lossless.faithful ActionMeta.isDatum_toJson
  · exact ActionInput.lossless.faithful ActionInput.isDatum_toJson
  · exact ActionOutput.lossless.faithful ActionOutput.isDatum_toJson
  · exact ActionRuns.lossless.faithful ActionRuns.isDatum_toJson
  -- runs
  · exact WorkflowRun.lossless.faithful WorkflowRun.isDatum_toJson
  · exact JobRun.lossless.faithful JobRun.isDatum_toJson
  · exact StepRun.lossless.faithful StepRun.isDatum_toJson
  -- settings
  · exact Settings.lossless.faithful Settings.isDatum_toJson
  -- contexts
  · exact Context.Github.lossless.faithful Context.Github.isDatum_toJson
  · exact Context.Runner.lossless.faithful Context.Runner.isDatum_toJson
  · exact Context.Job.lossless.faithful Context.Job.isDatum_toJson
  · exact Context.Need.lossless.ofDict.faithful (isDatum_ofDict Context.Need.isDatum_toJson)
  · exact Matrix.lossless.faithful Matrix.isDatum_toJson
  · exact Context.Step.lossless.ofDict.faithful (isDatum_ofDict Context.Step.isDatum_toJson)
  · exact lossless_texts.faithful isDatum_ofTexts
  · exact lossless_texts.faithful isDatum_ofTexts

/-- So is the form in which a report holds the result of a run, whose times are written as texts. -/
theorem RunResult.faithful : Faithful RunResult.toJson RunResult.ofJson? :=
  RunResult.lossless.faithful RunResult.isDatum_toJson

end WorkflowRuns
