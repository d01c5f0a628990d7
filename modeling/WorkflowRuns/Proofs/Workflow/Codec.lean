import WorkflowRuns.Proofs.Json.Codec
import WorkflowRuns.Workflow.Action
import WorkflowRuns.Workflow.Run

/-!
# Definitions and runs are read back as they were written

Nothing of a run is lost in its JSON form, whatever its fields hold: the definition of the workflow,
the runs of its jobs and steps, outputs, summaries and the values of a matrix. Nor is anything of an
action. A field of a definition is left out only when it holds what reading takes for a field that
is missing.
-/

namespace WorkflowRuns

open Json

theorem Conclusion.lossless : Lossless toJson ofJson? := ofName?_name

theorem StepStage.lossless : Lossless toJson ofJson? := by
  intro s
  cases s <;> rfl

theorem Matrix.lossless : Lossless toJson ofJson? := lossless_datum.ofDict

/-! ## Definitions -/

section Unless

variable {fs : List Field} {name : String}

/-- A text that is left out if it is empty. -/
theorem text_defaulted (text : String)
    (hname : (members fs).get? name = if text = "" then none else some (.string text)) :
    defaulted? (members fs).entries name asString? "" = some text := by
  refine lossless_string.defaulted_unless (text = "") text ?_ of_decide_eq_true
  rw [hname]
  by_cases h : text = "" <;> simp [h]

/-- Texts that are left out if there are none. -/
theorem texts_defaulted (d : Variables)
    (hname : (members fs).get? name = if d.isEmpty = false then some (ofTexts d) else none) :
    defaulted? (members fs).entries name asTexts? ∅ = some d := by
  refine lossless_texts.defaulted_unless d.isEmpty d hname fun h => ?_
  obtain ⟨entries, sorted⟩ := d
  obtain rfl : entries = [] := List.isEmpty_iff.1 h
  rfl

end Unless

theorem Step.lossless : Lossless toJson ofJson? := by
  intro s
  simp [toJson, ofJson?, lossless_string.defaulted s.id, text_defaulted s.condition,
    text_defaulted s.name, text_defaulted s.uses, lossless_texts.defaulted s.environment,
    texts_defaulted s.arguments, text_defaulted s.script, text_defaulted s.shell,
    text_defaulted s.workingDirectory, lossless_bool.defaulted s.continueOnError,
    lossless_uint32.defaulted_unless (s.timeoutMinutes = 0) s.timeoutMinutes]

theorem Job.lossless : Lossless toJson ofJson? := by
  intro j
  simp [toJson, ofJson?, lossless_string.defaulted j.id, text_defaulted j.name,
    lossless_texts.defaulted j.environment, lossless_string.ofList.defaulted j.needs,
    texts_defaulted j.outputs, Step.lossless.ofList.defaulted j.steps]

theorem Workflow.lossless : Lossless toJson ofJson? := by
  intro w
  simp [toJson, ofJson?, lossless_string.defaulted w.path, lossless_string.defaulted w.name,
    lossless_texts.defaulted w.environment, Job.lossless.ofDict.defaulted w.jobs]

/-! ## Runs -/

theorem StepRun.lossless : Lossless toJson ofJson? := by
  intro r
  simp [toJson, ofJson?, Step.lossless.required r.step, StepStage.lossless.required r.stage,
    Conclusion.lossless.required r.conclusion, Conclusion.lossless.required r.outcome,
    lossless_texts.required r.outputs, lossless_texts.required r.state,
    lossless_string.required r.summary, lossless_texts.required r.environment,
    lossless_string.ofList.required r.path]

theorem JobRun.lossless : Lossless toJson ofJson? := by
  intro r
  simp [toJson, ofJson?, Job.lossless.required r.job, Matrix.lossless.defaulted r.matrix,
    Conclusion.lossless.required r.conclusion, Conclusion.lossless.required r.outcome,
    lossless_texts.required r.outputs, StepRun.lossless.ofList.required r.steps]

theorem WorkflowRun.lossless : Lossless toJson ofJson? := by
  intro r
  simp [toJson, ofJson?, lossless_string.required r.runId, lossless_string.required r.runNumber,
    lossless_string.required r.runAttempt, lossless_string.required r.retentionDays,
    Workflow.lossless.required r.workflow, Conclusion.lossless.required r.conclusion,
    JobRun.lossless.ofDict.required r.jobs]

/-! ## Actions -/

/-- A list of texts that is left out if there are none. -/
theorem list_defaulted {fs : List Field} {name : String} (l : List String)
    (hname : (members fs).get? name =
      if l.isEmpty = false then some (Json.ofList .string l) else none) :
    defaulted? (members fs).entries name (asList? asString?) [] = some l :=
  lossless_string.ofList.defaulted_unless l.isEmpty l hname List.isEmpty_iff.1

/-- A text that may be missing. -/
theorem text_optional {fs : List Field} {name : String} (text? : Option String)
    (hname : (members fs).get? name =
      if text?.isNone = false then some (ofOption .string text?) else none) :
    optional? (members fs).entries name asString? = some text? :=
  lossless_string.optional (fun _ => nofun) text? hname

theorem ActionInput.lossless : Lossless toJson ofJson? := by
  intro i
  simp [toJson, ofJson?, lossless_string.defaulted i.description,
    lossless_bool.defaulted i.required, text_optional i.default]

theorem ActionOutput.lossless : Lossless toJson ofJson? := by
  intro o
  simp [toJson, ofJson?, lossless_string.defaulted o.description, text_optional o.value]

theorem ActionRuns.lossless : Lossless toJson ofJson? := by
  intro r
  simp [toJson, ofJson?, lossless_string.defaulted r.engine, text_defaulted r.main,
    text_defaulted r.pre, text_defaulted r.post, text_defaulted r.image, list_defaulted r.args,
    texts_defaulted r.environment]

theorem ActionMeta.lossless : Lossless toJson ofJson? := by
  intro m
  simp [toJson, ofJson?, lossless_string.defaulted m.name, lossless_string.defaulted m.description,
    ActionInput.lossless.ofDict.defaulted m.inputs,
    ActionOutput.lossless.ofDict.defaulted m.outputs, ActionRuns.lossless.defaulted m.runs]

theorem CustomAction.lossless : Lossless toJson ofJson? := by
  intro a
  simp [toJson, ofJson?, lossless_string.required a.path, ActionMeta.lossless.required a.metadata]

/-! ## What is written is a value -/

theorem Conclusion.isDatum_toJson (c : Conclusion) : c.toJson.IsDatum := trivial

theorem StepStage.isDatum_toJson (s : StepStage) : s.toJson.IsDatum := trivial

theorem Matrix.isDatum_toJson (m : Matrix) : (toJson m).IsDatum := isDatum_ofDict Datum.isDatum m

theorem Step.isDatum_toJson (s : Step) : s.toJson.IsDatum := by
  refine isDatum_record ?_
  simp [isDatum_ofTexts]

theorem Job.isDatum_toJson (j : Job) : j.toJson.IsDatum := by
  refine isDatum_record ?_
  simp [isDatum_ofTexts, isDatum_ofList, Step.isDatum_toJson]

theorem Workflow.isDatum_toJson (w : Workflow) : w.toJson.IsDatum := by
  refine isDatum_record ?_
  simp [isDatum_ofTexts, isDatum_ofDict, Job.isDatum_toJson]

theorem StepRun.isDatum_toJson (r : StepRun) : r.toJson.IsDatum := by
  refine isDatum_record ?_
  simp [isDatum_ofTexts, isDatum_ofList, Step.isDatum_toJson, StepStage.isDatum_toJson,
    Conclusion.isDatum_toJson]

theorem JobRun.isDatum_toJson (r : JobRun) : r.toJson.IsDatum := by
  refine isDatum_record ?_
  simp [isDatum_ofTexts, isDatum_ofList, Job.isDatum_toJson, Matrix.isDatum_toJson,
    Conclusion.isDatum_toJson, StepRun.isDatum_toJson]

theorem WorkflowRun.isDatum_toJson (r : WorkflowRun) : r.toJson.IsDatum := by
  refine isDatum_record ?_
  simp [isDatum_ofDict, Workflow.isDatum_toJson, Conclusion.isDatum_toJson, JobRun.isDatum_toJson]

theorem ActionInput.isDatum_toJson (i : ActionInput) : i.toJson.IsDatum := by
  refine isDatum_record ?_
  simp [isDatum_ofOption]

theorem ActionOutput.isDatum_toJson (o : ActionOutput) : o.toJson.IsDatum := by
  refine isDatum_record ?_
  simp [isDatum_ofOption]

theorem ActionRuns.isDatum_toJson (r : ActionRuns) : r.toJson.IsDatum := by
  refine isDatum_record ?_
  simp [isDatum_ofTexts, isDatum_ofList]

theorem ActionMeta.isDatum_toJson (m : ActionMeta) : m.toJson.IsDatum := by
  refine isDatum_record ?_
  simp [isDatum_ofDict, ActionInput.isDatum_toJson, ActionOutput.isDatum_toJson,
    ActionRuns.isDatum_toJson]

theorem CustomAction.isDatum_toJson (a : CustomAction) : a.toJson.IsDatum := by
  refine isDatum_record ?_
  simp [ActionMeta.isDatum_toJson]

end WorkflowRuns
