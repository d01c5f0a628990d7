import WorkflowRuns.Proofs.Files.Saved
import WorkflowRuns.Proofs.Workflow.Codec

/-!
# Saved runs

The runs of workflows, jobs and steps, and maps of texts, are loaded as they were saved
(`saves_runs`). Their text lists the members of every object in the order of their names, so it does
not show in which order a map in them was filled.
-/

namespace WorkflowRuns

namespace Json

/-- Values of a form can be kept in files. -/
structure Saves {α : Type} (write : α → Json) (read : Json → Option α) : Prop where
  /-- What was saved is loaded, whatever texts are in it, if there are no numbers in it but integers
  that fit into 64 bits and no more containers are nested than can be read. -/
  loads : ∀ a, (write a).isIntegral = true → (write a).depth ≤ deepest →
    ∀ (d d' : Disk) (path : String), d.saveJson path (write a) = (.ok (), d') →
      d'.loadJson path read = .ok a
  /-- The text is that of a value that lists the members of every object in the order of their
  names. -/
  sorted : ∀ a, (write a).IsDatum
  /-- The text does not depend on the order in which a map in the value was filled. -/
  unordered : ∀ {β : Type} (build : Dict String β → α) (entries entries' : List (String × β)),
    entries.Perm entries' → (entries.map Prod.fst).Nodup →
      (write (build (.ofList entries))).pretty = (write (build (.ofList entries'))).pretty

theorem Lossless.saves {α : Type} {write : α → Json} {read : Json → Option α}
    (h : Lossless write read) (hdatum : ∀ a, (write a).IsDatum) : Saves write read where
  loads a hintegral hdepth _ _ _ hsaved :=
    Disk.loadJson_of_saveJson h ⟨hdatum a, hintegral, hdepth⟩ hsaved
  sorted := hdatum
  unordered build _ _ hperm hnodup := by
    rw [Dict.ofList, Dict.insertAll_eq_of_perm _ hperm hnodup, Dict.ofList]

end Json

open Json

/-- **What was saved is loaded.** A run of a workflow, of a job or of a step, or a map of texts,
that was saved to a path is loaded from there as it was, on every disk and with any texts in it. -/
theorem saves_runs :
    Saves WorkflowRun.toJson WorkflowRun.ofJson? ∧
    Saves JobRun.toJson JobRun.ofJson? ∧
    Saves StepRun.toJson StepRun.ofJson? ∧
    Saves ofTexts asTexts? := by
  refine ⟨?_, ?_, ?_, ?_⟩
  · exact WorkflowRun.lossless.saves WorkflowRun.isDatum_toJson
  · exact JobRun.lossless.saves JobRun.isDatum_toJson
  · exact StepRun.lossless.saves StepRun.isDatum_toJson
  · exact lossless_texts.saves isDatum_ofTexts

/-- Quotes, backslashes and control characters, in names of members too. -/
theorem saves_runs_control_characters :
    let step : StepRun := {
      step := { id := "say \"hi\"\n" }
      outputs := Dict.ofList [("\\u0041", "\x00\x1f\x7f"), ("é😀", "")] }
    let path := "runs/1/step_run.json"
    let saved := Disk.blank.saveJson path step.toJson
    step.toJson.isIntegral = true ∧ step.toJson.depth ≤ deepest ∧ saved.1 = .ok () ∧
      saved.2.loadJson path StepRun.ofJson? = .ok step := by
  intro step path saved
  have hintegral : step.toJson.isIntegral = true := by decide +kernel
  have hdepth : step.toJson.depth ≤ deepest := by decide +kernel
  have hok : saved.1 = .ok () := by
    have hisOk : saved.1.isOk = true := by decide +kernel
    cases hsaved : saved.1 with
    | ok u => rfl
    | error f =>
      rw [hsaved] at hisOk
      cases hisOk
  have hloaded := saves_runs.2.2.1.loads step hintegral hdepth .blank saved.2 path
    (Prod.ext hok rfl)
  exact ⟨hintegral, hdepth, hok, hloaded⟩

end WorkflowRuns
