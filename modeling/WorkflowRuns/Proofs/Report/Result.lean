import WorkflowRuns.Proofs.Time.Instant
import WorkflowRuns.Proofs.Workflow.Codec
import WorkflowRuns.Report.Result

/-!
# What a report holds of a result

A report is an object with two members, the result and the record (`report_eq`). The result tells
whether anything was run, the times in full and the error if there was one, and is read back as it
was (`RunResult.lossless`).
-/

namespace WorkflowRuns

open Json

theorem Instant.lossless : Lossless toJson ofJson? := by
  intro t
  rw [toJson, ofJson?, asString?, Option.bind_some, ofText?_text]

namespace RunResult

/-- What a report tells of a result, member by member. -/
def told (r : RunResult) : Json :=
  .object (("completed_at", .string r.completedAt.text) ::
    (r.error.map fun e => ("error", .string e)).toList ++ [
      ("ran", .bool r.ran),
      ("started_at", .string r.startedAt.text)])

theorem toJson_eq (r : RunResult) : r.toJson = r.told := by
  obtain ⟨ran, startedAt, completedAt, error⟩ := r
  cases error <;> rfl

theorem lossless : Lossless toJson ofJson? := by
  intro r
  simp [toJson, ofJson?, lossless_bool.required r.ran, Instant.lossless.required r.startedAt,
    Instant.lossless.required r.completedAt, text_optional r.error]

/-- What is told of a result is all there is to it. -/
theorem ofJson?_told (r : RunResult) : ofJson? r.told = some r := by
  rw [← toJson_eq, lossless r]

theorem isDatum_toJson (r : RunResult) : r.toJson.IsDatum := by
  refine isDatum_record ?_
  simp [Instant.toJson, isDatum_ofOption]

end RunResult

theorem report_eq (result : RunResult) (run : Json) :
    report result run = .object [("result", result.told), ("run", run)] := by
  rw [report, result.toJson_eq]

end WorkflowRuns
