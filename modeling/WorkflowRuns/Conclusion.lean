import WorkflowRuns.Text.Basic

/-!
# Conclusions

How a job or a step ended. The *outcome* is what happened; the *conclusion* is what counts after
`continue-on-error` has been applied to it.
-/

namespace WorkflowRuns

/-- How a run of a workflow, a job or a step ended. -/
inductive Conclusion where
  | success
  | failure
  | cancelled
  | skipped
  | neutral
deriving DecidableEq, Inhabited

namespace Conclusion

/-- What an outcome counts as: a tolerated failure is a success. -/
def resolve (outcome : Conclusion) (continueOnError : Bool) : Conclusion :=
  match outcome, continueOnError with
  | failure, true => success
  | other, _ => other

/-- Whether this is the conclusion `success`. -/
def isSuccess (c : Conclusion) : Bool := c = success

/-- The word for a conclusion. -/
def name : Conclusion → String
  | success => "success"
  | failure => "failure"
  | cancelled => "cancelled"
  | skipped => "skipped"
  | neutral => "neutral"

/-- The conclusion of a word, which has to be in small letters. -/
def ofName? : String → Option Conclusion
  | "success" => some success
  | "failure" => some failure
  | "cancelled" => some cancelled
  | "skipped" => some skipped
  | "neutral" => some neutral
  | _ => none

/-- The conclusion of a word in either case. -/
def ofText? (text : String) : Option Conclusion := ofName? (String.ofList (Text.lower text.toList))

/-- What is said of a text that names no conclusion. -/
def unknownMessage (text : String) : String := s!"unknown conclusion: {text}"

@[simp] theorem ofName?_name (c : Conclusion) : ofName? c.name = some c := by
  cases c <;> rfl

end Conclusion

end WorkflowRuns
