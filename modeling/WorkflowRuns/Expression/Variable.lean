import WorkflowRuns.Expression.Name
import WorkflowRuns.Session.Basic

/-!
# Variables in expressions

What an expression sees of a session. The variables of the process and of the organisation and the
strategy of the matrix are not known to a session, so their names stand for empty objects.
-/

namespace WorkflowRuns.Expression

/-- A number of an expression. -/
inductive Quantity where
  | finite (x : Binary64)
  | infinity
  | nan
deriving DecidableEq

/-- What a name stands for. -/
inductive Variable where
  /-- A JSON value. -/
  | value (j : Json)
  /-- A number that need not be one of JSON. -/
  | number (x : Quantity)

/-- The number that a variable is, if it is one. -/
def Variable.toQuantity? : Variable → Option Quantity
  | value j => j.asBinary64?.map .finite
  | number x => some x

/-- What a name stands for in a session. -/
def variableOf (s : Session) : Name → Variable
  | .github => .value s.github.toJson
  | .runner => .value s.runner.toJson
  | .job => .value s.job.toJson
  | .steps => .value s.steps.toJson
  | .secrets => .value (Json.ofTexts s.secrets)
  | .matrix => .value (Matrix.toJson s.matrix)
  | .needs => .value s.needs.toJson
  | .inputs => .value (Json.ofTexts s.inputs)
  | .env | .vars | .strategy => .value (.object [])
  | .infinity => .number .infinity
  | .nan => .number .nan

/-- What a text stands for in a session, if it is a name. -/
def lookUp? (s : Session) (text : String) : Option Variable :=
  (Name.ofText? text).map (variableOf s)

end WorkflowRuns.Expression
