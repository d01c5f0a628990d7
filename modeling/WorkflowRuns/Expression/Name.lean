/-!
# Names of variables in expressions

An expression refers to the contexts by thirteen names, which are case-sensitive.
-/

namespace WorkflowRuns.Expression

/-- The names that an expression can start with. -/
inductive Name where
  | github
  | runner
  | env
  | vars
  | job
  | steps
  | secrets
  | strategy
  | matrix
  | needs
  | inputs
  | infinity
  | nan
deriving DecidableEq

namespace Name

/-- All names. -/
def all : List Name :=
  [github, runner, env, vars, job, steps, secrets, strategy, matrix, needs, inputs, infinity, nan]

/-- The text of a name. -/
def text : Name → String
  | github => "github"
  | runner => "runner"
  | env => "env"
  | vars => "vars"
  | job => "job"
  | steps => "steps"
  | secrets => "secrets"
  | strategy => "strategy"
  | matrix => "matrix"
  | needs => "needs"
  | inputs => "inputs"
  | infinity => "infinity"
  | nan => "nan"

/-- The name of a text. -/
def ofText? (text : String) : Option Name := all.find? (·.text = text)

/-- What is said of a text that is no name. -/
def unknownMessage (text : String) : String := s!"unknown variable: {text}"

end Name

end WorkflowRuns.Expression
