import WorkflowRuns.Files.Path

/-!
# Where things are kept

Everything is kept below one directory, the home. Each run has a directory that is named after the
identifiers of the workflow run, the job and the step; characters that some file system does not
take in names are replaced.
-/

namespace WorkflowRuns

/-- The directories below the home, and the home itself. -/
inductive Directory where
  | home
  | runs
  | secrets
  | inputs
  | temp
deriving DecidableEq

namespace Layout

/-- Where a directory is. -/
def directory (home : String) : Directory → String
  | .home => home
  | .runs => Path.join home "runs"
  | .secrets => Path.join home "secrets"
  | .inputs => Path.join home "inputs"
  | .temp => Path.join home "tmp"

/-- Where the secrets are. -/
def secretsFile (home : String) : String := Path.join (directory home .secrets) "secrets.json"

/-- Where the inputs are. -/
def inputsFile (home : String) : String := Path.join (directory home .inputs) "inputs.json"

/-- The printable characters that are not taken in names. -/
def unsafeChars : List Char := ['<', '>', ':', '"', '/', '\\', '|', '?', '*']

/-- Whether a character is taken in names. -/
def isSafe (c : Char) : Bool := !(unsafeChars.contains c || c.toNat < 0x20)

/-- An identifier as a name for a directory. -/
def safeName (id : String) : String :=
  if id = "" then "_" else String.ofList (id.toList.map fun c => if isSafe c then c else '_')

/-- The directory of a workflow run. -/
def workflowRun (home runId : String) : String :=
  Path.join (directory home .runs) (safeName runId)

/-- The directory of a job run. -/
def jobRun (home runId jobId : String) : String :=
  Path.join (Path.join (workflowRun home runId) "jobs") (safeName jobId)

/-- The directory of a step run. -/
def stepRun (home runId jobId stepId : String) : String :=
  Path.join (Path.join (jobRun home runId jobId) "steps") (safeName stepId)

end Layout

end WorkflowRuns
