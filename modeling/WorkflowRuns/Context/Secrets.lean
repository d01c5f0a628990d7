import WorkflowRuns.Files.Operations
import WorkflowRuns.Json.Record
import WorkflowRuns.Environment.Variables
import WorkflowRuns.Text.Printable

/-!
# The `secrets` and `inputs` contexts

Both map names to texts and are kept in a file each. A file that is missing is made, and holds
nothing. What is shown of secrets are their names, never their values.
-/

namespace WorkflowRuns.Context

/-- The `inputs` context: the inputs of the workflow by name. -/
abbrev Inputs := Variables

/-- The `secrets` context: the secrets by name. -/
abbrev Secrets := Variables

/-- Loads texts by name from a file, and makes the file if there is none. `what` says what the texts
are. -/
def loadTexts (d : Disk) (what path : String) : Except Failure Variables × Disk :=
  match d.ensureFile path "\x7b\x7d" with
  | (.error f, d) => (.error (f.during s!"Failed to ensure {what} file '{path}' exists"), d)
  | (.ok (), d) =>
    (Failure.whileDoing s!"Failed to read {what} file '{path}'" (d.loadJson path Json.asTexts?), d)

/-- Loads the inputs. -/
def Inputs.load (d : Disk) (path : String) : Except Failure Inputs × Disk :=
  loadTexts d "inputs" path

namespace Secrets

/-- Loads the secrets. -/
def load (d : Disk) (path : String) : Except Failure Secrets × Disk := loadTexts d "secrets" path

/-- The secret that holds the access token. -/
def tokenName : String := "GITHUB_TOKEN"

/-- Makes the access token a secret. -/
def setToken (secrets : Secrets) (token : String) : Secrets := secrets.insert tokenName token

/-- What is shown of the secrets. -/
def shown (secrets : Secrets) : String :=
  let names := ", ".intercalate (secrets.keys.map Text.quoted)
  "SecretsContext \x7b names: [" ++ names ++ "] \x7d"

end Secrets

end WorkflowRuns.Context
