import WorkflowRuns.EnvironmentFile.Entry
import WorkflowRuns.Files.Operations
import WorkflowRuns.Trace

/-!
# The environment files of a step

A step is handed four files and writes to them what it wants to tell: variables, directories of the
search path, outputs and a summary.
-/

namespace WorkflowRuns

/-- The paths of the four files. -/
structure EnvironmentFiles where
  /-- The file for variables. -/
  env : String
  /-- The file for directories of the search path. -/
  path : String
  /-- The file for outputs. -/
  outputs : String
  /-- The file for the summary. -/
  summary : String
deriving DecidableEq

/-- What each of the four files holds, or why it cannot be read. -/
structure EnvironmentFiles.Contents where
  env : Except Failure String
  path : Except Failure String
  outputs : Except Failure String
  summary : Except Failure String

namespace EnvironmentFile

/-- The entries of a file that has been read. -/
def entriesOf (content : Except Failure String) : Except Failure (List Entry) :=
  content.bind fun text => (entries text).mapError fun e => ⟨[], .entry e⟩

/-- The lines of a file that has been read. -/
def linesOf (content : Except Failure String) : Except Failure (List String) :=
  content.map plainLines

end EnvironmentFile

namespace EnvironmentFiles

/-- The four paths, in a fixed order. -/
def paths (f : EnvironmentFiles) : List String := [f.env, f.path, f.outputs, f.summary]

/-- The variables that tell a step where its files are. -/
def exports (f : EnvironmentFiles) : List (String × String) := [
  ("GITHUB_ENV", f.env),
  ("GITHUB_PATH", f.path),
  ("GITHUB_OUTPUT", f.outputs),
  ("GITHUB_STEP_SUMMARY", f.summary)]

/-- Reads the files. One that is not there is empty. -/
def read (f : EnvironmentFiles) (d : Disk) : Contents where
  env := d.readTextIfAny f.env
  path := d.readTextIfAny f.path
  outputs := d.readTextIfAny f.outputs
  summary := d.readTextIfAny f.summary

/-- The four files in a directory. To keep them apart from others, each name ends in a token of its
own. -/
def inDirectory (directory : String) (token : String → String) : EnvironmentFiles :=
  let path name := Path.join directory s!"{name}_{token name}"
  ⟨path "env", path "path", path "output", path "step_summary"⟩

/-- Makes empty files, given with what each is for, up to the first that cannot be made. -/
def ensureAll (d : Disk) : List (String × String) → Except Failure Unit × Disk
  | [] => (.ok (), d)
  | (name, path) :: rest =>
    match d.ensureFile path "" with
    | (.ok (), d) => ensureAll d rest
    | (.error f, d) => (.error (f.during s!"Failed to create {name} file"), d)

/-- Makes the four files in a directory. -/
def create (d : Disk) (directory : String) (token : String → String) :
    Except Failure EnvironmentFiles × Disk :=
  let files := inDirectory directory token
  let (result, d) := ensureAll d [("env", files.env), ("path", files.path),
    ("output", files.outputs), ("step_summary", files.summary)]
  (result.map fun _ => files, d)

/-- Removes files, and gives a warning for each one that cannot be removed. -/
def removeAll (d : Disk) : List String → List TraceMessage × Disk
  | [] => ([], d)
  | path :: rest =>
    match d.deleteFile path with
    | (.ok (), d) => removeAll d rest
    | (.error f, d) =>
      let (warnings, d) := removeAll d rest
      (⟨.warning, f.message⟩ :: warnings, d)

/-- Removes the four files. -/
def cleanUp (f : EnvironmentFiles) (d : Disk) : List TraceMessage × Disk := removeAll d f.paths

end EnvironmentFiles

end WorkflowRuns
