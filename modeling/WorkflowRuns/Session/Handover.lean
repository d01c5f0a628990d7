import WorkflowRuns.EnvironmentFile.Files
import WorkflowRuns.Environment.Variables
import WorkflowRuns.Session.Step

/-!
# Taking over what a step wrote

What a step wrote to its four files is taken over file by file: variables, directories of the search
path, outputs, summary. A file is decoded before anything of it is taken over, so it is taken over
whole or not at all, and the first file that cannot be read or decoded ends the call.
-/

namespace WorkflowRuns.Session

open EnvironmentFile

/-- Records several things of the active step. -/
def writeAll (s : Session) (ws : List StepWrite) : Session :=
  { s with stepRun := s.stepRun.map fun step => ws.foldl StepRun.write step }

/-- What is logged of an entry. -/
def entryNotice (kind : String) (e : Entry) : Notice := logDetail s!"{kind}: {e.name}={e.value}"

/-- Takes over variables, for the step and for the processes started after it. -/
def takeVariables (s : Session) : List Entry → Outcome
  | [] => .done s []
  | e :: rest =>
    let notices := [entryNotice "GITHUB_ENV" e]
    match s.process.set? e.name e.value with
    | none => ⟨.aborted, s, notices⟩
    | some process =>
      let taken := { s with process := process }.writeAll [.environment e.name e.value]
      (takeVariables taken rest).after notices

/-- The name of the search path. -/
def pathName : String := "PATH"

/-- Takes over directories of the search path, for the step and for the processes started after
it. -/
def takePath (s : Session) (entries : List String) : Outcome :=
  if entries = [] then .done s []
  else
    let path := PathList.append ((s.process.get? pathName).getD "") entries
    match s.process.set? pathName path with
    | none => ⟨.aborted, s, []⟩
    | some process =>
      .done ({ s with process := process }.writeAll (entries.map .path))
        (entries.map fun entry => logDetail s!"GITHUB_PATH: {entry}")

/-- Takes over outputs. -/
def takeOutputs (s : Session) (entries : List Entry) : Outcome :=
  .done (s.writeAll (entries.map fun e => .output e.name e.value))
    (entries.map (entryNotice "GITHUB_OUTPUT"))

/-- Takes over the summary. -/
def takeSummary (s : Session) (text : String) : Outcome := .done (s.writeAll [.summary text]) []

/-- Takes over what was read and decoded, or fails because it could not be. -/
def takeFrom {α : Type} (s : Session) (file : String) (content : Except Failure α)
    (take : Session → α → Outcome) : Outcome :=
  match content with
  | .ok a => take s a
  | .error f => .refused s (f.during s!"Failed to process {file} file")

/-- Takes over what the active step wrote. -/
def takeOver (s : Session) (c : EnvironmentFiles.Contents) : Outcome :=
  if s.stepRun.isNone then .outOfScope s .noActiveStep
  else
    (s.takeFrom "env" (entriesOf c.env) takeVariables).andThen fun s =>
    (s.takeFrom "path" (linesOf c.path) takePath).andThen fun s =>
    (s.takeFrom "output" (entriesOf c.outputs) takeOutputs).andThen fun s =>
    s.takeFrom "step summary" c.summary takeSummary

end WorkflowRuns.Session
