import WorkflowRuns.Files.Operations

/-!
# Artifacts

What is kept of a run when it ends: reports, summaries and the source of the workflow. Artifacts
go to files, or to a shelf in memory that holds them in the order in which they came.
-/

namespace WorkflowRuns

/-- Something to keep at a path. -/
inductive Artifact where
  /-- A JSON document. -/
  | document (path : String) (value : Json)
  /-- Bytes. -/
  | bytes (path : String) (content : ByteArray)
  /-- A copy of a file. -/
  | copy (source target : String)

namespace Artifact

/-- The path at which an artifact is kept. -/
def target : Artifact → String
  | document path _ => path
  | bytes path _ => path
  | copy _ target => target

/-- The artifacts that are kept under a file name, in whichever directory. -/
def named (name : String) (artifacts : List Artifact) : List Artifact :=
  artifacts.filter fun a => Path.fileName? a.target = some name

end Artifact

/-- Keeps an artifact in a file. -/
def Disk.keep (d : Disk) : Artifact → Except Failure Unit × Disk
  | .document path value => d.saveJson path value
  | .bytes path content => d.writePrivate path content
  | .copy source target => d.copyFile source target

end WorkflowRuns
