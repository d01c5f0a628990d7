import WorkflowRuns.Failure
import WorkflowRuns.Json.Printer
import WorkflowRuns.Json.Reader

/-!
# Keeping things in files

Saving, loading and copying. Whatever writes a file first makes the directories above it; they stay
when the file itself cannot be written. Apart from that an operation that fails leaves all files as
they were.
-/

namespace WorkflowRuns.Disk

/-- The result of a step that changes the disk or is refused, as part of an activity. -/
def attempt (context : String) (d : Disk) (r : Except OsError Disk) : Except Failure Unit × Disk :=
  match r with
  | .ok d => (.ok (), d)
  | .error e => (.error ⟨[context], .os e⟩, d)

/-- Makes the directories above a path. -/
def makeParent (d : Disk) (path : String) : Except Failure Unit × Disk :=
  match Path.parent? path with
  | none => (.ok (), d)
  | some above =>
    match d.makeDirectories above (above.length + 1) with
    | (.ok (), d) => (.ok (), d)
    | (.error e, d) => (.error ⟨[s!"Failed to create directory '{above}'"], .os e⟩, d)

/-- Does something after the directories above a path have been made. -/
def withParent (d : Disk) (path : String) (act : Disk → Except Failure Unit × Disk) :
    Except Failure Unit × Disk :=
  match d.makeParent path with
  | (.ok (), d) => act d
  | (.error e, d) => (.error e, d)

/-- Saves a JSON value. -/
def saveJson (d : Disk) (path : String) (j : Json) : Except Failure Unit × Disk :=
  d.withParent path fun d =>
    attempt s!"Failed to write object to '{path}'" d (d.write path j.pretty.toUTF8)

/-- Writes a file that only its owner may read and write. -/
def writePrivate (d : Disk) (path : String) (content : ByteArray) : Except Failure Unit × Disk :=
  d.withParent path fun d =>
    attempt s!"Failed to write file '{path}'" d
      ((d.openToWrite path).map fun p => d.put p (.file content true))

/-- Copies a file. -/
def copyFile (d : Disk) (source target : String) : Except Failure Unit × Disk :=
  d.withParent target fun d =>
    attempt s!"Failed to copy '{source}' to '{target}'" d (d.copy source target)

/-- Makes a file with the given content if there is nothing. -/
def ensureFile (d : Disk) (path : String) (content : String) : Except Failure Unit × Disk :=
  if d.exists? path then (.ok (), d)
  else
    d.withParent path fun d =>
      attempt s!"Failed to create file '{path}'" d (d.write path content.toUTF8)

/-- Removes a file if there is one. -/
def deleteFile (d : Disk) (path : String) : Except Failure Unit × Disk :=
  if d.exists? path then attempt s!"Failed to delete file '{path}'" d (d.delete path)
  else (.ok (), d)

/-- Reads a file that holds text. -/
def readText (d : Disk) (path : String) : Except Cause String :=
  match d.read path with
  | .error e => .error (.os e)
  | .ok content =>
    match String.fromUTF8? content with
    | some text => .ok text
    | none => .error .notUtf8

/-- Reads a file that holds text; one that is not there has none. -/
def readTextIfAny (d : Disk) (path : String) : Except Failure String :=
  match d.readText path with
  | .ok text => .ok text
  | .error (.os .notFound) => .ok ""
  | .error e => .error ⟨[s!"Failed to read file '{path}'"], e⟩

/-- Loads a JSON value of a form. -/
def loadJson {α : Type} (d : Disk) (path : String) (read : Json → Option α) : Except Failure α :=
  match d.readText path with
  | .error e => .error ⟨[s!"Failed to read file '{path}'"], e⟩
  | .ok text =>
    match (Json.parse? text).bind read with
    | some a => .ok a
    | none => .error ⟨[s!"Failed to deserialize JSON from '{path}'"], .json⟩

end WorkflowRuns.Disk
