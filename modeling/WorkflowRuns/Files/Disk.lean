import WorkflowRuns.Dict.Lemmas
import WorkflowRuns.Files.Path

/-!
# A tree of files

A `Disk` holds directories and files by their place, the list of names that leads to them from the
root. There are no links. The working directory is the root, so a path with a slash in front leads
where it leads without. What an operation refuses, and with which error, is what POSIX says.
-/

namespace WorkflowRuns

/-- Why the system refuses an operation on files. -/
inductive OsError where
  | notFound
  | alreadyExists
  | notADirectory
  | isADirectory
  | nameTooLong
  /-- The path has a NUL in it, so it is never handed to the system. -/
  | nulInPath
  /-- Only the content of a file can be copied. -/
  | notAFile
deriving DecidableEq

/-- What the system says of an error. -/
def OsError.message : OsError → String
  | notFound => "No such file or directory (os error 2)"
  | alreadyExists => "File exists (os error 17)"
  | notADirectory => "Not a directory (os error 20)"
  | isADirectory => "Is a directory (os error 21)"
  | nameTooLong => "File name too long (os error 36)"
  | nulInPath => "file name contained an unexpected NUL byte"
  | notAFile => "the source path is neither a regular file nor a symlink to a regular file"

/-- The names that lead to a place from the root. -/
abbrev Place := List String

/-- What there is at a place. -/
inductive Node where
  /-- A directory. -/
  | directory
  /-- A file with its content, and whether only its owner may read and write it. -/
  | file (content : ByteArray) (isPrivate : Bool)

instance : DecidableEq Node
  | .directory, .directory => isTrue rfl
  | .directory, .file .. => isFalse nofun
  | .file .., .directory => isFalse nofun
  | .file content isPrivate, .file content' isPrivate' =>
    decidable_of_iff (content.data = content'.data ∧ isPrivate = isPrivate') <| by
      rw [Node.file.injEq, ← ByteArray.ext_iff]

/-- Directories and files. -/
structure Disk where
  /-- What there is, by its place. The root is not listed. -/
  nodes : Dict Place Node
deriving DecidableEq

namespace Disk

/-- The disk on which there is nothing. -/
def blank : Disk := ⟨∅⟩

/-- What there is at a place. -/
def node? (d : Disk) (p : Place) : Option Node :=
  if p = [] then some .directory else d.nodes.get? p

/-- Puts something at a place. -/
def put (d : Disk) (p : Place) (n : Node) : Disk := ⟨d.nodes.insert p n⟩

/-- Takes away what is at a place. -/
def remove (d : Disk) (p : Place) : Disk := ⟨d.nodes.erase p⟩

/-! ## Following paths -/

/-- How many bytes a name may have. -/
def longestName : Nat := 255

/-- How many bytes a path may have. -/
def longestPath : Nat := 4095

/-- What a name leads to in a directory. -/
def child (d : Disk) (here : Place) (name : String) : Except OsError (Place × Node) :=
  if longestName < name.utf8ByteSize then .error .nameTooLong
  else match d.node? (here ++ [name]) with
    | none => .error .notFound
    | some n => .ok (here ++ [name], n)

/-- Follows names down and `..` up. Each has to lead to a directory. -/
def enter (d : Disk) (here : Place) : List String → Except OsError Place
  | [] => .ok here
  | s :: rest =>
    if s = "" ∨ s = "." then enter d here rest
    else if s = ".." then enter d here.dropLast rest
    else match d.child here s with
      | .error e => .error e
      | .ok (next, .directory) => enter d next rest
      | .ok (_, .file ..) => .error .notADirectory

/-- Where a path ends. -/
inductive Ending where
  /-- At a directory that was reached without a name of its own: the root, `.` or `..`. -/
  | here (directory : Place)
  /-- At a name in a directory, with a slash behind it or not. -/
  | name (directory : Place) (name : String) (slash : Bool)

/-- Follows a path up to its last name. -/
def follow (d : Disk) (path : String) : Except OsError Ending :=
  if path.toList.contains '\x00' then .error .nulInPath
  else if path = "" then .error .notFound
  else if longestPath < path.utf8ByteSize then .error .nameTooLong
  else
    let segments := (Path.split path.toList).map String.ofList
    let named := (segments.reverse.dropWhile (· = "")).reverse
    match named.getLast? with
    | none => .ok (.here [])
    | some last =>
      if last = "." ∨ last = ".." then (d.enter [] named).map .here
      else (d.enter [] named.dropLast).map fun directory =>
        .name directory last (named.length ≠ segments.length)

/-- The place that a path leads to, and what is there. -/
def find (d : Disk) (path : String) : Except OsError (Place × Node) :=
  match d.follow path with
  | .error e => .error e
  | .ok (.here directory) => .ok (directory, .directory)
  | .ok (.name directory name slash) =>
    match d.child directory name with
    | .error e => .error e
    | .ok (p, .directory) => .ok (p, .directory)
    | .ok (p, n) => if slash then .error .notADirectory else .ok (p, n)

/-- Whether a path leads to something. -/
def exists? (d : Disk) (path : String) : Bool := (d.find path).isOk

/-- Whether a path leads to a directory. -/
def isDirectory (d : Disk) (path : String) : Bool :=
  match d.find path with
  | .ok (_, .directory) => true
  | _ => false

/-! ## Operations of the system -/

/-- Reads a file. -/
def read (d : Disk) (path : String) : Except OsError ByteArray :=
  match d.find path with
  | .error e => .error e
  | .ok (_, .directory) => .error .isADirectory
  | .ok (_, .file content _) => .ok content

/-- The place of the file that a path leads to, or would lead to, when it is opened for writing. -/
def openToWrite (d : Disk) (path : String) : Except OsError Place :=
  match d.follow path with
  | .error e => .error e
  | .ok (.here _) => .error .isADirectory
  | .ok (.name directory name slash) =>
    if slash then .error .isADirectory
    else match d.child directory name with
      | .ok (_, .directory) => .error .isADirectory
      | .ok (p, .file ..) => .ok p
      | .error .notFound => .ok (directory ++ [name])
      | .error e => .error e

/-- Whether what is at a place is private. -/
def isPrivate (d : Disk) (p : Place) : Bool :=
  match d.node? p with
  | some (.file _ isPrivate) => isPrivate
  | _ => false

/-- Writes a file, over the content it had. A new file is not private, and an old one stays as
private as it was. -/
def write (d : Disk) (path : String) (content : ByteArray) : Except OsError Disk :=
  (d.openToWrite path).map fun p => d.put p (.file content (d.isPrivate p))

/-- Makes a directory. -/
def makeDirectory (d : Disk) (path : String) : Except OsError Disk :=
  match d.follow path with
  | .error e => .error e
  | .ok (.here _) => .error .alreadyExists
  | .ok (.name directory name _) =>
    match d.child directory name with
    | .ok _ => .error .alreadyExists
    | .error .notFound => .ok (d.put (directory ++ [name]) .directory)
    | .error e => .error e

/-- Makes a directory if there is none. -/
def makeDirectoryIfAbsent (d : Disk) (path : String) : Except OsError Disk :=
  match d.makeDirectory path with
  | .ok d => .ok d
  | .error e => if d.isDirectory path then .ok d else .error e

/-- Makes a directory and those above it that are missing. Those that were made stay when one that
is needed cannot be made. -/
def makeDirectories (d : Disk) (path : String) : Nat → Except OsError Unit × Disk
  | 0 => (.ok (), d)
  | fuel + 1 =>
    if path = "" then (.ok (), d)
    else match d.makeDirectoryIfAbsent path with
      | .ok d => (.ok (), d)
      | .error .notFound =>
        match Path.parent? path with
        | none => (.error .notFound, d)
        | some above =>
          match makeDirectories d above fuel with
          | (.error e, d) => (.error e, d)
          | (.ok (), d) =>
            match d.makeDirectoryIfAbsent path with
            | .ok d => (.ok (), d)
            | .error e => (.error e, d)
      | .error e => (.error e, d)

/-- Removes a file. -/
def delete (d : Disk) (path : String) : Except OsError Disk :=
  match d.follow path with
  | .error e => .error e
  | .ok (.here _) => .error .isADirectory
  | .ok (.name directory name slash) =>
    match d.child directory name with
    | .error e => .error e
    | .ok (_, .directory) => .error .isADirectory
    | .ok (p, .file ..) => if slash then .error .notADirectory else .ok (d.remove p)

/-- Copies a file with its privacy. The target is emptied before the source is read, so a file that
is copied onto itself loses its content. -/
def copy (d : Disk) (source target : String) : Except OsError Disk :=
  match d.find source with
  | .error e => .error e
  | .ok (_, .directory) => .error .notAFile
  | .ok (p, .file _ isPrivate) =>
    match d.openToWrite target with
    | .error e => .error e
    | .ok q =>
      let emptied := d.put q (.file .empty isPrivate)
      match emptied.node? p with
      | some (.file content _) => .ok (emptied.put q (.file content isPrivate))
      | _ => .ok emptied

/-! ## Listing -/

/-- Whether one place lies below another one. -/
def isBelow (p q : Place) : Bool := p.isPrefixOf q && p ≠ q

/-- All files, and the directories in which there is nothing, by their paths from the root. -/
def listing (d : Disk) : List (String × Node) :=
  d.nodes.entries.filterMap fun (p, n) =>
    match n with
    | .directory =>
      if d.nodes.keys.any (isBelow p) then none else some ("/".intercalate p ++ "/", n)
    | .file .. => some ("/".intercalate p, n)

end Disk

end WorkflowRuns
