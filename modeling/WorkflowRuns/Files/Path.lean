/-!
# Paths

A path is a text in which a slash divides names. The functions here look at the text only: they
never ask which files there are, and they resolve neither `.` nor `..`.
-/

namespace WorkflowRuns.Path

/-- The pieces of a text between slashes, of which there is at least one. -/
def split : List Char → List (List Char)
  | [] => [[]]
  | c :: cs =>
    if c = '/' then [] :: split cs
    else match split cs with
      | [] => [[c]]
      | s :: ss => (c :: s) :: ss

/-- Puts slashes between pieces. -/
def unsplit (segments : List (List Char)) : List Char := ['/'].intercalate segments

/-- Whether a path starts from the root. -/
def isAbsolute (path : String) : Bool := path.toList.head? = some '/'

/-- A path below another one. A path that starts from the root takes the place of what was before
it; otherwise a slash is put in between, unless one is there or nothing stands before it. -/
def join (base rest : String) : String :=
  if isAbsolute rest then rest
  else if base = "" ∨ base.toList.getLast? = some '/' then base ++ rest
  else base ++ ("/" ++ rest)

/-- Drops the pieces at the end that name nothing: empty ones and `.`. -/
def dropIdle (segments : List (List Char)) : List (List Char) :=
  (segments.reverse.dropWhile fun s => s = [] || s = ['.']).reverse

/-- The path of the directory that holds what a path names: none for the root and for the empty
path. Slashes and `.` at the end of either path do not count. -/
def parent? (path : String) : Option String :=
  let (front, body) : List Char × List Char := match path.toList with
    | '/' :: cs => (['/'], cs)
    | ['.'] => (['.'], [])
    | '.' :: '/' :: cs => (['.'], '/' :: cs)
    | cs => ([], cs)
  match dropIdle (split body) with
  | [] => if front = ['.'] then some "" else none
  | segments => some (String.ofList (front ++ unsplit (dropIdle segments.dropLast)))

/-- The last name of a path, if it ends in one: neither `..` nor a path without names does. -/
def fileName? (path : String) : Option String :=
  match (dropIdle (split path.toList)).getLast? with
  | none => none
  | some name => if name = ['.', '.'] ∨ name = [] then none else some (String.ofList name)

example : [parent? "a/b/c", parent? "./k", parent? "d//k", parent? ".", parent? "/k", parent? "/"]
    = [some "a/b", some ".", some "d", some "", some "/", none] := by decide

example : [fileName? "a/b/", fileName? "a/.", fileName? "a/..", fileName? ""]
    = [some "b", some "a", none, none] := by decide

end WorkflowRuns.Path
