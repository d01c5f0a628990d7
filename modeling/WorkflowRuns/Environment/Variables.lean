import WorkflowRuns.Dict.Lemmas

/-!
# Environment variables

A workflow, a job and a step each define variables. The variables in force are those of the layers
put over one another: a variable of a later layer hides one of the same name below it. Names are
compared letter by letter.

The variable `PATH` holds directories joined by a colon. An empty element would stand for the
current directory, so empty entries are never added.
-/

namespace WorkflowRuns

/-- Environment variables by name. -/
abbrev Variables := Dict String String

namespace Variables

/-- Whether two texts name the same variable. -/
def sameName (a b : String) : Bool := a = b

/-- Puts one layer over another. -/
def overlay (below above : Variables) : Variables := below.insertAll above.entries

/-- The variables in force when the layers are put over one another, the first at the bottom. -/
def layered (layers : List Variables) : Variables := layers.foldl overlay ∅

end Variables

namespace PathList

/-- What stands between two elements. -/
def separator : Char := ':'

/-- Adds one entry at the end. -/
def add (path entry : String) : String :=
  if entry = "" then path
  else if path = "" then entry
  else path ++ (separator.toString ++ entry)

/-- Adds entries at the end, in order. -/
def append (path : String) (entries : List String) : String := entries.foldl add path

end PathList

end WorkflowRuns
