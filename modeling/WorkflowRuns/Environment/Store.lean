import WorkflowRuns.Environment.Variables
import WorkflowRuns.Text.Basic

/-!
# The process environment

Variables that a running process hands to the processes it starts. An operating system keeps a
variable as one text `name=value` that ends at a NUL, so it holds no name that is empty or has an
equals sign or a NUL in it, and no value with a NUL; setting such a variable is refused. Asked for a
name, it looks for a text that starts with the name and an equals sign. A name with an equals sign
in it can therefore reach into a value, but a variable that can be held is found by its name alone
(`lookUp?_of_holdsName`). A store in memory takes and finds every name.
-/

namespace WorkflowRuns

namespace Variables

/-- Whether an operating system can hold a variable of this name. -/
def holdsName (name : String) : Bool :=
  name ≠ "" && !name.toList.contains '=' && !name.toList.contains '\x00'

/-- Whether an operating system can hold a variable of this value. -/
def holdsValue (value : String) : Bool := !value.toList.contains '\x00'

/-- A name up to its first equals sign, and the rest with that sign. -/
def cutName (name : String) : List Char × List Char :=
  (name.toList.takeWhile (· ≠ '='), name.toList.dropWhile (· ≠ '='))

/-- What an operating system finds under a name: the end of the text `key=value` that starts with
the name and an equals sign. No other key than the name up to its first equals sign can do so. -/
def lookUp? (vars : Variables) (name : String) : Option String :=
  let (key, rest) := cutName name
  if holdsName (.ofList key) && !rest.contains '\x00' then
    (vars.get? (.ofList key)).bind fun value =>
      (Text.after? (rest ++ ['=']) ('=' :: value.toList)).map String.ofList
  else none

theorem cutName_of_holdsName {name : String} (h : holdsName name = true) :
    cutName name = (name.toList, []) := by
  have h : ∀ c ∈ name.toList, c ≠ '=' := by
    rintro c hc rfl
    simp [holdsName, hc] at h
  unfold cutName
  generalize name.toList = cs at h
  induction cs with
  | nil => rfl
  | cons c cs ih => simp_all

/-- A variable that an operating system can hold is found by its name. -/
theorem lookUp?_of_holdsName (vars : Variables) {name : String} (h : holdsName name = true) :
    vars.lookUp? name = vars.get? name := by
  simp [lookUp?, cutName_of_holdsName h, h, Text.after?]

end Variables

/-- A process environment. -/
structure ProcessEnvironment where
  /-- Whether the operating system keeps the variables, and not a store in memory. -/
  ofSystem : Bool
  /-- The variables that are set. -/
  vars : Variables
deriving DecidableEq

namespace ProcessEnvironment

/-- A store in memory. -/
def inMemory (vars : Variables) : ProcessEnvironment := ⟨false, vars⟩

/-- The environment that the operating system keeps. -/
def system (vars : Variables) : ProcessEnvironment := ⟨true, vars⟩

/-- The value of a variable. -/
def get? (env : ProcessEnvironment) (name : String) : Option String :=
  if env.ofSystem then env.vars.lookUp? name else env.vars.get? name

/-- Whether a variable can be set. -/
def accepts (env : ProcessEnvironment) (name value : String) : Bool :=
  !env.ofSystem || (Variables.holdsName name && Variables.holdsValue value)

/-- Sets a variable, unless it is refused. -/
def set? (env : ProcessEnvironment) (name value : String) : Option ProcessEnvironment :=
  if env.accepts name value then some { env with vars := env.vars.insert name value }
  else none

/-- The environment in which the operating system starts a process with these variables, unless it
refuses one of them. -/
def start? (vars : Variables) : Option ProcessEnvironment :=
  vars.entries.foldlM (fun env (name, value) => env.set? name value) (system ∅)

example :
    ["A", "A=B", "A=", "A==B", "=A", "B", ""].map (system (Dict.insert ∅ "A" "B=C")).get?
      = [some "B=C", some "C", none, none, none, none, none] := by decide +kernel

end ProcessEnvironment

end WorkflowRuns
