import WorkflowRuns.Environment.Variables
import WorkflowRuns.Json.Record

/-!
# Actions

A step can use an action: a piece of automation that says of itself which inputs it takes, which
outputs it gives and how it is run.
-/

namespace WorkflowRuns

/-- An input that an action declares. -/
structure ActionInput where
  /-- What it is for. -/
  description : String := ""
  /-- Whether it has to be given. -/
  required : Bool := false
  /-- The value if it is not given. -/
  default : Option String := none
deriving DecidableEq

/-- An output that an action declares. -/
structure ActionOutput where
  /-- What it tells. -/
  description : String := ""
  /-- The expression of its value. -/
  value : Option String := none
deriving DecidableEq

/-- How an action is run. -/
structure ActionRuns where
  /-- What the action runs on. -/
  engine : String := ""
  /-- What runs in the main stage. -/
  main : String := ""
  /-- What runs before. -/
  pre : String := ""
  /-- What runs after. -/
  post : String := ""
  /-- The container image. -/
  image : String := ""
  /-- The arguments of the container. -/
  args : List String := []
  /-- The variables of the container. -/
  environment : Variables := ∅
deriving DecidableEq

/-- What an action says of itself. -/
structure ActionMeta where
  /-- The name. -/
  name : String := ""
  /-- What it does. -/
  description : String := ""
  /-- The inputs by name. -/
  inputs : Dict String ActionInput := ∅
  /-- The outputs by name. -/
  outputs : Dict String ActionOutput := ∅
  /-- How it is run. -/
  runs : ActionRuns := {}
deriving DecidableEq

/-- An action at a place. -/
structure CustomAction where
  /-- Where the action is. -/
  path : String := ""
  /-- What it says of itself. -/
  metadata : ActionMeta := {}
deriving DecidableEq

/-! ## JSON forms -/

open Json

namespace ActionInput

/-- Writes a declared input. -/
def toJson (i : ActionInput) : Json := record [
  field "description" (.string i.description),
  field "required" (.bool i.required),
  fieldUnless i.default.isNone "default" (ofOption .string i.default)]

/-- Reads a declared input. -/
def ofJson? (j : Json) : Option ActionInput := do
  let ms ← j.fields? ["description", "required", "default"]
  return {
    description := ← defaulted? ms "description" asString? ""
    required := ← defaulted? ms "required" asBool? false
    default := ← optional? ms "default" asString? }

end ActionInput

namespace ActionOutput

/-- Writes a declared output. -/
def toJson (o : ActionOutput) : Json := record [
  field "description" (.string o.description),
  fieldUnless o.value.isNone "value" (ofOption .string o.value)]

/-- Reads a declared output. -/
def ofJson? (j : Json) : Option ActionOutput := do
  let ms ← j.fields? ["description", "value"]
  return {
    description := ← defaulted? ms "description" asString? ""
    value := ← optional? ms "value" asString? }

end ActionOutput

namespace ActionRuns

/-- Writes how an action is run. -/
def toJson (r : ActionRuns) : Json := record [
  field "using" (.string r.engine),
  fieldUnless (r.main = "") "main" (.string r.main),
  fieldUnless (r.pre = "") "pre" (.string r.pre),
  fieldUnless (r.post = "") "post" (.string r.post),
  fieldUnless (r.image = "") "image" (.string r.image),
  fieldUnless r.args.isEmpty "args" (Json.ofList .string r.args),
  fieldUnless r.environment.isEmpty "env" (ofTexts r.environment)]

/-- Reads how an action is run. -/
def ofJson? (j : Json) : Option ActionRuns := do
  let ms ← j.fields? ["using", "main", "pre", "post", "image", "args", "env"]
  return {
    engine := ← defaulted? ms "using" asString? ""
    main := ← defaulted? ms "main" asString? ""
    pre := ← defaulted? ms "pre" asString? ""
    post := ← defaulted? ms "post" asString? ""
    image := ← defaulted? ms "image" asString? ""
    args := ← defaulted? ms "args" (asList? asString?) []
    environment := ← defaulted? ms "env" asTexts? ∅ }

end ActionRuns

namespace ActionMeta

/-- Writes what an action says of itself. -/
def toJson (m : ActionMeta) : Json := record [
  field "name" (.string m.name),
  field "description" (.string m.description),
  field "inputs" (ofDict ActionInput.toJson m.inputs),
  field "outputs" (ofDict ActionOutput.toJson m.outputs),
  field "runs" m.runs.toJson]

/-- Reads what an action says of itself. -/
def ofJson? (j : Json) : Option ActionMeta := do
  let ms ← j.fields? ["name", "description", "inputs", "outputs", "runs"]
  return {
    name := ← defaulted? ms "name" asString? ""
    description := ← defaulted? ms "description" asString? ""
    inputs := ← defaulted? ms "inputs" (asDict? ActionInput.ofJson?) ∅
    outputs := ← defaulted? ms "outputs" (asDict? ActionOutput.ofJson?) ∅
    runs := ← defaulted? ms "runs" ActionRuns.ofJson? {} }

end ActionMeta

namespace CustomAction

/-- Writes an action. -/
def toJson (a : CustomAction) : Json := record [
  field "path" (.string a.path),
  field "meta" a.metadata.toJson]

/-- Reads an action. -/
def ofJson? (j : Json) : Option CustomAction := do
  let ms ← j.fields? ["path", "meta"]
  return {
    path := ← required? ms "path" asString?
    metadata := ← required? ms "meta" ActionMeta.ofJson? }

end CustomAction

end WorkflowRuns
