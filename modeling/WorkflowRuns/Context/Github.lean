import WorkflowRuns.Settings

/-!
# The `github` context

What is known of the repository, of the event that started the workflow, and of the workflow, job
and action that are active. It is read from the variables of the runner, and handed on to steps as
variables.
-/

namespace WorkflowRuns.Context

/-- The `github` context. -/
structure Github where
  repository : String := ""
  repositoryId : String := ""
  repositoryOwner : String := ""
  repositoryOwnerId : String := ""
  repositoryUrl : String := ""
  workspace : String := ""
  apiUrl : String := ""
  graphqlUrl : String := ""
  serverUrl : String := ""
  /-- The full name of the branch or tag. -/
  ref : String := ""
  /-- Its short name. -/
  refName : String := ""
  /-- Whether it is a branch or a tag. -/
  refType : String := ""
  refProtected : Bool := false
  headRef : String := ""
  baseRef : String := ""
  sha : String := ""
  actor : String := ""
  eventName : String := ""
  /-- The file that tells of the event. -/
  eventPath : String := ""
  /-- What the file tells. -/
  event : Datum := .null
  /-- The access token; it is also a secret. -/
  token : String := ""
  /-- The name of the active workflow. -/
  workflow : String := ""
  workflowRef : String := ""
  workflowSha : String := ""
  runId : String := ""
  runNumber : String := ""
  runAttempt : String := ""
  retentionDays : String := ""
  /-- The identifier of the active job. -/
  job : String := ""
  /-- Where the active action is. -/
  actionPath : String := ""
  /-- The file into which the active step writes variables. -/
  envFile : String := ""
  /-- The file into which the active step writes directories of the search path. -/
  pathFile : String := ""

namespace Github

/-- What the full names of branches start with. -/
def branchFront : String := "refs/heads/"

/-- What the full names of tags start with. -/
def tagFront : String := "refs/tags/"

/-- The short name of a branch or tag; any other name is its own. -/
def shortName (ref : String) : String :=
  match Text.after? branchFront.toList ref.toList, Text.after? tagFront.toList ref.toList with
  | some name, _ | none, some name => String.ofList name
  | none, none => ref

/-- The kind of a full name: empty if it is neither that of a branch nor that of a tag. -/
def kind (ref : String) : String :=
  match Text.after? branchFront.toList ref.toList, Text.after? tagFront.toList ref.toList with
  | some _, _ => "branch"
  | none, some _ => "tag"
  | none, none => ""

/-- The owner of a repository, from its name: what stands before the first slash. -/
def ownerOf (repository : String) : String :=
  match Text.cutAt? '/' repository.toList with
  | some (owner, _) => String.ofList owner
  | none => ""

/-- The first text, or the second one if that is empty. -/
def orElse (text fallback : String) : String := if text = "" then fallback else text

/-- Reads what the file at a path tells of the event. Without a path nothing is known of it. -/
def readEvent (d : Disk) (path : String) : Except Failure Datum :=
  if path = "" then .ok .emptyObject
  else Failure.whileDoing s!"Failed to read event file '{path}'" (d.loadJson path Json.datum?)

/-- Reads the context from variables. What they do not say of the owner, the short name and the kind
is found from the other names. -/
def ofLookup (d : Disk) (lookup : Lookup) : Except Failure Github :=
  let get name := (lookup name).getD ""
  (readEvent d (get "GITHUB_EVENT_PATH")).map fun event => {
    repository := get "GITHUB_REPOSITORY"
    repositoryId := get "GITHUB_REPOSITORY_ID"
    repositoryOwner := orElse (get "GITHUB_REPOSITORY_OWNER") (ownerOf (get "GITHUB_REPOSITORY"))
    repositoryOwnerId := get "GITHUB_REPOSITORY_OWNER_ID"
    repositoryUrl := get "GITHUB_REPOSITORY_URL"
    workspace := get "GITHUB_WORKSPACE"
    apiUrl := get "GITHUB_API_URL"
    graphqlUrl := get "GITHUB_GRAPHQL_URL"
    serverUrl := get "GITHUB_SERVER_URL"
    ref := get "GITHUB_REF"
    refName := orElse (get "GITHUB_REF_NAME") (shortName (get "GITHUB_REF"))
    refType := orElse (get "GITHUB_REF_TYPE") (kind (get "GITHUB_REF"))
    refProtected := (Text.switch? (get "GITHUB_REF_PROTECTED")).getD false
    headRef := get "GITHUB_HEAD_REF"
    baseRef := get "GITHUB_BASE_REF"
    sha := get "GITHUB_SHA"
    actor := get "GITHUB_ACTOR"
    eventName := get "GITHUB_EVENT_NAME"
    eventPath := get "GITHUB_EVENT_PATH"
    event := event
    token := get "GITHUB_TOKEN" }

/-- The variables that hand the context on, in a fixed order. The token is not among them. -/
def exports (g : Github) : List (String × String) := [
  ("GITHUB_REPOSITORY", g.repository),
  ("GITHUB_REPOSITORY_OWNER", g.repositoryOwner),
  ("GITHUB_WORKSPACE", g.workspace),
  ("GITHUB_REF", g.ref),
  ("GITHUB_REF_NAME", g.refName),
  ("GITHUB_REF_TYPE", g.refType),
  ("GITHUB_SHA", g.sha),
  ("GITHUB_EVENT_NAME", g.eventName),
  ("GITHUB_WORKFLOW", g.workflow),
  ("GITHUB_WORKFLOW_REF", g.workflowRef),
  ("GITHUB_WORKFLOW_SHA", g.workflowSha),
  ("GITHUB_RUN_ID", g.runId),
  ("GITHUB_RUN_NUMBER", g.runNumber),
  ("GITHUB_RUN_ATTEMPT", g.runAttempt),
  ("GITHUB_RETENTION_DAYS", g.retentionDays),
  ("GITHUB_JOB", g.job),
  ("GITHUB_ACTION_PATH", g.actionPath),
  ("GITHUB_ENV", g.envFile),
  ("GITHUB_PATH", g.pathFile)]

open Json

/-- Writes the context. -/
def toJson (g : Github) : Json := record [
  field "repository" (.string g.repository),
  field "repository_id" (.string g.repositoryId),
  field "repository_owner" (.string g.repositoryOwner),
  field "repository_owner_id" (.string g.repositoryOwnerId),
  field "repositoryUrl" (.string g.repositoryUrl),
  field "workspace" (.string g.workspace),
  field "api_url" (.string g.apiUrl),
  field "graphql_url" (.string g.graphqlUrl),
  field "server_url" (.string g.serverUrl),
  field "ref" (.string g.ref),
  field "ref_name" (.string g.refName),
  field "ref_type" (.string g.refType),
  field "ref_protected" (.bool g.refProtected),
  field "head_ref" (.string g.headRef),
  field "base_ref" (.string g.baseRef),
  field "sha" (.string g.sha),
  field "actor" (.string g.actor),
  field "event_name" (.string g.eventName),
  field "event_path" (.string g.eventPath),
  field "event" g.event.json,
  field "token" (.string g.token),
  field "workflow" (.string g.workflow),
  field "workflow_ref" (.string g.workflowRef),
  field "workflow_sha" (.string g.workflowSha),
  field "run_id" (.string g.runId),
  field "run_number" (.string g.runNumber),
  field "run_attempt" (.string g.runAttempt),
  field "retention_days" (.string g.retentionDays),
  field "job" (.string g.job),
  field "action_path" (.string g.actionPath),
  field "env" (.string g.envFile),
  field "path" (.string g.pathFile)]

/-- Reads the context. -/
def ofJson? (j : Json) : Option Github := do
  let ms ← j.fields? ["repository", "repository_id", "repository_owner", "repository_owner_id",
    "repositoryUrl", "workspace", "api_url", "graphql_url", "server_url", "ref", "ref_name",
    "ref_type", "ref_protected", "head_ref", "base_ref", "sha", "actor", "event_name", "event_path",
    "event", "token", "workflow", "workflow_ref", "workflow_sha", "run_id", "run_number",
    "run_attempt", "retention_days", "job", "action_path", "env", "path"]
  return {
    repository := ← required? ms "repository" asString?
    repositoryId := ← required? ms "repository_id" asString?
    repositoryOwner := ← required? ms "repository_owner" asString?
    repositoryOwnerId := ← required? ms "repository_owner_id" asString?
    repositoryUrl := ← required? ms "repositoryUrl" asString?
    workspace := ← required? ms "workspace" asString?
    apiUrl := ← required? ms "api_url" asString?
    graphqlUrl := ← required? ms "graphql_url" asString?
    serverUrl := ← required? ms "server_url" asString?
    ref := ← required? ms "ref" asString?
    refName := ← required? ms "ref_name" asString?
    refType := ← required? ms "ref_type" asString?
    refProtected := ← required? ms "ref_protected" asBool?
    headRef := ← required? ms "head_ref" asString?
    baseRef := ← required? ms "base_ref" asString?
    sha := ← required? ms "sha" asString?
    actor := ← required? ms "actor" asString?
    eventName := ← required? ms "event_name" asString?
    eventPath := ← required? ms "event_path" asString?
    event := ← required? ms "event" datum?
    token := ← required? ms "token" asString?
    workflow := ← required? ms "workflow" asString?
    workflowRef := ← required? ms "workflow_ref" asString?
    workflowSha := ← required? ms "workflow_sha" asString?
    runId := ← required? ms "run_id" asString?
    runNumber := ← required? ms "run_number" asString?
    runAttempt := ← required? ms "run_attempt" asString?
    retentionDays := ← required? ms "retention_days" asString?
    job := ← required? ms "job" asString?
    actionPath := ← required? ms "action_path" asString?
    envFile := ← required? ms "env" asString?
    pathFile := ← required? ms "path" asString? }

end Github

end WorkflowRuns.Context
