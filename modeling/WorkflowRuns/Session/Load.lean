import WorkflowRuns.Session.Basic

/-!
# Loading a session

A session is loaded from variables and from the files below the home. Files for secrets and inputs
that are missing are made. Without an access token a stand-in takes its place.
-/

namespace WorkflowRuns.Session

/-- What stands for an access token when there is none. -/
def standInToken : String := "mock-token"

/-- The `runner` context of variables, which the settings can turn details on for. -/
def loadRunner (host : Host) (settings : Settings) (lookup : Lookup) : Context.Runner :=
  let runner := Context.Runner.ofLookup host lookup
  if runner.debug = "" && settings.debug then { runner with debug := "1" } else runner

/-- The `github` context with an access token, and what is logged if it had none. -/
def withToken (github : Context.Github) : Context.Github × List LogEvent :=
  if github.token = "" then
    ({ github with token := standInToken },
      [⟨.debug, s!"No github token configured, using '{standInToken}'"⟩])
  else (github, [])

/-- Loads a session, and gives what is logged. The files that were made stay when loading fails. -/
def load (d : Disk) (host : Host) (settings : Settings) (lookup : Lookup)
    (process : ProcessEnvironment) : Except Failure (Session × List LogEvent) × Disk :=
  match Failure.whileDoing "Failed to load github context" (Context.Github.ofLookup d lookup) with
  | .error f => (.error f, d)
  | .ok github =>
    match Context.Secrets.load d (Layout.secretsFile settings.home) with
    | (.error f, d) => (.error f, d)
    | (.ok secrets, d) =>
      match Context.Inputs.load d (Layout.inputsFile settings.home) with
      | (.error f, d) => (.error f, d)
      | (.ok inputs, d) =>
        let (github, events) := withToken github
        let session := start settings.home github (loadRunner host settings lookup)
          (secrets.setToken github.token) inputs process
        (.ok (session, events), d)

end WorkflowRuns.Session
