import WorkflowRuns.Settings

/-!
# The `runner` context

What is known of the machine on which the jobs run. Variables say it, and what they leave out is
asked of the machine.
-/

namespace WorkflowRuns

/-- What a machine says of itself. -/
structure Host where
  /-- Its name. -/
  name : String
  /-- Its architecture. -/
  architecture : String
  /-- Its directory for temporary files. -/
  temporary : String
deriving DecidableEq

namespace Host

/-- The operating system. -/
def operatingSystem : String := "Linux"

/-- The directory for temporary files that the variables of a process name. -/
def temporaryDirectory (process : Lookup) : String := (process "TMPDIR").getD "/tmp"

end Host

namespace Context

/-- The `runner` context. -/
structure Runner where
  name : String := ""
  os : String := ""
  arch : String := ""
  /-- The directory for temporary files. -/
  temp : String := ""
  /-- The directory in which tools are kept. -/
  toolCache : String := ""
  /-- What the variable that turns details on says. -/
  debug : String := ""
deriving DecidableEq

namespace Runner

/-- Reads the context from variables. An empty variable says nothing. -/
def ofLookup (host : Host) (lookup : Lookup) : Runner :=
  let get name := (lookup name).filter (· ≠ "")
  { name := (get "RUNNER_NAME").getD host.name
    os := (get "RUNNER_OS").getD Host.operatingSystem
    arch := (get "RUNNER_ARCH").getD host.architecture
    temp := (get "RUNNER_TEMP").getD host.temporary
    toolCache := (get "RUNNER_TOOL_CACHE").getD ""
    debug := (get "RUNNER_DEBUG").getD "" }

open Json

/-- Writes the context. -/
def toJson (r : Runner) : Json := record [
  field "name" (.string r.name),
  field "os" (.string r.os),
  field "arch" (.string r.arch),
  field "temp" (.string r.temp),
  field "tool_cache" (.string r.toolCache),
  field "debug" (.string r.debug)]

/-- Reads the context. -/
def ofJson? (j : Json) : Option Runner := do
  let ms ← j.fields? ["name", "os", "arch", "temp", "tool_cache", "debug"]
  return {
    name := ← required? ms "name" asString?
    os := ← required? ms "os" asString?
    arch := ← required? ms "arch" asString?
    temp := ← required? ms "temp" asString?
    toolCache := ← required? ms "tool_cache" asString?
    debug := ← required? ms "debug" asString? }

end Runner

end Context

end WorkflowRuns
