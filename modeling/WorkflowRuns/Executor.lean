import WorkflowRuns.Session.Call
import WorkflowRuns.Session.Load

/-!
# Executors

An `Executor` is a session together with what is around it: the files, the archive to which
artifacts go, the trace and the log. It performs calls on the session and delivers the notices that
come of them. What cannot be archived is told to the trace and to nobody else.
-/

namespace WorkflowRuns

/-- Where artifacts go. -/
inductive Archive where
  /-- Into files. -/
  | files
  /-- Onto a shelf in memory, which takes the artifact with a number or says why it does not. -/
  | shelf (refuses : Nat → Artifact → Option Failure)

/-- A session and what is around it. -/
structure Executor where
  /-- The session. -/
  session : Session
  /-- The files. -/
  disk : Disk
  /-- Where artifacts go. -/
  archive : Archive
  /-- The artifacts that were to be archived so far. -/
  submitted : List Artifact
  /-- The artifacts on the shelf. -/
  shelved : List Artifact
  /-- Whether trace messages go to the log. -/
  tracesToLog : Bool
  /-- The trace. -/
  trace : List TraceMessage
  /-- The log. -/
  log : List LogEvent

namespace Executor

/-- Adds a message to the trace. -/
def say (e : Executor) (m : TraceMessage) : Executor :=
  if e.tracesToLog then { e with log := e.log ++ [m.toLogEvent] }
  else { e with trace := e.trace ++ [m] }

/-- Hands an artifact to the archive. -/
def submit (e : Executor) (a : Artifact) : Except Failure Unit × Executor :=
  let submitted := { e with submitted := e.submitted ++ [a] }
  match e.archive with
  | .files =>
    let (result, disk) := e.disk.keep a
    (result, { submitted with disk := disk })
  | .shelf refuses =>
    match refuses e.submitted.length a with
    | some failure => (.error failure, submitted)
    | none => (.ok (), { submitted with shelved := e.shelved ++ [a] })

/-- Delivers a notice. -/
def deliver (e : Executor) : Notice → Executor
  | .log event => { e with log := e.log ++ [event] }
  | .trace m => e.say m
  | .file filing =>
    match e.submit filing.artifact with
    | (.ok (), e) => e
    | (.error failure, e) => e.say (filing.complaint failure)

/-- Performs a call on the session and delivers what comes of it. -/
def perform (e : Executor) (call : Call) : Reply × Executor :=
  let { reply, session, notices } := e.session.perform call
  (reply, notices.foldl deliver { e with session := session })

/-- Takes over what the active step wrote to its files. -/
def takeOver (e : Executor) (files : EnvironmentFiles) : Reply × Executor :=
  e.perform (.takeOver (files.read e.disk))

/-- Makes environment files in a directory. -/
def createFiles (e : Executor) (directory : String) (token : String → String) :
    Except Failure EnvironmentFiles × Executor :=
  let (result, disk) := EnvironmentFiles.create e.disk directory token
  (result, { e with disk := disk })

/-- Removes environment files. -/
def cleanUp (e : Executor) (files : EnvironmentFiles) : Executor :=
  let (warnings, disk) := files.cleanUp e.disk
  warnings.foldl say { e with disk := disk }

/-- An executor that archives into files and traces to the log, with a session that is loaded. The
files that were made stay when loading fails. -/
def load (d : Disk) (host : Host) (settings : Settings) (lookup : Lookup)
    (process : ProcessEnvironment) : Except Failure Executor × Disk :=
  let (result, d) := Session.load d host settings lookup process
  (result.map fun (session, events) => {
    session := session
    disk := d
    archive := .files
    submitted := []
    shelved := []
    tracesToLog := true
    trace := []
    log := events }, d)

end Executor

end WorkflowRuns
