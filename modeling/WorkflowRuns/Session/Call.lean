import WorkflowRuns.Session.Handover
import WorkflowRuns.Session.Job
import WorkflowRuns.Session.Workflow

/-!
# Calls on a session

Everything that can be done to a session, as data, so that a history is a list of calls.
-/

namespace WorkflowRuns

/-- A call on a session. -/
inductive Call where
  /-- Starts a run of a workflow. -/
  | startWorkflow (run : WorkflowRun)
  /-- Ends the active workflow. -/
  | retireWorkflow (result : RunResult)
  /-- Changes the record of the active workflow from outside. -/
  | editWorkflow (change : WorkflowRun → WorkflowRun)
  /-- Starts a run of a job. -/
  | startJob (run : JobRun)
  /-- Ends the active job. -/
  | retireJob (result : RunResult)
  /-- Records how the active job ended. -/
  | concludeJob (conclusion outcome : Conclusion) (outputs : Variables)
  /-- Starts a run of a step. -/
  | startStep (run : StepRun)
  /-- Ends the active step. -/
  | retireStep (result : RunResult)
  /-- Records something of the active step. -/
  | write (w : StepWrite)
  /-- Makes an action the active one. -/
  | startAction (action : CustomAction)
  /-- Leaves the active action. -/
  | leaveAction
  /-- Names the file into which the active step writes variables. -/
  | nameEnvironmentFile (path : String)
  /-- Names the file into which the active step writes directories of the search path. -/
  | namePathFile (path : String)
  /-- Takes over what the active step wrote to its files. -/
  | takeOver (contents : EnvironmentFiles.Contents)

namespace Session

/-- Performs a call. -/
def perform (s : Session) : Call → Outcome
  | .startWorkflow run => s.startWorkflow run
  | .retireWorkflow result => s.retireWorkflow result
  | .editWorkflow change => s.editWorkflow change
  | .startJob run => s.startJob run
  | .retireJob result => s.retireJob result
  | .concludeJob conclusion outcome outputs => s.concludeJob conclusion outcome outputs
  | .startStep run => s.startStep run
  | .retireStep result => s.retireStep result
  | .write w => s.write w
  | .startAction action => s.startAction action
  | .leaveAction => s.leaveAction
  | .nameEnvironmentFile path => s.nameEnvironmentFile path
  | .namePathFile path => s.namePathFile path
  | .takeOver contents => s.takeOver contents

/-- The session after calls, one after the other. -/
def performAll (s : Session) (calls : List Call) : Session :=
  calls.foldl (fun s call => (s.perform call).session) s

end Session

end WorkflowRuns
