import WorkflowRuns.Proofs.Executor.Delivery
import WorkflowRuns.Proofs.Session.FileByFile

/-!
# What an executor takes over from files

The files are read, what they say reaches the process environment and the run of the active step,
and the log tells of it. Everything else of the executor stays as it was.
-/

namespace WorkflowRuns.Executor

open EnvironmentFile

variable {e : Executor} {step : StepRun} {vars : Variables}

/-- All that happens around the session is that the log tells of it. -/
theorem takeOver_after (e : Executor) (files : EnvironmentFiles) : ∃ events,
    (e.takeOver files).2 = { e with
      session := (e.session.takeOver (files.read e.disk)).session
      log := e.log ++ events } := by
  obtain ⟨events, hevents⟩ := e.session.takeOver_onlyLogs (files.read e.disk)
  refine ⟨events, ?_⟩
  show (e.session.takeOver (files.read e.disk)).notices.foldl deliver
    { e with session := (e.session.takeOver (files.read e.disk)).session } = _
  rw [hevents, foldl_deliver_log]

theorem takeOver_inMemory (hs : e.session.stepRun = some step)
    (hp : e.session.process = .inMemory vars) {files : EnvironmentFiles}
    {w : EnvironmentFiles.Written} (h : (files.read e.disk).Say w) :
    ∃ events, (e.takeOver files).2 = { e with
      session := { e.session with
        process := .inMemory (w.variablesAfter vars)
        stepRun := some (w.writes.foldl StepRun.write step) }
      log := e.log ++ events } := by
  obtain ⟨events, hafter⟩ := e.takeOver_after files
  exact ⟨events, by rw [hafter, Session.takeOver_session_inMemory hs hp h]⟩

/-- **The four files are folded into the process environment and the run of the step.** If taking
over is done, the files could be read and decoded. Of each variable the last entry counts; the
directories go to the end of the search path as the entries have left it. The run of the step takes
the variables and outputs by their last entries, the directories after those it had, and the
summary. Nothing else of the executor changes, except that the log tells of it. -/
theorem takeOver_folds_files (hs : e.session.stepRun = some step)
    (hp : e.session.process = .inMemory vars) {files : EnvironmentFiles}
    (hdone : (e.takeOver files).1 = .done) :
    ∃ w vars' step' events, (files.read e.disk).Say w ∧
      (∀ name, name ≠ "PATH" → vars'.get? name = valueAfter w.environment vars name) ∧
      vars'.get? "PATH" =
        (if w.directories = [] then valueAfter w.environment vars "PATH"
        else
          some (PathList.append ((valueAfter w.environment vars "PATH").getD "") w.directories)) ∧
      step.Took w step' ∧
      (e.takeOver files).2 = { e with
        session := { e.session with process := .inMemory vars', stepRun := some step' }
        log := e.log ++ events } := by
  obtain ⟨w, hw⟩ := (Session.takeOver_reply_done_iff hs hp (files.read e.disk)).1 hdone
  obtain ⟨events, hafter⟩ := takeOver_inMemory hs hp hw
  exact ⟨w, w.variablesAfter vars, w.writes.foldl StepRun.write step, events, hw,
    fun name hname => w.get?_variablesAfter vars hname, w.get?_variablesAfter_path vars,
    step.took_foldl w, hafter⟩

/-- A variable comes twice, the search path is set and then extended, a block holds an output of two
lines, and there is no file for the summary. -/
theorem takeOver_folds_files_of_disk :
    let disk : Disk := ⟨Dict.ofList [
      (["env"], .file "A=1\nPATH=/opt\nA=2\n".toUTF8 false),
      (["path"], .file " /tools \n\n/bin\n".toUTF8 false),
      (["output"], .file "v<<E\nx\ny\nE\n".toUTF8 false)]⟩
    let files : EnvironmentFiles := ⟨"env", "path", "output", "summary"⟩
    let vars : Variables := Dict.ofList [("HOME", "/root"), ("PATH", "/usr/bin")]
    let step : StepRun := { path := ["/first"], summary := "old" }
    let session : Session :=
      { Session.start "/ghx" {} {} ∅ ∅ (.inMemory vars) with stepRun := some step }
    let e : Executor := ⟨session, disk, .files, [], [], false, [], []⟩
    (e.takeOver files).1 = .done ∧ ∃ vars' step' events,
      vars'.get? "A" = some "2" ∧ vars'.get? "HOME" = some "/root" ∧
      vars'.get? "PATH" = some "/opt:/tools:/bin" ∧
      step'.path = ["/first", "/tools", "/bin"] ∧ step'.outputs.get? "v" = some "x\ny" ∧
      step'.summary = "" ∧
      (e.takeOver files).2 = { e with
        session := { e.session with process := .inMemory vars', stepRun := some step' }
        log := e.log ++ events } := by
  intro disk files vars step session e
  have hsay : (files.read e.disk).Say
      ⟨[⟨"A", "1"⟩, ⟨"PATH", "/opt"⟩, ⟨"A", "2"⟩], ["/tools", "/bin"], [⟨"v", "x\ny"⟩], ""⟩ := by
    constructor <;> decide +kernel
  have hs : e.session.stepRun = some step := rfl
  have hp : e.session.process = .inMemory vars := rfl
  have hdone : (e.takeOver files).1 = .done :=
    (Session.takeOver_reply_done_iff hs hp (files.read e.disk)).2 ⟨_, hsay⟩
  obtain ⟨w, vars', step', events, hw, hvars, hpath, htook, hafter⟩ :=
    takeOver_folds_files hs hp hdone
  obtain rfl := hw.unique hsay
  refine ⟨hdone, vars', step', events, ?_, ?_, ?_, ?_, ?_, ?_, hafter⟩
  · rw [hvars "A" (by decide)]
    decide +kernel
  · rw [hvars "HOME" (by decide)]
    decide +kernel
  · rw [hpath]
    decide +kernel
  · rw [htook.rest]
    rfl
  · rw [htook.outputs]
    decide +kernel
  · rw [htook.rest]

end WorkflowRuns.Executor
