import WorkflowRuns.Proofs.Executor.TakeOver
import WorkflowRuns.Proofs.Files.Saved

/-!
# What an executor takes over file by file

If taking over fails, the first file that cannot be read or decoded is to blame. The files before it
have been taken over as ever, and nothing of the others (`takeOver_inTurn`). Where the step wrote
nothing, only the summary changes: it becomes empty (`takeOver_nothing`).
-/

namespace WorkflowRuns

open EnvironmentFile EnvironmentFiles

/-- There is no file, or one that is empty. -/
def Disk.Blank (d : Disk) (path : String) : Prop :=
  d.read path = .error .notFound ∨ d.read path = .ok .empty

theorem Disk.Blank.readTextIfAny {d : Disk} {path : String} (h : d.Blank path) :
    d.readTextIfAny path = .ok "" := by
  rcases h with h | h
  · unfold Disk.readTextIfAny readText
    rw [h]
  · have hread : d.read path = .ok "".toUTF8 := h
    exact Disk.readTextIfAny_of_read hread

/-- Files with nothing in them say nothing. -/
theorem EnvironmentFiles.say_nothing_of_blank {d : Disk} {files : EnvironmentFiles}
    (h : ∀ path ∈ files.paths, d.Blank path) : (files.read d).Say ⟨[], [], [], ""⟩ := by
  have hread : ∀ path ∈ files.paths, d.readTextIfAny path = .ok "" := fun path hpath =>
    (h path hpath).readTextIfAny
  have hentries : entriesOf (.ok "") = .ok [] := by decide +kernel
  simp only [paths, List.forall_mem_cons, List.not_mem_nil, false_implies, implies_true,
    and_true] at hread
  obtain ⟨henv, hpath, houtputs, hsummary⟩ := hread
  constructor
  · rw [read, henv, hentries]
  · rw [read, hpath]
    rfl
  · rw [read, houtputs, hentries]
  · rw [read, hsummary]

namespace Executor

/-- What is written reaches the session, the log tells of it, and nothing else changes. -/
def TookOver (e : Executor) (w : Written) (after : Executor) : Prop :=
  ∃ session events, e.session.Took w session ∧
    after = { e with session := session, log := e.log ++ events }

variable {e : Executor} {files : EnvironmentFiles} {step : StepRun} {part : Part} {f : Failure}
  {w : Written}

theorem takeOver_reply (e : Executor) (files : EnvironmentFiles) :
    (e.takeOver files).1 = (e.session.takeOver (files.read e.disk)).reply := rfl

/-- What does not break off sets every variable, so the files alone decide the answer. -/
theorem takeOver_reply_of_ne_aborted (hs : e.session.stepRun = some step)
    (h : (e.takeOver files).1 ≠ .aborted) :
    let c := files.read e.disk
    (Session.setAll e.session.process (c.assignments e.session.process)).2 = true ∧
      (e.takeOver files).1 = c.verdict := by
  have hsome : e.session.stepRun.isSome = true := by rw [hs]; rfl
  exact Session.takeOver_reply_of_ne_aborted hsome h

theorem TookOver.of_session
    (h : e.session.Took w (e.session.takeOver (files.read e.disk)).session) :
    e.TookOver w (e.takeOver files).2 := by
  obtain ⟨events, hafter⟩ := e.takeOver_after files
  exact ⟨_, events, h, hafter⟩

theorem say_of_takeOver_done (hs : e.session.stepRun = some step)
    (h : (e.takeOver files).1 = .done) :
    ∃ w, (files.read e.disk).Say w ∧ e.TookOver w (e.takeOver files).2 := by
  obtain ⟨hset, hverdict⟩ := takeOver_reply_of_ne_aborted hs (by rw [h]; exact Reply.noConfusion)
  rw [h] at hverdict
  obtain ⟨w, hsay⟩ := (Contents.verdict_done_iff _).1 hverdict.symm
  exact ⟨w, hsay, .of_session (Session.takeOver_of_say hs hset hsay)⟩

theorem stopsAt_of_takeOver_failed (hs : e.session.stepRun = some step)
    (h : (e.takeOver files).1 = .failed f) : ∃ part g, (files.read e.disk).StopsAt part g ∧
      f = g.during part.activity ∧
      e.TookOver ((files.read e.disk).saidBefore part step.summary) (e.takeOver files).2 := by
  obtain ⟨hset, hverdict⟩ := takeOver_reply_of_ne_aborted hs (by rw [h]; exact Reply.noConfusion)
  rw [h] at hverdict
  obtain ⟨part, g, hstops, hf⟩ := (Contents.verdict_failed_iff _).1 hverdict.symm
  exact ⟨part, g, hstops, hf, .of_session (Session.takeOver_of_stopsAt hs hset hstops)⟩

theorem takeOver_reply_of_stopsAt (hs : e.session.stepRun = some step)
    (h : (files.read e.disk).StopsAt part f) :
    (e.takeOver files).1 = .failed (f.during part.activity) ∨ (e.takeOver files).1 = .aborted := by
  have hsome : e.session.stepRun.isSome = true := by rw [hs]; rfl
  rw [takeOver_reply, Session.takeOver_reply hsome, Contents.verdict_of_stopsAt h]
  split
  · exact .inl rfl
  · exact .inr rfl

/-- How files are taken over one after the other: what is answered, and what is left. -/
structure InTurn (e : Executor) (c : Contents) (step : StepRun) (reply : Reply) (after : Executor) :
    Prop where
  /-- If it is done, all that the files say has been taken over. -/
  done : reply = .done → ∃ w, c.Say w ∧ e.TookOver w after
  /-- If it fails, the first file that fails is named, and what those before it say has been taken
  over. -/
  failed : ∀ f, reply = .failed f → ∃ part g, c.StopsAt part g ∧ f = g.during part.activity ∧
    e.TookOver (c.saidBefore part step.summary) after
  /-- It fails if a file does, unless the system refuses a variable of one before that. -/
  stops : ∀ part g, c.StopsAt part g → reply = .failed (g.during part.activity) ∨ reply = .aborted
  /-- Nothing happens if the file for variables fails. -/
  env : ∀ g, entriesOf c.env = .error g →
    reply = .failed (g.during Part.env.activity) ∧ after = e
  /-- If the file for outputs fails, outputs and summary stay, whatever happens before. -/
  outputs : ∀ g, entriesOf c.outputs = .error g → reply ≠ .done ∧
    ∃ step', after.session.stepRun = some step' ∧
      step'.outputs = step.outputs ∧ step'.summary = step.summary

/-- **Each file is taken over whole or not at all, and none after one that fails.** If taking over
fails, it does so because of the first file that cannot be read or decoded, which the failure names.
What the files before it say is taken over, as it is if all goes well, and nothing else changes. So
a file for variables that fails leaves everything as it was, and one for outputs leaves the outputs
of the step and its summary, however much of it can be decoded. -/
theorem takeOver_inTurn (hs : e.session.stepRun = some step) (files : EnvironmentFiles) :
    e.InTurn (files.read e.disk) step (e.takeOver files).1 (e.takeOver files).2 where
  done := say_of_takeOver_done hs
  failed _ := stopsAt_of_takeOver_failed hs
  stops _ _ := takeOver_reply_of_stopsAt hs
  env g h := by
    have hrefused : e.session.perform (.takeOver (files.read e.disk)) =
        .refused e.session (g.during Part.env.activity) := Session.takeOver_of_env_error hs h
    unfold takeOver perform
    rw [hrefused]
    exact ⟨rfl, rfl⟩
  outputs g h := by
    obtain ⟨events, hafter⟩ := e.takeOver_after files
    refine ⟨fun hdone => ?_, ?_⟩
    · obtain ⟨w, hsay, -⟩ := say_of_takeOver_done hs hdone
      rw [hsay.outputs] at h
      cases h
    · rw [hafter]
      exact Session.takeOver_of_outputs_error hs h

/-- The second line of the file for outputs is no entry. Variables and directories have been taken
over, the output of its first line has not. -/
theorem takeOver_inTurn_broken_outputs :
    let disk : Disk := ⟨Dict.ofList [
      (["env"], .file "A=1\nPATH=/opt\n".toUTF8 false),
      (["path"], .file "/tools\n".toUTF8 false),
      (["output"], .file "v=1\nbroken\n".toUTF8 false),
      (["summary"], .file "done".toUTF8 false)]⟩
    let files : EnvironmentFiles := ⟨"env", "path", "output", "summary"⟩
    let step : StepRun := { outputs := Dict.insert ∅ "v" "0", summary := "old" }
    let session : Session :=
      { Session.start "/ghx" {} {} ∅ ∅ (.system ∅) with stepRun := some step }
    let e : Executor := ⟨session, disk, .files, [], [], false, [], []⟩
    let w : Written := ⟨[⟨"A", "1"⟩, ⟨"PATH", "/opt"⟩], ["/tools"], [], "old"⟩
    (e.takeOver files).1 =
        .failed ⟨["Failed to process output file"], .entry (.invalidLine 2 "broken")⟩ ∧
      e.TookOver w (e.takeOver files).2 := by
  intro disk files step session e w
  have henv : entriesOf (files.read e.disk).env = .ok w.environment := by decide +kernel
  have hpath : linesOf (files.read e.disk).path = .ok w.directories := by decide +kernel
  have hstops : (files.read e.disk).StopsAt .outputs ⟨[], .entry (.invalidLine 2 "broken")⟩ := by
    constructor <;> decide +kernel
  have hset : (Session.setAll session.process
      ((files.read e.disk).assignments session.process)).2 = true := by decide +kernel
  have hreply : (e.takeOver files).1 =
      .failed ⟨["Failed to process output file"], .entry (.invalidLine 2 "broken")⟩ := by
    rw [takeOver_reply, Session.takeOver_reply rfl, if_pos hset, Contents.verdict_of_stopsAt hstops]
    rfl
  have hs : e.session.stepRun = some step := rfl
  obtain ⟨part, g, hfirst, -, htook⟩ := (takeOver_inTurn hs files).failed _ hreply
  obtain ⟨rfl, rfl⟩ := hfirst.unique hstops
  have hsaid : (files.read e.disk).saidBefore .outputs step.summary = w := by
    unfold Contents.saidBefore
    rw [henv, hpath]
    rfl
  rw [hsaid] at htook
  exact ⟨hreply, htook⟩

/-- **Empty files change the summary and nothing else.** Where a step wrote nothing, because each of
its files is missing or empty, taking over is done. It leaves everything as it was but for the
summary of the step, which becomes empty. So it changes nothing if and only if there was none. -/
theorem takeOver_nothing (hs : e.session.stepRun = some step)
    (hblank : ∀ path ∈ files.paths, e.disk.Blank path) :
    e.takeOver files = (.done, { e with
        session := { e.session with stepRun := some { step with summary := "" } } }) ∧
      (e.takeOver files = (.done, e) ↔ step.summary = "") := by
  have hafter : e.takeOver files = (.done, { e with
      session := { e.session with stepRun := some { step with summary := "" } } }) := by
    have hsession : e.session.perform (.takeOver (files.read e.disk)) = .done _ [] :=
      Session.takeOver_of_say_nothing hs (say_nothing_of_blank hblank)
    unfold takeOver perform
    rw [hsession]
    rfl
  refine ⟨hafter, ?_⟩
  rw [hafter]
  constructor
  · intro h
    have hstep := congrArg (fun o => o.2.session.stepRun) h
    rw [hs] at hstep
    rw [← Option.some.inj hstep]
  · intro h
    obtain ⟨session, disk, archive, submitted, shelved, tracesToLog, trace, log⟩ := e
    cases session
    cases step
    cases hs
    cases h
    rfl

/-- One file is empty and the others are missing. The step keeps its outputs and loses its
summary. -/
theorem takeOver_nothing_summary_lost :
    let disk : Disk := ⟨Dict.ofList [(["env"], .file .empty false)]⟩
    let files : EnvironmentFiles := ⟨"env", "path", "output", "summary"⟩
    let step : StepRun := { outputs := Dict.insert ∅ "v" "1", summary := "x" }
    let session : Session :=
      { Session.start "/ghx" {} {} ∅ ∅ (.inMemory ∅) with stepRun := some step }
    let e : Executor := ⟨session, disk, .files, [], [], false, [], []⟩
    (∀ path ∈ files.paths, e.disk.Blank path) ∧ (e.takeOver files).1 = .done ∧
      (e.takeOver files).2.session.stepRun =
        some { outputs := Dict.insert ∅ "v" "1", summary := "" } ∧
      e.takeOver files ≠ (.done, e) := by
  intro disk files step session e
  have hblank : ∀ path ∈ files.paths, e.disk.Blank path := by
    unfold Disk.Blank
    decide +kernel
  have hs : e.session.stepRun = some step := rfl
  obtain ⟨hafter, hsame⟩ := takeOver_nothing hs hblank
  refine ⟨hblank, ?_, ?_, fun h => absurd (hsame.1 h) (by decide)⟩
  · rw [hafter]
  · rw [hafter]

/-- A step has a summary and its files are not there. -/
theorem not_unchanged_without_files :
    let session := (Session.start "/ghx" {} {} ∅ ∅ (.inMemory ∅)).performAll [
      .startWorkflow (.start "1" { name := "CI" }), .startJob { job := { id := "build" } },
      .startStep { step := { id := "s1" } }, .write (.summary "x")]
    let e : Executor := ⟨session, ⟨∅⟩, .files, [], [], false, [], []⟩
    let files : EnvironmentFiles := ⟨"env", "path", "output", "summary"⟩
    e.session.stepRun.isSome = true ∧ (∀ path ∈ files.paths, e.disk.Blank path) ∧
      e.takeOver files ≠ (.done, e) := by
  intro session e files
  have hblank : ∀ path ∈ files.paths, e.disk.Blank path := by
    unfold Disk.Blank
    decide +kernel
  refine ⟨rfl, hblank, fun h => ?_⟩
  have hsummary := congrArg (fun o => o.2.session.stepRun.map (·.summary)) h
  revert hsummary
  decide +kernel

end Executor

end WorkflowRuns
