import WorkflowRuns.Proofs.Executor.Places
import WorkflowRuns.Proofs.Session.Addresses

/-!
# No report overwrites another

What a call files has its place below the address of the run that the call ends
(`Session.targets_filings`). Identifiers that are plain are the names of their own directories, so
places below different addresses are apart, and no address ends twice where the identifiers of runs
are distinct. So no two artifacts of a history are kept at one place (`targets_apart_of_history`).
-/

namespace WorkflowRuns

namespace Layout

/-- An identifier that is an ordinary name as it stands. -/
structure Plain (id : String) : Prop where
  nonempty : id ≠ ""
  ordinary : Ordinary id
  safe : id.toList.all isSafe = true

instance (id : String) : Decidable (Plain id) :=
  decidable_of_iff (id ≠ "" ∧ Ordinary id ∧ id.toList.all isSafe = true)
    ⟨fun ⟨nonempty, ordinary, safe⟩ => ⟨nonempty, ordinary, safe⟩,
      fun h => ⟨h.nonempty, h.ordinary, h.safe⟩⟩

theorem Plain.safeName_eq {id : String} (h : Plain id) : safeName id = id := by
  have hkept : ∀ c ∈ id.toList, (if isSafe c then c else '_') = c := fun c hc =>
    if_pos (List.all_eq_true.1 h.safe c hc)
  rw [safeName, if_neg h.nonempty, List.map_congr_left hkept, List.map_id', String.ofList_toList]

/-- Plain identifiers, no more than there are levels. -/
structure Addressable (ids : List String) : Prop where
  length : ids.length ≤ levels.length
  plain : ∀ id ∈ ids, Plain id

theorem Addressable.resolve_target {ids : List String} (h : Addressable ids) {file : String}
    (hfile : Path.Component file) (here : Place) (home : String) :
    Path.resolve here (Path.join (nested home ids) file) =
      Path.resolve here home ++ branch ids ++ [file] := by
  have hordinary : ∀ id ∈ ids, Ordinary id := fun id hid => (h.plain id hid).ordinary
  rw [Path.resolve_join hfile.noSlash, hfile.descend, (resolve_nested_iff h.length ..).2 hordinary]

/-- The names that lead to the directory of a run, without those of the levels, are its
identifiers. -/
theorem Addressable.names_eq {ids : List String} (h : Addressable ids) :
    (levels.zip ids).map (fun e => safeName e.2) = ids := by
  have hsnd : (levels.zip ids).map (safeName ∘ Prod.snd) = ids.map safeName := by
    rw [← List.map_map, List.map_snd_zip h.length]
  have hkept : ids.map safeName = ids.map id :=
    List.map_congr_left fun id hid => (h.plain id hid).safeName_eq
  exact hsnd.trans (hkept.trans (List.map_id ids))

theorem names_eq_of_flatMap_eq {es es' : List (String × String)}
    (h : (es.flatMap fun e => [e.1, safeName e.2]) = es'.flatMap fun e => [e.1, safeName e.2]) :
    es.map (fun e => safeName e.2) = es'.map fun e => safeName e.2 := by
  induction es generalizing es' with
  | nil => cases es' <;> simp at h ⊢
  | cons e es ih =>
    cases es' with
    | nil => simp at h
    | cons e' es' =>
      simp only [List.flatMap_cons, List.cons_append, List.nil_append, List.cons.injEq] at h
      obtain ⟨-, hname, hrest⟩ := h
      rw [List.map_cons, List.map_cons, hname, ih hrest]

/-- Directories of different runs are different. -/
theorem Addressable.eq_of_branch_eq {ids ids' : List String} (h : Addressable ids)
    (h' : Addressable ids') (heq : branch ids = branch ids') : ids = ids' := by
  rw [← h.names_eq, ← h'.names_eq]
  exact names_eq_of_flatMap_eq heq

theorem Addressable.eq_of_place_eq {ids ids' : List String} {base : Place} {file file' : String}
    (h : Addressable ids) (h' : Addressable ids')
    (heq : base ++ branch ids ++ [file] = base ++ branch ids' ++ [file']) : ids = ids' := by
  have hbranch := (List.append_inj' heq rfl).1
  exact h.eq_of_branch_eq h' (List.append_cancel_left hbranch)

end Layout

open Layout

/-- What is kept under file names in the directory of a run. -/
def targetsIn (home : String) (files : List String) (ids : List String) : List String :=
  files.map (Path.join (nested home ids))

/-- A file name, and a second one if there is a text that calls for it. -/
def withOptional (file optional text : String) : List String :=
  file :: if text = "" then [] else [optional]

theorem sublist_withOptional (file optional text : String) :
    (withOptional file optional text).Sublist [file, optional] := by
  unfold withOptional
  split <;> simp

namespace WorkflowRun

variable (run : WorkflowRun) (home : String) (result : RunResult)

theorem targets_filingsOfStep (job : JobRun) (step : StepRun) :
    (run.filingsOfStep home result job step).map (·.artifact.target) =
      targetsIn home (withOptional "step_run.json" "summary.md" step.summary)
        [run.runId, job.job.id, step.step.id] := by
  unfold filingsOfStep targetsIn withOptional
  rw [stepRun_eq_nested]
  split <;> rfl

theorem targets_filingsOfWorkflow :
    (run.filingsOfWorkflow home result).map (·.artifact.target) =
      targetsIn home (withOptional "workflow_run.json" "workflow.yaml" run.workflow.path)
        [run.runId] := by
  unfold filingsOfWorkflow targetsIn withOptional
  rw [workflowRun_eq_nested]
  split <;> rfl

end WorkflowRun

namespace Session

/-- The names of the files in which a call wants something kept of the run that it ends. -/
def fileNames (s : Session) : Call → List String
  | .retireStep _ =>
    withOptional "step_run.json" "summary.md" (s.stepRun.elim "" (·.summary))
  | .retireJob _ => ["job_run.json"]
  | .retireWorkflow _ =>
    withOptional "workflow_run.json" "workflow.yaml" (s.workflowRun.elim "" (·.workflow.path))
  | _ => []

theorem sublist_fileNames (s : Session) (c : Call) :
    (s.fileNames c).Sublist (Filing.words.map Prod.snd) := by
  cases c with
  | retireStep => exact (sublist_withOptional ..).trans (by decide)
  | retireWorkflow => exact (sublist_withOptional ..).trans (by decide)
  | retireJob =>
    have hword : ["job_run.json"].Sublist (Filing.words.map Prod.snd) := by decide
    exact hword
  | _ => exact List.nil_sublist _

theorem nodup_fileNames (s : Session) (c : Call) : (s.fileNames c).Nodup :=
  (s.sublist_fileNames c).nodup (by decide)

theorem component_of_mem_fileNames {s : Session} {c : Call} {file : String}
    (h : file ∈ s.fileNames c) : Path.Component file := by
  obtain ⟨w, hw, rfl⟩ := List.mem_map.1 ((s.sublist_fileNames c).subset h)
  exact Filing.component_of_mem_words w hw

/-- What a call files lies below the address of the run that it ends. -/
theorem targets_filings (s : Session) (c : Call) :
    (s.filings c).map (·.artifact.target) =
      (c.move.ended s.path).flatMap (targetsIn s.home (s.fileNames c)) := by
  cases c with
  | retireStep result =>
    cases hw : s.workflowRun with
    | none => simp [filings, Call.move, Move.ended, path, hw]
    | some run =>
      cases hj : s.jobRun with
      | none => simp [filings, Call.move, Move.ended, path, hw, hj]
      | some job =>
        cases hs : s.stepRun with
        | none => simp [filings, Call.move, Move.ended, path, hw, hj, hs]
        | some step =>
          have htargets := run.targets_filingsOfStep s.home result job step
          by_cases hmain : step.stage = .main
          · simp [filings, fileNames, Call.move, Move.ended, path, StepRun.mainId?, hw, hj, hs,
              hmain, htargets]
          · simp [filings, Call.move, Move.ended, path, StepRun.mainId?, hw, hj, hs, hmain]
  | retireJob result =>
    cases hw : s.workflowRun with
    | none => simp [filings, Call.move, Move.ended, path, hw]
    | some run =>
      cases hj : s.jobRun with
      | none => simp [filings, Call.move, Move.ended, path, hw, hj]
      | some job =>
        simp only [filings, fileNames, Call.move, Move.ended, path, hw, hj,
          WorkflowRun.filingsOfJob, jobRun_eq_nested]
        simp
        rfl
  | retireWorkflow result =>
    cases hw : s.workflowRun with
    | none => simp [filings, Call.move, Move.ended, path, hw]
    | some run =>
      have htargets := run.targets_filingsOfWorkflow s.home result
      simp [filings, fileNames, Call.move, Move.ended, path, hw, htargets]
  | _ => rfl

/-! ## Whole histories -/

/-- What calls want kept, one after the other. -/
def filingsAll (s : Session) : List Call → List Filing
  | [] => []
  | c :: calls => s.filings c ++ filingsAll (s.perform c).session calls

variable {s : Session} {calls : List Call}

/-- The places of what a call files, one for each file name in the directory of the run that it
ends. -/
theorem places_filings (s : Session) (c : Call) (here : Place)
    (hids : ∀ ids ∈ c.move.ended s.path, Addressable ids) :
    ((s.filings c).map fun f => Path.resolve here f.artifact.target) =
      (c.move.ended s.path).flatMap fun ids =>
        (s.fileNames c).map fun file => Path.resolve here s.home ++ branch ids ++ [file] := by
  have htargets := congrArg (List.map (Path.resolve here)) (s.targets_filings c)
  rw [List.map_map, List.map_flatMap] at htargets
  refine htargets.trans (List.flatMap_congr fun ids hmem => ?_)
  rw [targetsIn, List.map_map]
  refine List.map_congr_left fun file hfile => ?_
  exact (hids ids hmem).resolve_target (component_of_mem_fileNames hfile) here s.home

theorem nodup_places_filings (s : Session) (c : Call) (here : Place)
    (hids : ∀ ids ∈ c.move.ended s.path, Addressable ids)
    (hnodup : (c.move.ended s.path).Nodup) :
    ((s.filings c).map fun f => Path.resolve here f.artifact.target).Nodup := by
  rw [s.places_filings c here hids, List.nodup_flatMap]
  refine ⟨fun ids _ => ?_, hnodup.imp_of_mem fun {ids ids'} h h' hne => ?_⟩
  · refine (s.nodup_fileNames c).map fun file file' heq => ?_
    simpa using heq
  · intro place hplace hplace'
    obtain ⟨file, -, rfl⟩ := List.mem_map.1 hplace
    obtain ⟨file', -, heq⟩ := List.mem_map.1 hplace'
    exact hne ((hids ids h).eq_of_place_eq (hids ids' h') heq.symm)

/-- What is kept below different addresses is kept at different places. -/
theorem nodup_places_filingsAll (hcalls : ∀ c ∈ calls, c.edits = false)
    (hids : ∀ ids ∈ Move.endedAll s.path (calls.map Call.move), Addressable ids)
    (hnodup : (Move.endedAll s.path (calls.map Call.move)).Nodup) (here : Place) :
    let places := (s.filingsAll calls).map fun f => Path.resolve here f.artifact.target
    places.Nodup ∧ ∀ place ∈ places, ∃ ids ∈ Move.endedAll s.path (calls.map Call.move), ∃ file,
      place = Path.resolve here s.home ++ branch ids ++ [file] := by
  induction calls generalizing s with
  | nil => exact ⟨List.nodup_nil, fun place h => absurd h List.not_mem_nil⟩
  | cons c calls ih =>
    obtain ⟨hc, hcalls⟩ := List.forall_mem_cons.1 hcalls
    have heffect := perform_effect s c
    have hpath := path_of_effect hc heffect
    have hhome := (SameOrigin.effect heffect).home
    rw [List.map_cons, Move.endedAll, ← hpath] at hids hnodup ⊢
    obtain ⟨hnow, hlater⟩ := List.forall_mem_append.1 hids
    obtain ⟨hnodupNow, hnodupLater, hapart⟩ := List.nodup_append.1 hnodup
    obtain ⟨hrest, hbelow⟩ := ih hcalls hlater hnodupLater
    rw [hhome] at hbelow
    have hhere : ∀ place ∈ (s.filings c).map fun f => Path.resolve here f.artifact.target,
        ∃ ids ∈ c.move.ended s.path, ∃ file,
          place = Path.resolve here s.home ++ branch ids ++ [file] := by
      intro place hplace
      rw [s.places_filings c here hnow] at hplace
      obtain ⟨ids, hmem, hplace⟩ := List.mem_flatMap.1 hplace
      obtain ⟨file, -, rfl⟩ := List.mem_map.1 hplace
      exact ⟨ids, hmem, file, rfl⟩
    rw [filingsAll, List.map_append]
    refine ⟨List.nodup_append.2 ⟨s.nodup_places_filings c here hnow hnodupNow, hrest, ?_⟩, ?_⟩
    · -- a place for now and for later is below an address that ends twice
      rintro place hplace _ hplace' rfl
      obtain ⟨ids, hmem, file, heq⟩ := hhere place hplace
      obtain ⟨ids', hmem', file', heq'⟩ := hbelow place hplace'
      refine hapart ids hmem ids' hmem' ?_
      exact (hnow ids hmem).eq_of_place_eq (hlater ids' hmem') (heq.symm.trans heq')
    · intro place hplace
      rcases List.mem_append.1 hplace with hplace | hplace
      · obtain ⟨ids, hmem, hfile⟩ := hhere place hplace
        exact ⟨ids, List.mem_append_left _ hmem, hfile⟩
      · obtain ⟨ids, hmem, hfile⟩ := hbelow place hplace
        exact ⟨ids, List.mem_append_right _ hmem, hfile⟩

end Session

namespace Executor

variable {e : Executor}

theorem filings_history (e : Executor) (ops : List Operation) :
    ((e.history ops).flatMap fun v => v.operation.filings v.found) =
      e.session.filingsAll (e.calls ops) := by
  induction ops generalizing e with
  | nil => rfl
  | cons op ops ih =>
    have hsession := e.operate_session op
    rw [history, List.flatMap_cons, ih, hsession]
    cases op <;> rfl

/-- What was to be archived is what the calls on the session want kept. -/
theorem submitted_operateAll (e : Executor) (ops : List Operation) : (e.operateAll ops).submitted =
    e.submitted ++ (e.session.filingsAll (e.calls ops)).map Filing.artifact := by
  rw [(e.tells_operateAll ops).submitted, filings_transcript, filings_history]

/-- **No artifact takes the place of another one.** An executor begins with nothing active, and in
what is then done to it no record is changed from outside, all identifiers under which runs are
started are plain, and those of the runs of workflows, of the jobs in each of these and of the steps
in the main stage of each of these are distinct. Then the paths of all artifacts that are handed to
the archive are different, and so are the places to which they lead, wherever the home is. -/
theorem targets_apart_of_history (around : Executor) (home : String) (github : Context.Github)
    (runner : Context.Runner) (secrets : Context.Secrets) (inputs : Context.Inputs)
    (process : ProcessEnvironment) (ops : List Operation) (here : Place) :
    let e : Executor := { around with
      session := .start home github runner secrets inputs process
      submitted := [] }
    (∀ c ∈ e.calls ops, c.edits = false) →
    (∀ c ∈ e.calls ops, ∀ id ∈ c.id?, Plain id) →
    DistinctIds (e.session.events (e.calls ops)) →
      ((e.operateAll ops).submitted.map Artifact.target).Nodup ∧
        ((e.operateAll ops).submitted.map (Path.resolve here ·.target)).Nodup := by
  intro e hedits hplain hdistinct
  have hstarted : Move.startedAll [] ((e.calls ops).map Call.move) =
      addresses (e.session.events (e.calls ops)) := startedAll_eq ..
  have hids : ∀ ids ∈ Move.endedAll [] ((e.calls ops).map Call.move), Addressable ids := by
    intro ids hids
    have hmem := Move.mem_startedAll hids
    rw [hstarted] at hmem
    obtain ⟨hlength, hnames⟩ := of_mem_addresses hmem
    refine ⟨hlength, fun id hid => ?_⟩
    obtain ⟨event, hevent, hcall⟩ := hnames id hid
    exact hplain event.call (Session.call_mem_of_mem_events hevent) id hcall
  have hnodup : (Move.endedAll [] ((e.calls ops).map Call.move)).Nodup := by
    refine Move.nodup_endedAll ?_
    rw [hstarted]
    exact hdistinct.nodup_addresses
  have hplaces := (Session.nodup_places_filingsAll (s := e.session) hedits hids hnodup here).1
  have hsubmitted : (e.operateAll ops).submitted =
      (e.session.filingsAll (e.calls ops)).map Filing.artifact := e.submitted_operateAll ops
  have hapart : ((e.operateAll ops).submitted.map (Path.resolve here ·.target)).Nodup := by
    rw [hsubmitted, List.map_map]
    exact hplaces
  refine ⟨.of_map (Path.resolve here) ?_, hapart⟩
  rw [List.map_map]
  exact hapart

/-- Two runs of one workflow with the same two jobs. The first job has a step that runs in two
stages, and it is replaced by the second one, whose step has the same identifier. -/
theorem targets_apart_of_history_two_runs :
    let result : RunResult := .complete .epoch .epoch
    let around : Executor :=
      ⟨.start "" {} {} ∅ ∅ (.inMemory ∅), .blank, .shelf fun _ _ => none, [], [], false, [], []⟩
    let run (id : String) : List Call := [
      .startWorkflow (.start id { name := "CI", path := "ci.yml" }),
      .startJob { job := { id := "build" } },
      .startStep { step := { id := "setup" }, stage := .pre }, .retireStep result,
      .startStep { step := { id := "setup" } }, .write (.summary "done"), .retireStep result,
      .startJob { job := { id := "test" } }, .startStep { step := { id := "setup" } },
      .retireStep result, .retireJob result, .retireWorkflow result]
    let ops := (run "1" ++ run "2").map Operation.call
    let e : Executor := { around with
      session := .start "/ghx" {} {} ∅ ∅ (.inMemory ∅)
      submitted := [] }
    (∀ c ∈ e.calls ops, c.edits = false) ∧ (∀ c ∈ e.calls ops, ∀ id ∈ c.id?, Plain id) ∧
      DistinctIds (e.session.events (e.calls ops)) ∧
      (e.operateAll ops).submitted.length = 12 ∧
      ((e.operateAll ops).submitted.map Artifact.target).Nodup := by
  intro result around run ops e
  have hedits : ∀ c ∈ e.calls ops, c.edits = false := by decide +kernel
  have hplain : ∀ c ∈ e.calls ops, ∀ id ∈ c.id?, Plain id := by decide +kernel
  have hdistinct : DistinctIds (e.session.events (e.calls ops)) := by decide +kernel
  have hapart := targets_apart_of_history around "/ghx" {} {} ∅ ∅ (.inMemory ∅) ops [] hedits
    hplain hdistinct
  exact ⟨hedits, hplain, hdistinct, by decide +kernel, hapart.1⟩

end Executor

end WorkflowRuns
