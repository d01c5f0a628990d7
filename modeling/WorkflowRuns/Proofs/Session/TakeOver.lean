import WorkflowRuns.Proofs.Session.Calls

/-!
# What the files of a step say

What the four files say (`Written`) determines the variables (`get?_variablesAfter`,
`get?_variablesAfter_path`) and the run of the step (`StepRun.took_foldl`) after it is taken over.
Taking over tells the log and nobody else (`takeOver_onlyLogs`).
-/

namespace WorkflowRuns

open EnvironmentFile

/-! ## What the files say -/

/-- The value that an entry gives to a name. -/
def EnvironmentFile.Entry.valueOf? (name : String) (e : Entry) : Option String :=
  if name = e.name then some e.value else none

/-- The value of a name after entries: that of its last entry, or else the one that it had. -/
def EnvironmentFile.valueAfter (entries : List Entry) (vars : Variables) (name : String) :
    Option String :=
  (latest (Entry.valueOf? name) entries).or (vars.get? name)

/-- What a step wrote to its four files. -/
structure EnvironmentFiles.Written where
  environment : List Entry
  directories : List String
  outputs : List Entry
  summary : String

/-- All four files can be read and decoded, and say what is written. -/
structure EnvironmentFiles.Contents.Say (c : EnvironmentFiles.Contents)
    (w : EnvironmentFiles.Written) : Prop where
  environment : entriesOf c.env = .ok w.environment
  directories : linesOf c.path = .ok w.directories
  outputs : entriesOf c.outputs = .ok w.outputs
  summary : c.summary = .ok w.summary

/-- The files say one thing only. -/
theorem EnvironmentFiles.Contents.Say.unique {c : EnvironmentFiles.Contents}
    {w w' : EnvironmentFiles.Written} (h : c.Say w) (h' : c.Say w') : w = w' := by
  have henvironment := Except.ok.inj (h.environment.symm.trans h'.environment)
  have hdirectories := Except.ok.inj (h.directories.symm.trans h'.directories)
  have houtputs := Except.ok.inj (h.outputs.symm.trans h'.outputs)
  have hsummary := Except.ok.inj (h.summary.symm.trans h'.summary)
  cases w
  cases w'
  simp_all

/-- What is recorded of a step that wrote to its files. -/
def EnvironmentFiles.Written.writes (w : EnvironmentFiles.Written) : List StepWrite :=
  w.environment.map (fun e => .environment e.name e.value) ++ (w.directories.map .path ++
    (w.outputs.map (fun e => .output e.name e.value) ++ [.summary w.summary]))

/-! ## The run of the step -/

/-- The run of a step after everything that is written was taken over: variables and outputs by
their last entries, directories after those before, the summary in place of the one before, and
nothing else. -/
structure StepRun.Took (before : StepRun) (w : EnvironmentFiles.Written) (after : StepRun) :
    Prop where
  environment : ∀ name, after.environment.get? name =
    valueAfter w.environment before.environment name
  outputs : ∀ name, after.outputs.get? name = valueAfter w.outputs before.outputs name
  rest : after = { before with
    environment := after.environment
    outputs := after.outputs
    path := before.path ++ w.directories
    summary := w.summary }

namespace EnvironmentFiles.Written

variable (w : EnvironmentFiles.Written) (name : String)

theorem latest_environment :
    latest (StepWrite.environment? name) w.writes = latest (Entry.valueOf? name) w.environment := by
  simp [writes, latest_append, latest_cons, latest_map, StepWrite.environment?]
  rfl

theorem latest_output :
    latest (StepWrite.output? name) w.writes = latest (Entry.valueOf? name) w.outputs := by
  simp [writes, latest_append, latest_cons, latest_map, StepWrite.output?]
  rfl

theorem latest_state : latest (StepWrite.state? name) w.writes = none := by
  simp [writes, latest_append, latest_cons, latest_map, StepWrite.state?]

theorem latest_results : latest StepWrite.results? w.writes = none := by
  simp [writes, latest_append, latest_cons, latest_map, StepWrite.results?]

theorem latest_summary : latest StepWrite.summary? w.writes = some w.summary := by
  simp [writes, latest_append, latest_cons, StepWrite.summary?]

theorem filterMap_path : w.writes.filterMap StepWrite.path? = w.directories := by
  have hnone (entries : List Entry) : entries.filterMap (fun _ => (none : Option String)) = [] :=
    List.filterMap_eq_nil_iff.2 fun _ _ => rfl
  have hsummary : [StepWrite.summary w.summary].filterMap StepWrite.path? = [] := rfl
  simp [writes, List.filterMap_append, List.filterMap_map, Function.comp_def, StepWrite.path?,
    hnone, hsummary]

end EnvironmentFiles.Written

theorem StepRun.took_foldl (before : StepRun) (w : EnvironmentFiles.Written) :
    before.Took w (w.writes.foldl write before) := by
  have h := before.wrote_foldl w.writes
  generalize w.writes.foldl write before = after at h
  refine ⟨fun name => ?_, fun name => ?_, ?_⟩
  · rw [h.environment, w.latest_environment, valueAfter]
  · rw [h.outputs, w.latest_output, valueAfter]
  · have hstate : after.state = before.state := by
      refine Dict.ext_get? fun name => ?_
      rw [h.state, w.latest_state, Option.none_or]
    have hpath := h.path
    have hsummary := h.summary
    have hresults := h.results
    rw [w.filterMap_path] at hpath
    rw [w.latest_summary, Option.getD_some] at hsummary
    rw [w.latest_results, Option.getD_none] at hresults
    obtain ⟨hconclusion, houtcome⟩ := Prod.mk.inj hresults
    obtain ⟨hstep, hstage⟩ := And.intro h.step h.stage
    cases after
    simp_all

/-! ## The variables -/

/-- Of entries that are set one after the other the last counts. -/
theorem get?_insertAll_entries (vars : Variables) (entries : List Entry) (name : String) :
    (vars.insertAll (entries.map fun e => (e.name, e.value))).get? name =
      valueAfter entries vars name := by
  induction entries generalizing vars with
  | nil => rfl
  | cons e entries ih =>
    rw [List.map_cons, Dict.insertAll_cons, ih, valueAfter, valueAfter, latest_cons,
      Option.or_assoc, Dict.get?_insert]
    unfold Entry.valueOf?
    by_cases h : name = e.name <;> simp [h]

namespace EnvironmentFiles.Written

/-- The variables of the processes that are started after the step. -/
def variablesAfter (w : EnvironmentFiles.Written) (vars : Variables) : Variables :=
  let set := vars.insertAll (w.environment.map fun e => (e.name, e.value))
  if w.directories = [] then set
  else
    set.insert Session.pathName
      (PathList.append ((set.get? Session.pathName).getD "") w.directories)

variable (w : EnvironmentFiles.Written) (vars : Variables)

theorem get?_variablesAfter {name : String} (h : name ≠ Session.pathName) :
    (w.variablesAfter vars).get? name = valueAfter w.environment vars name := by
  unfold variablesAfter
  by_cases hd : w.directories = []
  · rw [if_pos hd, get?_insertAll_entries]
  · rw [if_neg hd, Dict.get?_insert_of_ne _ _ h, get?_insertAll_entries]

/-- Directories go to the end of the search path as the entries have left it. -/
theorem get?_variablesAfter_path : (w.variablesAfter vars).get? Session.pathName =
    if w.directories = [] then valueAfter w.environment vars Session.pathName
    else
      some (PathList.append ((valueAfter w.environment vars Session.pathName).getD "")
        w.directories) := by
  unfold variablesAfter
  by_cases hd : w.directories = []
  · rw [if_pos hd, if_pos hd, get?_insertAll_entries]
  · rw [if_neg hd, if_neg hd, Dict.get?_insert_self, get?_insertAll_entries]

end EnvironmentFiles.Written

/-! ## What is told -/

namespace Outcome

/-- All that an outcome tells goes to the log. -/
def OnlyLogs (o : Outcome) : Prop := ∃ events : List LogEvent, o.notices = events.map .log

theorem onlyLogs_of_map {α : Type} {o : Outcome} {l : List α} {event : α → LogEvent}
    (h : o.notices = l.map fun a => .log (event a)) : o.OnlyLogs :=
  ⟨l.map event, by rw [h, List.map_map]; rfl⟩

theorem OnlyLogs.after {o : Outcome} {notices : List Notice} (h : o.OnlyLogs)
    (hn : ∃ events : List LogEvent, notices = events.map .log) : (o.after notices).OnlyLogs := by
  obtain ⟨events, h⟩ := h
  obtain ⟨earlier, rfl⟩ := hn
  refine ⟨earlier ++ events, ?_⟩
  rw [List.map_append, ← h]
  rfl

theorem OnlyLogs.andThen {o : Outcome} {next : Session → Outcome} (h : o.OnlyLogs)
    (hnext : ∀ s, (next s).OnlyLogs) : (o.andThen next).OnlyLogs := by
  unfold Outcome.andThen
  split
  · exact (hnext o.session).after h
  · exact h

end Outcome

namespace Session

theorem takeVariables_onlyLogs (s : Session) (entries : List Entry) :
    (s.takeVariables entries).OnlyLogs := by
  induction entries generalizing s with
  | nil => exact ⟨[], rfl⟩
  | cons e entries ih =>
    unfold takeVariables
    split
    · exact ⟨[_], rfl⟩
    · exact (ih _).after ⟨[_], rfl⟩

theorem takePath_onlyLogs (s : Session) (entries : List String) :
    (s.takePath entries).OnlyLogs := by
  unfold takePath
  split
  · exact ⟨[], rfl⟩
  · dsimp only
    split
    · exact ⟨[], rfl⟩
    · exact Outcome.onlyLogs_of_map (l := entries) rfl

theorem takeOutputs_onlyLogs (s : Session) (entries : List Entry) :
    (s.takeOutputs entries).OnlyLogs := Outcome.onlyLogs_of_map (l := entries) rfl

theorem takeFrom_onlyLogs {α : Type} {s : Session} {file : String} {content : Except Failure α}
    {take : Session → α → Outcome} (h : ∀ a, (take s a).OnlyLogs) :
    (s.takeFrom file content take).OnlyLogs := by
  cases content with
  | ok a => exact h a
  | error e => exact ⟨[], rfl⟩

/-- Taking over tells the log and nobody else, whether it goes through or not. -/
theorem takeOver_onlyLogs (s : Session) (c : EnvironmentFiles.Contents) :
    (s.takeOver c).OnlyLogs := by
  unfold takeOver
  split
  · exact ⟨[], rfl⟩
  · exact (takeFrom_onlyLogs (takeVariables_onlyLogs s)).andThen fun s =>
      (takeFrom_onlyLogs (takePath_onlyLogs s)).andThen fun s =>
        (takeFrom_onlyLogs (takeOutputs_onlyLogs s)).andThen fun s =>
          takeFrom_onlyLogs fun _ => ⟨[], rfl⟩

end Session

end WorkflowRuns
