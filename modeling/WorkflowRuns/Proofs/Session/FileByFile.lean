import Mathlib.Data.List.TakeWhile
import WorkflowRuns.Proofs.Session.Assignments

/-!
# Taking over file by file

The four files are taken over one after the other, up to the first that cannot be read or decoded
(`Contents.StopsAt`). On the way some variables are set (`Contents.assignments`). If none of them is
refused, that file alone decides the answer (`takeOver_reply`), all that the files before it say has
been taken over, and nothing else (`takeOver_of_stopsAt`).
-/

namespace WorkflowRuns

open EnvironmentFile

/-! ## The first file that fails -/

namespace EnvironmentFiles

/-- One of the four files. They are taken over in this order. -/
inductive Part where
  | env
  | path
  | outputs
  | summary

namespace Part

/-- The files that are taken over before a file. -/
def earlier : Part → List Part
  | env => []
  | path => [env]
  | outputs => [env, path]
  | summary => [env, path, outputs]

/-- What was being done when a file failed. -/
def activity : Part → String
  | env => "Failed to process env file"
  | path => "Failed to process path file"
  | outputs => "Failed to process output file"
  | summary => "Failed to process step summary file"

end Part

/-- The failure of what failed. -/
def failure? {α : Type} : Except Failure α → Option Failure
  | .ok _ => none
  | .error f => some f

theorem failure?_eq_some_iff {α : Type} {r : Except Failure α} {f : Failure} :
    failure? r = some f ↔ r = .error f := by
  cases r <;> simp [failure?]

theorem failure?_eq_none_iff {α : Type} {r : Except Failure α} :
    failure? r = none ↔ ∃ a, r = .ok a := by
  cases r <;> simp [failure?]

namespace Contents

/-- Why a file cannot be read or decoded, if it cannot. -/
def trouble? (c : Contents) : Part → Option Failure
  | .env => failure? (entriesOf c.env)
  | .path => failure? (linesOf c.path)
  | .outputs => failure? (entriesOf c.outputs)
  | .summary => failure? c.summary

/-- A file is the first that cannot be read or decoded. -/
structure StopsAt (c : Contents) (part : Part) (f : Failure) : Prop where
  here : c.trouble? part = some f
  earlier : ∀ q ∈ part.earlier, c.trouble? q = none

/-- What the lines or entries of a file say; nothing, if it failed. -/
def said {α : Type} : Except Failure (List α) → List α
  | .ok l => l
  | .error _ => []

/-- What the files before a file say, while the summary is the one that there was. -/
def saidBefore (c : Contents) (part : Part) (summary : String) : Written :=
  match part with
  | .env => ⟨[], [], [], summary⟩
  | .path => ⟨said (entriesOf c.env), [], [], summary⟩
  | .outputs => ⟨said (entriesOf c.env), said (linesOf c.path), [], summary⟩
  | .summary =>
    ⟨said (entriesOf c.env), said (linesOf c.path), said (entriesOf c.outputs), summary⟩

/-- The answer, if every variable can be set. -/
def verdict (c : Contents) : Reply :=
  match entriesOf c.env, linesOf c.path, entriesOf c.outputs, c.summary with
  | .error f, _, _, _ => .failed (f.during Part.env.activity)
  | .ok _, .error f, _, _ => .failed (f.during Part.path.activity)
  | .ok _, .ok _, .error f, _ => .failed (f.during Part.outputs.activity)
  | .ok _, .ok _, .ok _, .error f => .failed (f.during Part.summary.activity)
  | .ok _, .ok _, .ok _, .ok _ => .done

variable {c : Contents} {part : Part} {f : Failure} {w : Written}

/-- The four results in the order of the files, up to the one that failed. -/
theorem StopsAt.results (h : c.StopsAt part f) :
    match part with
    | .env => entriesOf c.env = .error f
    | .path => (∃ es, entriesOf c.env = .ok es) ∧ linesOf c.path = .error f
    | .outputs => (∃ es, entriesOf c.env = .ok es) ∧ (∃ ls, linesOf c.path = .ok ls) ∧
        entriesOf c.outputs = .error f
    | .summary => (∃ es, entriesOf c.env = .ok es) ∧ (∃ ls, linesOf c.path = .ok ls) ∧
        (∃ es, entriesOf c.outputs = .ok es) ∧ c.summary = .error f := by
  obtain ⟨here, earlier⟩ := h
  cases part <;>
    simpa [trouble?, Part.earlier, failure?_eq_some_iff, failure?_eq_none_iff, and_assoc] using
      And.intro earlier here

theorem verdict_of_stopsAt (h : c.StopsAt part f) :
    c.verdict = .failed (f.during part.activity) := by
  have hresults := h.results
  cases part with
  | env =>
    simp only [verdict, hresults]
  | path =>
    obtain ⟨⟨es, henv⟩, hpath⟩ := hresults
    simp only [verdict, henv, hpath]
  | outputs =>
    obtain ⟨⟨es, henv⟩, ⟨ls, hpath⟩, houtputs⟩ := hresults
    simp only [verdict, henv, hpath, houtputs]
  | summary =>
    obtain ⟨⟨es, henv⟩, ⟨ls, hpath⟩, ⟨os, houtputs⟩, hsummary⟩ := hresults
    simp only [verdict, henv, hpath, houtputs, hsummary]

theorem verdict_of_say (h : c.Say w) : c.verdict = .done := by
  simp only [verdict, h.environment, h.directories, h.outputs, h.summary]

/-- Only one file is the first that fails. -/
theorem StopsAt.unique {part' : Part} {f' : Failure} (h : c.StopsAt part f)
    (h' : c.StopsAt part' f') : part = part' ∧ f = f' := by
  have hboth := Reply.failed.inj ((verdict_of_stopsAt h).symm.trans (verdict_of_stopsAt h'))
  obtain ⟨contexts, cause⟩ := f
  obtain ⟨contexts', cause'⟩ := f'
  obtain ⟨hcontexts, hcause⟩ := Failure.mk.inj hboth
  obtain ⟨hactivity, hcontexts⟩ := List.cons.inj hcontexts
  have hpart : part = part' := by
    cases part <;> cases part' <;> first | rfl | exact absurd hactivity (by decide)
  exact ⟨hpart, congrArg₂ Failure.mk hcontexts hcause⟩

/-- Either a file fails or the files say something. -/
theorem stopsAt_or_say (c : Contents) : (∃ part f, c.StopsAt part f) ∨ ∃ w, c.Say w := by
  cases henv : entriesOf c.env with
  | error f => exact .inl ⟨.env, f, by simp [trouble?, henv, failure?], by simp [Part.earlier]⟩
  | ok es =>
  have henv? : c.trouble? .env = none := failure?_eq_none_iff.2 ⟨es, henv⟩
  cases hpath : linesOf c.path with
  | error f =>
    exact .inl ⟨.path, f, failure?_eq_some_iff.2 hpath, by simpa [Part.earlier] using henv?⟩
  | ok ls =>
  have hpath? : c.trouble? .path = none := failure?_eq_none_iff.2 ⟨ls, hpath⟩
  cases houtputs : entriesOf c.outputs with
  | error f =>
    exact .inl ⟨.outputs, f, failure?_eq_some_iff.2 houtputs,
      by simpa [Part.earlier] using ⟨henv?, hpath?⟩⟩
  | ok os =>
  have houtputs? : c.trouble? .outputs = none := failure?_eq_none_iff.2 ⟨os, houtputs⟩
  cases hsummary : c.summary with
  | error f =>
    exact .inl ⟨.summary, f, failure?_eq_some_iff.2 hsummary,
      by simpa [Part.earlier] using ⟨henv?, hpath?, houtputs?⟩⟩
  | ok text => exact .inr ⟨⟨es, ls, os, text⟩, henv, hpath, houtputs, hsummary⟩

theorem verdict_done_iff (c : Contents) : c.verdict = .done ↔ ∃ w, c.Say w := by
  refine ⟨fun h => ?_, fun ⟨w, hw⟩ => verdict_of_say hw⟩
  rcases c.stopsAt_or_say with ⟨part, f, hstops⟩ | hsay
  · rw [verdict_of_stopsAt hstops] at h
    cases h
  · exact hsay

theorem verdict_failed_iff (c : Contents) : c.verdict = .failed f ↔
    ∃ part g, c.StopsAt part g ∧ f = g.during part.activity := by
  constructor
  · intro h
    rcases c.stopsAt_or_say with ⟨part, g, hstops⟩ | ⟨w, hw⟩
    · rw [verdict_of_stopsAt hstops] at h
      exact ⟨part, g, hstops, (Reply.failed.inj h).symm⟩
    · rw [verdict_of_say hw] at h
      cases h
  · rintro ⟨part, g, hstops, rfl⟩
    exact verdict_of_stopsAt hstops

end Contents

end EnvironmentFiles

/-! ## The variables that are set -/

namespace EnvironmentFiles

variable {c : Contents} {part : Part} {f : Failure} {w : Written}

theorem Contents.assignments_of_stopsAt (h : c.StopsAt part f) (process : ProcessEnvironment)
    (summary : String) : c.assignments process = Session.assignments process
      (c.saidBefore part summary).environment (c.saidBefore part summary).directories := by
  have hresults := h.results
  cases part with
  | env =>
    simp only [assignments, hresults]
    rfl
  | path =>
    obtain ⟨⟨es, henv⟩, hpath⟩ := hresults
    simp only [assignments, saidBefore, henv, hpath]
    exact (List.append_nil _).symm
  | outputs =>
    obtain ⟨⟨es, henv⟩, ⟨ls, hpath⟩, -⟩ := hresults
    simp only [assignments, saidBefore, henv, hpath]
    rfl
  | summary =>
    obtain ⟨⟨es, henv⟩, ⟨ls, hpath⟩, -⟩ := hresults
    simp only [assignments, saidBefore, henv, hpath]
    rfl

theorem Contents.assignments_of_say (h : c.Say w) (process : ProcessEnvironment) :
    c.assignments process = Session.assignments process w.environment w.directories := by
  simp only [assignments, h.environment, h.directories]

end EnvironmentFiles

namespace Session

variable {p : ProcessEnvironment}

/-- What is written and not refused leads to the variables that it says. -/
theorem setAll_assignments {w : EnvironmentFiles.Written}
    (h : (setAll p (assignments p w.environment w.directories)).2 = true) :
    (setAll p (assignments p w.environment w.directories)).1 =
      { p with vars := w.variablesAfter p.vars } := by
  have hvariables := (setAll_assignments_complete_iff.1 h).1
  have hpath (vars : Variables) :
      ({ p with vars := vars } : ProcessEnvironment).get? pathName = vars.get? pathName :=
    ProcessEnvironment.get?_of_holdsName _ pathName_holdsName
  rw [setAll_of_complete h, assignments, setAll_of_complete hvariables, Dict.insertAll_append,
    pathAssignment, hpath, EnvironmentFiles.Written.variablesAfter]
  by_cases hd : w.directories = []
  · rw [if_pos hd, if_pos hd]
    rfl
  · rw [if_neg hd, if_neg hd]
    rfl

/-! ## The answer -/

variable {s : Session} {c : EnvironmentFiles.Contents}

/-- The answer of what sets variables, all or not. -/
def settingReply (complete : Bool) : Reply := if complete then .done else .aborted

theorem takeVariables_reply (s : Session) (entries : List Entry) :
    (s.takeVariables entries).reply = settingReply (setAll s.process (pairs entries)).2 := by
  induction entries generalizing s with
  | nil => rfl
  | cons e entries ih =>
    rw [takeVariables, pairs, List.map_cons, setAll]
    cases s.process.set? e.name e.value with
    | none => rfl
    | some process => exact ih _

theorem takePath_reply (s : Session) (directories : List String) :
    (s.takePath directories).reply =
      settingReply (setAll s.process (pathAssignment s.process directories)).2 := by
  unfold takePath pathAssignment
  by_cases hd : directories = []
  · rw [if_pos hd, if_pos hd]
    rfl
  · rw [if_neg hd, if_neg hd]
    dsimp only [setAll]
    cases s.process.set? pathName
      (PathList.append ((s.process.get? pathName).getD "") directories) <;> rfl

theorem takeVariables_process (s : Session) (entries : List Entry) :
    (s.takeVariables entries).session.process = (setAll s.process (pairs entries)).1 := by
  rw [(s.takeVariables_hands entries).1]
  rfl

theorem andThen_reply {o : Outcome} {complete : Bool} (h : o.reply = settingReply complete)
    (next : Session → Outcome) : (o.andThen next).reply =
      if complete then (next o.session).reply else .aborted := by
  unfold Outcome.andThen
  rw [h]
  cases complete with
  | false => exact h
  | true => rfl

/-- What the last two files come to. They set nothing. -/
theorem takeRest_reply (s : Session) (c : EnvironmentFiles.Contents) :
    ((s.takeFrom "output" (entriesOf c.outputs) takeOutputs).andThen fun s =>
      s.takeFrom "step summary" c.summary takeSummary).reply =
      match entriesOf c.outputs, c.summary with
      | .error f, _ => .failed (f.during EnvironmentFiles.Part.outputs.activity)
      | .ok _, .error f => .failed (f.during EnvironmentFiles.Part.summary.activity)
      | .ok _, .ok _ => .done := by
  cases entriesOf c.outputs with
  | error f => rfl
  | ok outputs => cases c.summary <;> rfl

/-- If every variable can be set, the first file that fails decides the answer; if none does, taking
over is done. It breaks off if a variable is refused. -/
theorem takeOver_reply (hs : s.stepRun.isSome = true) (c : EnvironmentFiles.Contents) :
    (s.takeOver c).reply =
      if (setAll s.process (c.assignments s.process)).2 then c.verdict else .aborted := by
  unfold EnvironmentFiles.Contents.assignments EnvironmentFiles.Contents.verdict
  rw [takeOver_of_isSome hs]
  cases henv : entriesOf c.env with
  | error f => rfl
  | ok entries =>
  rw [takeFrom, andThen_reply (s.takeVariables_reply entries)]
  cases hpath : linesOf c.path with
  | error f =>
    cases (setAll s.process (pairs entries)).2 <;> rfl
  | ok directories =>
    have hpathReply := (s.takeVariables entries).session.takePath_reply directories
    rw [takeVariables_process] at hpathReply
    simp only [assignments, setAll_append]
    cases hset : (setAll s.process (pairs entries)).2 with
    | false => simp [hset]
    | true =>
      rw [if_pos rfl, if_pos rfl, takeFrom, andThen_reply hpathReply, takeRest_reply]
      cases entriesOf c.outputs <;> cases c.summary <;> rfl

/-- What does not break off sets every variable. -/
theorem takeOver_reply_of_ne_aborted (hs : s.stepRun.isSome = true)
    (h : (s.takeOver c).reply ≠ .aborted) :
    (setAll s.process (c.assignments s.process)).2 = true ∧ (s.takeOver c).reply = c.verdict := by
  rw [takeOver_reply hs] at h ⊢
  by_cases hset : (setAll s.process (c.assignments s.process)).2 = true
  · exact ⟨hset, if_pos hset⟩
  · exact absurd (if_neg hset) h

end Session

/-! ## What is taken over -/

/-- What is recorded of a step before the summary. -/
def EnvironmentFiles.Written.front (w : EnvironmentFiles.Written) : List StepWrite :=
  w.environment.map (fun e => .environment e.name e.value) ++ (w.directories.map .path ++
    w.outputs.map fun e => .output e.name e.value)

theorem EnvironmentFiles.Written.writes_eq (w : EnvironmentFiles.Written) :
    w.writes = w.front ++ [.summary w.summary] := by
  simp [writes, front]

namespace Handover

variable {p : ProcessEnvironment} {c : EnvironmentFiles.Contents} {part : EnvironmentFiles.Part}
  {f : Failure} {w : EnvironmentFiles.Written}

theorem ofVariables_of_complete {entries : List Entry}
    (h : (Session.setAll p (pairs entries)).2 = true) :
    ofVariables p entries = ⟨(Session.setAll p (pairs entries)).1,
      entries.map fun e => .environment e.name e.value, true⟩ := by
  have haccepts : (entries.takeWhile fun e => p.accepts e.name e.value) = entries := by
    refine List.takeWhile_eq_self_iff.2 fun e he => ?_
    exact ProcessEnvironment.accepts_of_setAll h _ (List.mem_map.2 ⟨e, he, rfl⟩)
  unfold ofVariables
  dsimp only
  rw [haccepts]
  show Handover.mk _ _ (Session.setAll p (pairs entries)).2 = _
  rw [h]
  rfl

/-- What is recorded if nothing is refused of the first two files. -/
theorem writes_of_complete {entries : List Entry} {directories : List String}
    (henv : entriesOf c.env = .ok entries) (hpath : linesOf c.path = .ok directories)
    (hset : (Session.setAll p (Session.assignments p entries directories)).2 = true) :
    (ofContents p c).writes =
      entries.map (fun e => .environment e.name e.value) ++ (directories.map .path ++
        match entriesOf c.outputs, c.summary with
        | .error _, _ => []
        | .ok outputs, .error _ => outputs.map fun e => .output e.name e.value
        | .ok outputs, .ok text =>
          outputs.map (fun e => .output e.name e.value) ++ [.summary text]) := by
  obtain ⟨hvariables, hpathSet⟩ := Session.setAll_assignments_complete_iff.1 hset
  simp only [ofContents, henv, hpath, ofFile, ofVariables_of_complete hvariables, ofPath_eq,
    hpathSet, next, if_true]
  cases entriesOf c.outputs with
  | error => simp
  | ok => cases c.summary <;> simp [ofOutputs, ofSummary]

/-- If nothing is refused, what the files before one that fails say is recorded. -/
theorem writes_of_stopsAt (hset : (Session.setAll p (c.assignments p)).2 = true)
    (h : c.StopsAt part f) (summary : String) :
    (ofContents p c).writes = (c.saidBefore part summary).front := by
  have hresults := h.results
  unfold EnvironmentFiles.Contents.assignments at hset
  unfold EnvironmentFiles.Written.front EnvironmentFiles.Contents.saidBefore
  cases part with
  | env =>
    rw [ofContents, hresults]
    rfl
  | path =>
    obtain ⟨⟨es, henv⟩, hpath⟩ := hresults
    simp only [henv, hpath] at hset
    simp only [ofContents, henv, hpath, ofFile, ofVariables_of_complete hset, next]
    rfl
  | outputs =>
    obtain ⟨⟨es, henv⟩, ⟨ls, hpath⟩, houtputs⟩ := hresults
    simp only [henv, hpath] at hset
    rw [writes_of_complete henv hpath hset, henv, hpath, houtputs]
    rfl
  | summary =>
    obtain ⟨⟨es, henv⟩, ⟨ls, hpath⟩, ⟨os, houtputs⟩, hsummary⟩ := hresults
    simp only [henv, hpath] at hset
    rw [writes_of_complete henv hpath hset, henv, hpath, houtputs, hsummary]
    rfl

theorem writes_of_say (hset : (Session.setAll p (c.assignments p)).2 = true)
    (h : c.Say w) : (ofContents p c).writes = w.writes := by
  rw [c.assignments_of_say h] at hset
  rw [writes_of_complete h.environment h.directories hset, h.outputs, h.summary]
  rfl

theorem of_mem_writes_next {h : Handover} {g : ProcessEnvironment → Handover} {write : StepWrite}
    (hmem : write ∈ (h.next g).writes) : write ∈ h.writes ∨ write ∈ (g h.process).writes := by
  unfold next at hmem
  split at hmem
  · exact List.mem_append.1 hmem
  · exact .inl hmem

/-- Outputs that cannot be decoded leave variables and directories to record, whether one of them is
refused or not. -/
theorem of_mem_writes_of_outputs_error (h : entriesOf c.outputs = .error f) {write : StepWrite}
    (hmem : write ∈ (ofContents p c).writes) :
    (∃ name value, write = .environment name value) ∨ ∃ directory, write = .path directory := by
  unfold ofContents at hmem
  rcases of_mem_writes_next hmem with hmem | hmem
  · left
    cases henv : entriesOf c.env with
    | error => simp [ofFile, henv] at hmem
    | ok entries =>
      rw [henv] at hmem
      obtain ⟨e, -, rfl⟩ := List.mem_map.1 hmem
      exact ⟨_, _, rfl⟩
  rcases of_mem_writes_next hmem with hmem | hmem
  · right
    cases hpath : linesOf c.path with
    | error => simp [ofFile, hpath] at hmem
    | ok directories =>
      rw [hpath, ofFile, ofPath_eq] at hmem
      dsimp only at hmem
      split at hmem
      · obtain ⟨directory, -, rfl⟩ := List.mem_map.1 hmem
        exact ⟨_, rfl⟩
      · cases hmem
  · simp [h, ofFile, next] at hmem

end Handover

/-- Variables after what is written was taken over: by their last entries, and the directories at
the end of the search path as the entries have left it. -/
structure Variables.Took (before : Variables) (w : EnvironmentFiles.Written) (after : Variables) :
    Prop where
  others : ∀ name, name ≠ Session.pathName → after.get? name = valueAfter w.environment before name
  path : after.get? Session.pathName =
    if w.directories = [] then valueAfter w.environment before Session.pathName
    else
      some (PathList.append ((valueAfter w.environment before Session.pathName).getD "")
        w.directories)

theorem Variables.took_variablesAfter (before : Variables) (w : EnvironmentFiles.Written) :
    before.Took w (w.variablesAfter before) where
  others _ h := w.get?_variablesAfter before h
  path := w.get?_variablesAfter_path before

/-- What is recorded before the summary leaves the summary as it is, so writing that one again
changes nothing. -/
theorem StepRun.took_front {before : StepRun} {w : EnvironmentFiles.Written}
    (h : w.summary = before.summary) : before.Took w (w.front.foldl write before) := by
  have htook := before.took_foldl w
  have hsummary := (before.wrote_foldl w.front).summary
  have hnone : latest StepWrite.summary? w.front = none := by
    simp [EnvironmentFiles.Written.front, latest_append, latest_map, StepWrite.summary?]
  rw [hnone, Option.getD_none] at hsummary
  rw [w.writes_eq, List.foldl_append, h, ← hsummary] at htook
  exact htook

namespace Session

/-- What is written reaches the variables of the processes that are started and the run of the
active step, and nothing else changes. -/
def Took (s : Session) (w : EnvironmentFiles.Written) (t : Session) : Prop :=
  ∃ step vars' step', s.stepRun = some step ∧ s.process.vars.Took w vars' ∧ step.Took w step' ∧
    t = { s with process := { s.process with vars := vars' }, stepRun := some step' }

variable {s : Session} {step : StepRun} {c : EnvironmentFiles.Contents}
  {part : EnvironmentFiles.Part} {f : Failure} {w : EnvironmentFiles.Written}

/-- If no variable is refused, taking over takes what the files before one that fails say. -/
theorem takeOver_of_stopsAt (hs : s.stepRun = some step)
    (hset : (setAll s.process (c.assignments s.process)).2 = true) (h : c.StopsAt part f) :
    s.Took (c.saidBefore part step.summary) (s.takeOver c).session := by
  have hsummary : (c.saidBefore part step.summary).summary = step.summary := by cases part <;> rfl
  refine ⟨step, _, _, hs, s.process.vars.took_variablesAfter _, StepRun.took_front hsummary, ?_⟩
  rw [takeOver_session hs, Handover.writes_of_stopsAt hset h step.summary,
    Handover.ofContents_process]
  rw [c.assignments_of_stopsAt h s.process step.summary] at hset ⊢
  rw [setAll_assignments hset]

/-- If no variable is refused and no file fails, all is taken over. -/
theorem takeOver_session_of_say (hs : s.stepRun = some step)
    (hset : (setAll s.process (c.assignments s.process)).2 = true) (h : c.Say w) :
    (s.takeOver c).session = { s with
      process := { s.process with vars := w.variablesAfter s.process.vars }
      stepRun := some (w.writes.foldl StepRun.write step) } := by
  rw [takeOver_session hs, Handover.writes_of_say hset h, Handover.ofContents_process]
  rw [c.assignments_of_say h] at hset ⊢
  rw [setAll_assignments hset]

theorem takeOver_of_say (hs : s.stepRun = some step)
    (hset : (setAll s.process (c.assignments s.process)).2 = true) (h : c.Say w) :
    s.Took w (s.takeOver c).session :=
  ⟨step, _, _, hs, s.process.vars.took_variablesAfter w, step.took_foldl w,
    takeOver_session_of_say hs hset h⟩

/-- In memory taking over is done if and only if the four files can be read and decoded. -/
theorem takeOver_reply_done_iff {vars : Variables} (hs : s.stepRun = some step)
    (hp : s.process = .inMemory vars) (c : EnvironmentFiles.Contents) :
    (s.takeOver c).reply = .done ↔ ∃ w, c.Say w := by
  have hsome : s.stepRun.isSome = true := by rw [hs]; rfl
  rw [takeOver_reply hsome, hp, setAll_inMemory, if_pos rfl]
  exact c.verdict_done_iff

theorem takeOver_session_inMemory {vars : Variables} (hs : s.stepRun = some step)
    (hp : s.process = .inMemory vars) (h : c.Say w) :
    (s.takeOver c).session = { s with
      process := .inMemory (w.variablesAfter vars)
      stepRun := some (w.writes.foldl StepRun.write step) } := by
  have hset : (setAll s.process (c.assignments s.process)).2 = true := by
    rw [hp, setAll_inMemory]
  rw [takeOver_session_of_say hs hset h, hp]
  rfl

/-- A file for variables that cannot be read or decoded leaves everything as it is. -/
theorem takeOver_of_env_error (hs : s.stepRun = some step) (h : entriesOf c.env = .error f) :
    s.takeOver c = .refused s (f.during EnvironmentFiles.Part.env.activity) := by
  rw [takeOver_of_isSome (by rw [hs]; rfl), h]
  rfl

/-- Outputs that cannot be decoded leave those of the step as they are, and its summary. -/
theorem takeOver_of_outputs_error (hs : s.stepRun = some step)
    (h : entriesOf c.outputs = .error f) : ∃ step', (s.takeOver c).session.stepRun = some step' ∧
      step'.outputs = step.outputs ∧ step'.summary = step.summary := by
  rw [takeOver_session hs]
  have hwrote := step.wrote_foldl (Handover.ofContents s.process c).writes
  have hnone {β : Type} {value? : StepWrite → Option β}
      (henv : ∀ name value, value? (.environment name value) = none)
      (hpath : ∀ directory, value? (.path directory) = none) :
      latest value? (Handover.ofContents s.process c).writes = none := by
    refine List.findSome?_eq_none_iff.2 fun write hmem => ?_
    rcases Handover.of_mem_writes_of_outputs_error h (List.mem_reverse.1 hmem) with
      ⟨name, value, rfl⟩ | ⟨directory, rfl⟩
    · exact henv name value
    · exact hpath directory
  refine ⟨_, rfl, Dict.ext_get? fun name => ?_, ?_⟩
  · rw [hwrote.outputs, hnone (fun _ _ => rfl) fun _ => rfl, Option.none_or]
  · rw [hwrote.summary, hnone (fun _ _ => rfl) fun _ => rfl, Option.getD_none]

/-- Files that say nothing leave nothing but an empty summary. -/
theorem takeOver_of_say_nothing (hs : s.stepRun = some step) (h : c.Say ⟨[], [], [], ""⟩) :
    s.takeOver c = .done { s with stepRun := some { step with summary := "" } } [] := by
  rw [takeOver_of_isSome (by rw [hs]; rfl), h.environment, h.directories, h.outputs, h.summary]
  cases s
  cases hs
  rfl

end Session

end WorkflowRuns
