import Mathlib.Data.List.TakeWhile
import WorkflowRuns.Proofs.Session.Assignments

/-!
# The `github` context in the process environment

Starting a workflow hands the `github` context on as variables, but nothing that is empty. So a
variable has the value that was handed on last (`get?_performAll`). It mirrors the context unless
the field is empty and something was handed on before (`exports_of_history`).
-/

namespace WorkflowRuns

open EnvironmentFile

/-- The names under which the `github` context is handed on. -/
def Context.Github.exportNames : List String := (exports {}).map Prod.fst

theorem Context.Github.nodup_exportNames : exportNames.Nodup := by decide +kernel

theorem Context.Github.holdsName_of_mem_exportNames :
    ∀ name ∈ exportNames, Variables.holdsName name = true ∧ name ≠ Session.pathName := by
  decide +kernel

theorem Context.Github.map_exports (g : Github) : g.exports.map Prod.fst = exportNames := rfl

/-! ## Setting variables -/

/-- The value that an assignment gives to a name. -/
def assigned? (name : String) (e : String × String) : Option String :=
  if name = e.1 then some e.2 else none

theorem latest_assigned?_eq_none {name : String} {l : List (String × String)}
    (h : ∀ e ∈ l, e.1 ≠ name) : latest (assigned? name) l = none := by
  induction l with
  | nil => rfl
  | cons e l ih =>
    have hhead : assigned? name e = none := if_neg (h e List.mem_cons_self).symm
    rw [latest_cons, ih fun e he => h e (List.mem_cons_of_mem _ he), hhead]
    rfl

/-- Where no name comes twice, the value of a name is that of its only assignment. -/
theorem latest_assigned?_filter {name value : String} {l : List (String × String)}
    (hnodup : (l.map Prod.fst).Nodup) (h : (name, value) ∈ l) (p : String × String → Bool) :
    latest (assigned? name) (l.filter p) = if p (name, value) then some value else none := by
  induction l with
  | nil => cases h
  | cons e l ih =>
    rw [List.map_cons, List.nodup_cons] at hnodup
    obtain ⟨hhead, htail⟩ := hnodup
    rcases List.mem_cons.1 h with rfl | h
    · have hrest : latest (assigned? name) (l.filter p) = none := by
        refine latest_assigned?_eq_none fun e he hname => hhead ?_
        exact List.mem_map.2 ⟨e, (List.mem_filter.1 he).1, hname⟩
      by_cases hp : p (name, value) = true
      · rw [List.filter_cons_of_pos hp, latest_cons, hrest, if_pos hp]
        simp [assigned?]
      · rw [List.filter_cons_of_neg hp, hrest, if_neg hp]
    · have hne : e.1 ≠ name := by
        rintro rfl
        exact hhead (List.mem_map.2 ⟨_, h, rfl⟩)
      have hskip : assigned? name e = none := if_neg hne.symm
      by_cases hp : p e = true
      · rw [List.filter_cons_of_pos hp, latest_cons, hskip, Option.or_none, ih htail h]
      · rw [List.filter_cons_of_neg hp, ih htail h]

namespace ProcessEnvironment

variable {p q : ProcessEnvironment} {name : String}

theorem get?_set? {name' value : String} (hset : p.set? name' value = some q)
    (h : Variables.holdsName name = true) :
    q.get? name = (assigned? name (name', value)).or (p.get? name) := by
  obtain ⟨-, rfl⟩ := set?_eq_some_iff.1 hset
  rw [get?_of_holdsName _ h, get?_of_holdsName _ h, Dict.get?_insert]
  unfold assigned?
  split <;> rfl

/-- Of assignments in turn, those up to the first that is refused count, and of them the last. -/
theorem get?_setAll (p : ProcessEnvironment) (h : Variables.holdsName name = true)
    (l : List (String × String)) : (Session.setAll p l).1.get? name =
      (latest (assigned? name) (l.takeWhile fun e => p.accepts e.1 e.2)).or (p.get? name) := by
  induction l generalizing p with
  | nil => rfl
  | cons e l ih =>
    obtain ⟨name', value⟩ := e
    rw [Session.setAll]
    cases hset : p.set? name' value with
    | none =>
      have hrefused := set?_eq_none_iff.1 hset
      simp [hrefused]
    | some q =>
      obtain ⟨haccepted, hq⟩ := set?_eq_some_iff.1 hset
      have hsame : q.accepts = p.accepts := by rw [hq]; rfl
      have hrest := ih q
      rw [hsame, get?_set? hset h] at hrest
      simp only [List.takeWhile_cons, haccepted, if_true, latest_cons]
      rw [Option.or_assoc]
      exact hrest

/-- Variables of other names leave a variable as it is, whether one of them is refused or not. -/
theorem get?_setAll_of_ne (p : ProcessEnvironment) (h : Variables.holdsName name = true)
    {l : List (String × String)} (hl : ∀ e ∈ l, e.1 ≠ name) :
    (Session.setAll p l).1.get? name = p.get? name := by
  have hnone : latest (assigned? name) (l.takeWhile fun e => p.accepts e.1 e.2) = none :=
    latest_assigned?_eq_none fun e he => hl e ((List.takeWhile_sublist _).subset he)
  rw [p.get?_setAll h, hnone, Option.none_or]

end ProcessEnvironment

/-! ## Taking over -/

/-- No variable of the name is among what the file for variables says. -/
def EnvironmentFiles.Contents.KeepOff (c : EnvironmentFiles.Contents) (name : String) : Prop :=
  ∀ entries, entriesOf c.env = .ok entries → ∀ e ∈ entries, e.name ≠ name

/-- Contents set the search path, and what the file for variables says. -/
theorem Session.ne_of_mem_assignments {c : EnvironmentFiles.Contents} {name : String}
    (h : c.KeepOff name) (hpath : name ≠ pathName) (p : ProcessEnvironment) :
    ∀ e ∈ c.assignments p, e.1 ≠ name :=
  forall_mem_assignments (P := fun e => e.1 ≠ name) h fun _ _ _ _ => hpath.symm

/-! ## Histories -/

/-- A call takes over no variable of the name. -/
def Call.KeepsOff (name : String) : Call → Prop
  | .takeOver contents => contents.KeepOff name
  | _ => True

namespace Session

variable {s : Session} {name value : String}

/-- What starting a workflow sets: what is not empty, up to the first that is refused. -/
def handovers (s : Session) (run : WorkflowRun) : List (String × String) :=
  ((githubDuring s.github run).exports.filter (·.2 ≠ "")).takeWhile fun e =>
    s.process.accepts e.1 e.2

/-- The value that a call hands on under a name, if it does. -/
def exportOf? (name : String) (s : Session) : Call → Option String
  | .startWorkflow run => latest (assigned? name) (s.handovers run)
  | _ => none

/-- The value that was handed on last under a name in a history, if any was. -/
def lastExport? (name : String) : Session → List Call → Option String
  | _, [] => none
  | s, c :: calls => (lastExport? name (s.perform c).session calls).or (s.exportOf? name c)

theorem get?_perform (hname : name ∈ Context.Github.exportNames) {c : Call}
    (hc : c.KeepsOff name) :
    (s.perform c).session.process.get? name = (s.exportOf? name c).or (s.process.get? name) := by
  obtain ⟨hholds, hpath⟩ := Context.Github.holdsName_of_mem_exportNames name hname
  rw [process_perform]
  cases c with
  | startWorkflow run => exact s.process.get?_setAll hholds _
  | takeOver contents =>
    refine s.process.get?_setAll_of_ne hholds fun e he => ?_
    rw [assignedBy] at he
    split at he
    · exact ne_of_mem_assignments hc hpath s.process e he
    · cases he
  | _ => rfl

/-- A variable has the value that was handed on last, or else the one that it had. -/
theorem get?_performAll (hname : name ∈ Context.Github.exportNames) {calls : List Call}
    (hcalls : ∀ c ∈ calls, c.KeepsOff name) :
    (s.performAll calls).process.get? name =
      (s.lastExport? name calls).or (s.process.get? name) := by
  induction calls generalizing s with
  | nil => rfl
  | cons c calls ih =>
    obtain ⟨hc, hrest⟩ := List.forall_mem_cons.1 hcalls
    rw [performAll_cons, ih hrest, get?_perform hname hc, lastExport?, Option.or_assoc]

/-- Nothing empty is handed on. -/
theorem exportOf?_ne_empty (s : Session) (name : String) (c : Call) :
    s.exportOf? name c ≠ some "" := by
  intro h
  cases c with
  | startWorkflow run =>
    obtain ⟨e, he, hvalue⟩ := List.exists_of_findSome?_eq_some h
    have hkept := (List.takeWhile_sublist _).subset (List.mem_reverse.1 he)
    obtain ⟨-, hnonempty⟩ := List.mem_filter.1 hkept
    unfold assigned? at hvalue
    split at hvalue
    · simp_all
    · cases hvalue
  | _ => cases h

theorem lastExport?_ne_empty (s : Session) (name : String) (calls : List Call) :
    s.lastExport? name calls ≠ some "" := by
  induction calls generalizing s with
  | nil => simp [lastExport?]
  | cons c calls ih =>
    intro h
    rcases Option.or_eq_some_iff.1 h with hlater | ⟨-, hnow⟩
    · exact ih _ hlater
    · exact s.exportOf?_ne_empty name c hnow

/-- A start that is done hands on all that is not empty. -/
theorem exportOf?_startWorkflow {run : WorkflowRun} (hdone : (s.startWorkflow run).reply = .done)
    (h : (name, value) ∈ (githubDuring s.github run).exports) :
    s.exportOf? name (.startWorkflow run) = if value = "" then none else some value := by
  have hcomplete : (s.handedOn run).2 = true := by
    rw [startWorkflow_reply] at hdone
    by_contra hnot
    simp [hnot] at hdone
  have hall := ProcessEnvironment.accepts_of_setAll hcomplete
  have hnodup : ((githubDuring s.github run).exports.map Prod.fst).Nodup :=
    Context.Github.nodup_exportNames
  show latest (assigned? name) (List.takeWhile _ _) = _
  rw [List.takeWhile_eq_self_iff.2 hall, latest_assigned?_filter hnodup h]
  by_cases hvalue : value = "" <;> simp [hvalue]

/-- **What the process environment shows of the `github` context.** At the start no variable has one
of the names, and no file for variables writes one. Then after the start of a workflow each variable
has the value of its field, unless that is empty: then it has the value that was handed on last, if
any was. So it mirrors the field unless the field is empty and was not always so. -/
theorem exports_of_history {home : String} {github : Context.Github} {runner : Context.Runner}
    {secrets : Context.Secrets} {inputs : Context.Inputs} {process : ProcessEnvironment}
    {calls : List Call} {run : WorkflowRun}
    (hunset : ∀ name ∈ Context.Github.exportNames, process.get? name = none)
    (hfiles : ∀ c ∈ calls, ∀ name ∈ Context.Github.exportNames, c.KeepsOff name)
    (hdone : (((start home github runner secrets inputs process).performAll calls).startWorkflow
      run).reply = .done) :
    let built := start home github runner secrets inputs process
    let after := ((built.performAll calls).startWorkflow run).session
    ∀ name value, (name, value) ∈ after.github.exports →
      after.process.get? name =
          (if value = "" then built.lastExport? name calls else some value) ∧
        ((after.process.get? name).getD "" = value ↔
          (value = "" → built.lastExport? name calls = none)) := by
  intro built after name value h
  have hname : name ∈ Context.Github.exportNames := by
    rw [← after.github.map_exports]
    exact List.mem_map.2 ⟨_, h, rfl⟩
  have hgithub : after.github = githubDuring (built.performAll calls).github run := by
    show ((built.performAll calls).startWorkflow run).session.github = _
    rw [startWorkflow_session]
  rw [hgithub] at h
  have hbefore := get?_performAll (s := built) hname fun c hc => hfiles c hc name hname
  have hstart : after.process.get? name = _ :=
    get?_perform (s := built.performAll calls) (c := .startWorkflow run) hname trivial
  have hbuilt : built.process.get? name = none := hunset name hname
  rw [exportOf?_startWorkflow hdone h, hbefore, hbuilt, Option.or_none] at hstart
  have hvalue : after.process.get? name =
      (if value = "" then built.lastExport? name calls else some value) := by
    rw [hstart]
    split <;> rfl
  refine ⟨hvalue, ?_⟩
  have hnonempty := built.lastExport?_ne_empty name calls
  rw [hvalue]
  by_cases hempty : value = ""
  · subst hempty
    cases hlast : built.lastExport? name calls with
    | none => simp
    | some earlier =>
      rw [hlast] at hnonempty
      simpa using hnonempty
  · simp [hempty]

/-- An action is left between two workflows. Its path stays in the process environment. -/
theorem exports_of_history_left_action :
    let process : ProcessEnvironment := .inMemory (Dict.insert ∅ "HOME" "/root")
    let built := start "/ghx" { repository := "octo/hello" } {} ∅ ∅ process
    let calls : List Call := [
      .startAction { path := "/actions/setup" },
      .startWorkflow (.start "42" { name := "CI" }), .leaveAction]
    let run : WorkflowRun := .start "43" { name := "CI" }
    let after := ((built.performAll calls).startWorkflow run).session
    (∀ name ∈ Context.Github.exportNames, process.get? name = none) ∧
      (∀ c ∈ calls, ∀ name ∈ Context.Github.exportNames, c.KeepsOff name) ∧
      ((built.performAll calls).startWorkflow run).reply = .done ∧
      after.process.get? "GITHUB_RUN_ID" = some "43" ∧
      after.process.get? "GITHUB_JOB" = none ∧
      ("GITHUB_ACTION_PATH", "") ∈ after.github.exports ∧
      after.process.get? "GITHUB_ACTION_PATH" = some "/actions/setup" := by
  intro process built calls run after
  have hunset : ∀ name ∈ Context.Github.exportNames, process.get? name = none := by
    decide +kernel
  have hfiles : ∀ c ∈ calls, ∀ name ∈ Context.Github.exportNames, c.KeepsOff name := by
    simp [calls, Call.KeepsOff]
  have hdone : ((built.performAll calls).startWorkflow run).reply = .done := by
    rfl
  have hexports := exports_of_history hunset hfiles hdone
  have hrun := hexports "GITHUB_RUN_ID" "43" (by decide +kernel)
  have hjob := hexports "GITHUB_JOB" "" (by decide +kernel)
  have haction := hexports "GITHUB_ACTION_PATH" "" (by decide +kernel)
  refine ⟨hunset, hfiles, hdone, ?_, ?_, by decide +kernel, ?_⟩
  · rw [hrun.1, if_neg (by decide)]
  · rw [hjob.1, if_pos rfl]
    decide +kernel
  · rw [haction.1, if_pos rfl]
    decide +kernel

/-- A workflow without a name starts after one that had a name, which stays in the process
environment. -/
theorem not_mirrored_unnamed_workflow :
    let built := start "/ghx" {} {} ∅ ∅ (.inMemory ∅)
    let calls : List Call := [.startWorkflow (.start "1" { name := "CI" })]
    let outcome := (built.performAll calls).startWorkflow (.start "2" {})
    outcome.reply = .done ∧ outcome.session.github.workflow = "" ∧
      ¬ ∀ name value, (name, value) ∈ outcome.session.github.exports →
        (outcome.session.process.get? name).getD "" = value := by
  intro built calls outcome
  refine ⟨rfl, by decide +kernel, fun hmirrored => ?_⟩
  have hname := hmirrored "GITHUB_WORKFLOW" "" (by decide +kernel)
  revert hname
  decide +kernel

end Session

end WorkflowRuns
