import WorkflowRuns.Proofs.Environment.PathList
import WorkflowRuns.Proofs.Session.Exports

/-!
# The search path over a history

The directories that a step writes go to the end of the search path. Adding directories in several
parts is adding them at once (`PathList.appendTo_append`), and no other call has a part in it
(`get?_path_perform`). So the search path is the one that there was at the start with all
directories of the history at its end, in the order of the calls (`searchPath_of_history`).
-/

namespace WorkflowRuns

open EnvironmentFile

namespace PathList

/-- A search path with entries put at its end. It stays absent if there are none. -/
def appendTo (path? : Option String) (entries : List String) : Option String :=
  if entries = [] then path? else some (append (path?.getD "") entries)

variable {path? : Option String} {entries more : List String}

@[simp] theorem appendTo_nil (path? : Option String) : appendTo path? [] = path? := if_pos rfl

/-- Asked for as a text, an absent search path is an empty one. -/
theorem getD_appendTo : (appendTo path? entries).getD "" = append (path?.getD "") entries := by
  unfold appendTo
  split
  · next h => rw [h]; rfl
  · rfl

theorem appendTo_append :
    appendTo path? (entries ++ more) = appendTo (appendTo path? entries) more := by
  by_cases hmore : more = []
  · rw [hmore, List.append_nil, appendTo_nil]
  · have hall : entries ++ more ≠ [] := fun h => hmore (List.append_eq_nil_iff.1 h).2
    rw [appendTo, if_neg hall, append_append, ← getD_appendTo]
    exact (if_neg hmore).symm

end PathList

/-- The directories that contents put at the end of the search path. None are put there unless the
file for variables can be decoded as well. -/
def EnvironmentFiles.Contents.directories (c : EnvironmentFiles.Contents) : List String :=
  match entriesOf c.env, linesOf c.path with
  | .ok _, .ok directories => directories
  | _, _ => []

namespace Session

/-- The directories that a call puts at the end of the search path. -/
def addedBy (s : Session) : Call → List String
  | .takeOver c => if s.stepRun.isSome then c.directories else []
  | _ => []

/-- The directories that a history puts at the end of the search path, in the order of its calls. -/
def addedIn : Session → List Call → List String
  | _, [] => []
  | s, c :: calls => s.addedBy c ++ (s.perform c).session.addedIn calls

/-- With a step active, a call takes over no variable that has the name of the search path. -/
def LeavesPath (s : Session) (c : Call) : Prop := s.stepRun.isSome = true → c.KeepsOff pathName

variable {p : ProcessEnvironment} {s : Session} {c : Call} {calls : List Call}

/-! ## One call -/

theorem get?_path_pairs {entries : List Entry} (h : ∀ e ∈ entries, e.name ≠ pathName) :
    (setAll p (pairs entries)).1.get? pathName = p.get? pathName :=
  p.get?_setAll_of_ne pathName_holdsName (List.forall_mem_map.2 h)

/-- A store in memory refuses nothing. -/
theorem setAll_complete_of_memory (hp : p.ofSystem = false) (l : List (String × String)) :
    (setAll p l).2 = true := by
  have haccepts : ∀ e ∈ l, p.accepts e.1 e.2 = true := fun e _ => by
    simp [ProcessEnvironment.accepts, hp]
  rw [setAll_of_accepts haccepts]

theorem get?_path_pathAssignment (hp : p.ofSystem = false) (directories : List String) :
    (setAll p (pathAssignment p directories)).1.get? pathName =
      PathList.appendTo (p.get? pathName) directories := by
  rw [setAll_of_complete (setAll_complete_of_memory hp _)]
  unfold pathAssignment PathList.appendTo
  by_cases hd : directories = []
  · rw [if_pos hd, if_pos hd]
    rfl
  · rw [if_neg hd, if_neg hd, ProcessEnvironment.get?_of_holdsName _ pathName_holdsName]
    exact Dict.get?_insert_self ..

/-- Contents without a variable of its name only add to the search path. -/
theorem get?_path_assignments (hp : p.ofSystem = false) {contents : EnvironmentFiles.Contents}
    (h : contents.KeepOff pathName) :
    (setAll p (contents.assignments p)).1.get? pathName =
      PathList.appendTo (p.get? pathName) contents.directories := by
  unfold EnvironmentFiles.Contents.assignments EnvironmentFiles.Contents.directories
  cases henv : entriesOf contents.env with
  | error => exact (PathList.appendTo_nil _).symm
  | ok entries =>
    have hentries := get?_path_pairs (p := p) (h entries henv)
    cases linesOf contents.path with
    | error => exact hentries.trans (PathList.appendTo_nil _).symm
    | ok directories =>
      have hstore := (setAll_ofSystem p (pairs entries)).trans hp
      dsimp only
      rw [assignments, setAll_append, if_pos (setAll_complete_of_memory hp _),
        get?_path_pathAssignment hstore, hentries]

/-- No call but a handover changes the search path, whoever keeps the variables. -/
theorem get?_path_perform_of_ne (hc : ∀ contents, c ≠ .takeOver contents) :
    (s.perform c).session.process.get? pathName = s.process.get? pathName := by
  rw [process_perform]
  cases c with
  | startWorkflow run =>
    refine s.process.get?_setAll_of_ne pathName_holdsName fun e he => ?_
    have hname : e.1 ∈ Context.Github.exportNames := by
      rw [← (githubDuring s.github run).map_exports]
      exact List.mem_map.2 ⟨e, (List.mem_filter.1 he).1, rfl⟩
    exact (Context.Github.holdsName_of_mem_exportNames _ hname).2
  | takeOver contents => exact absurd rfl (hc contents)
  | _ => rfl

/-- A call adds its directories to the search path and changes nothing else of it. -/
theorem get?_path_perform (hp : s.process.ofSystem = false) (hc : s.LeavesPath c) :
    (s.perform c).session.process.get? pathName =
      PathList.appendTo (s.process.get? pathName) (s.addedBy c) := by
  by_cases htakeOver : ∃ contents, c = .takeOver contents
  · obtain ⟨contents, rfl⟩ := htakeOver
    rw [process_perform]
    unfold assignedBy addedBy
    cases hs : s.stepRun.isSome with
    | false => exact (PathList.appendTo_nil _).symm
    | true => exact get?_path_assignments hp (hc hs)
  · have hother : ∀ contents, c ≠ .takeOver contents := fun contents h => htakeOver ⟨contents, h⟩
    have hnone : s.addedBy c = [] := by
      cases c with
      | takeOver contents => exact absurd rfl (hother contents)
      | _ => rfl
    rw [get?_path_perform_of_ne hother, hnone, PathList.appendTo_nil]

/-! ## Histories -/

theorem ofSystem_perform (s : Session) (c : Call) :
    (s.perform c).session.process.ofSystem = s.process.ofSystem := by
  rw [process_perform, setAll_ofSystem]

theorem get?_path_performAll (hp : s.process.ofSystem = false) (hcalls : s.Along LeavesPath calls) :
    (s.performAll calls).process.get? pathName =
      PathList.appendTo (s.process.get? pathName) (s.addedIn calls) := by
  induction calls generalizing s with
  | nil => exact (PathList.appendTo_nil _).symm
  | cons c calls ih =>
    obtain ⟨hc, hrest⟩ := hcalls
    have hstore := (ofSystem_perform s c).trans hp
    rw [performAll_cons, ih hstore hrest, get?_path_perform hp hc, addedIn,
      PathList.appendTo_append]

/-- **The search path gathers what the steps add to it.** The variables are kept in memory, and no
file for variables that is taken over has one of the name of the search path. Then at every moment
of a history the search path is the one that there was at the start with the directories added since
at its end, each once and in the order of the calls. It stays absent as long as there are none, and
no call but a handover changes it. -/
theorem searchPath_of_history {vars : Variables} (hp : s.process = .inMemory vars)
    (hcalls : s.Along LeavesPath calls) :
    ∀ before after, calls = before ++ after →
      let now := (s.performAll before).process.get? pathName
      now.getD "" = PathList.append ((vars.get? pathName).getD "") (s.addedIn before) ∧
        (s.addedIn before = [] → now = vars.get? pathName) ∧
        ∀ c, (∀ contents, c ≠ .takeOver contents) →
          ((s.performAll before).perform c).session.process.get? pathName = now := by
  rintro before after rfl now
  have hmemory : s.process.ofSystem = false := by rw [hp]; rfl
  have hstart : s.process.get? pathName = vars.get? pathName := by rw [hp]; rfl
  have hnow : now = PathList.appendTo (vars.get? pathName) (s.addedIn before) := by
    rw [← hstart]
    exact get?_path_performAll hmemory (along_append.1 hcalls).1
  refine ⟨?_, fun hnone => ?_, fun c hc => get?_path_perform_of_ne hc⟩
  · rw [hnow, PathList.getD_appendTo]
  · rw [hnow, hnone, PathList.appendTo_nil]

/-- Without a step nothing is added. Directories are added even if the outputs that are handed over
with them cannot be decoded. -/
theorem searchPath_of_history_failed_outputs :
    let s := start "/ghx" {} {} ∅ ∅ (.inMemory ∅)
    let wrote path outputs : Call := .takeOver ⟨.ok "A=1\n", .ok path, .ok outputs, .ok ""⟩
    let calls : List Call := [
      .startWorkflow (.start "42" {}), wrote "/none\n" "", .startJob {}, .startStep {},
      wrote "/a\n\n  /b  \n" "broken", .startWorkflow (.start "43" {}), .startJob {},
      .startStep {}, wrote "/a\n" "x=1"]
    s.Along LeavesPath calls ∧ s.addedIn calls = ["/a", "/b", "/a"] ∧
      s.process.get? pathName = none ∧
      ((s.performAll calls).process.get? pathName).getD "" = "/a:/b:/a" := by
  intro s wrote calls
  have hentries : entriesOf (.ok "A=1\n") = .ok [⟨"A", "1"⟩] := by decide +kernel
  have hwrote (path outputs : String) : (wrote path outputs).KeepsOff pathName := by
    intro entries henv e he
    obtain rfl := Except.ok.inj (hentries.symm.trans henv)
    rw [List.mem_singleton.1 he]
    decide
  have hoff : ∀ c ∈ calls, c.KeepsOff pathName := by
    simp only [calls, List.forall_mem_cons]
    exact ⟨trivial, hwrote _ _, trivial, trivial, hwrote _ _, trivial, trivial, trivial,
      hwrote _ _, by simp⟩
  have hcalls : s.Along LeavesPath calls := (along_of_forall hoff).mono (q := LeavesPath)
    fun _ _ hc _ => hc
  have hadded : s.addedIn calls = ["/a", "/b", "/a"] := by decide +kernel
  refine ⟨hcalls, hadded, rfl, ?_⟩
  rw [(searchPath_of_history rfl hcalls calls [] (List.append_nil _).symm).1, hadded]
  decide +kernel

end Session

end WorkflowRuns
