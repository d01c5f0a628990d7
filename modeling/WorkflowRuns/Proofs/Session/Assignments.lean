import WorkflowRuns.Proofs.Session.TakeOver

/-!
# The variables that calls set

A call changes the process environment only by setting variables, one after the other and up to the
first that is refused (`process_perform`). Which variables these are follows from what the session
finds: the `github` context at the start of a workflow, and the files when they are taken over.
-/

namespace WorkflowRuns

open EnvironmentFile

/-! ## Setting variables -/

namespace ProcessEnvironment

variable {p q : ProcessEnvironment} {name : String}

theorem get?_of_holdsName (p : ProcessEnvironment) (h : Variables.holdsName name = true) :
    p.get? name = p.vars.get? name := by
  unfold get?
  split
  · exact p.vars.lookUp?_of_holdsName h
  · rfl

theorem accepts_of_setAll {l : List (String × String)} (h : (Session.setAll p l).2 = true) :
    ∀ e ∈ l, p.accepts e.1 e.2 = true := by
  induction l generalizing p with
  | nil => simp
  | cons e l ih =>
    rw [Session.setAll] at h
    cases hset : p.set? e.1 e.2 with
    | none => simp [hset] at h
    | some q =>
      obtain ⟨haccepted, hq⟩ := set?_eq_some_iff.1 hset
      have hsame : q.accepts = p.accepts := by rw [hq]; rfl
      have hrest := ih (p := q) (by simpa [hset] using h)
      rw [hsame] at hrest
      exact List.forall_mem_cons.2 ⟨haccepted, hrest⟩

end ProcessEnvironment

namespace Session

variable {p : ProcessEnvironment} {l : List (String × String)}

theorem setAll_append (p : ProcessEnvironment) (l l' : List (String × String)) :
    setAll p (l ++ l') = if (setAll p l).2 then setAll (setAll p l).1 l' else setAll p l := by
  induction l generalizing p with
  | nil => rfl
  | cons e l ih =>
    rw [List.cons_append, setAll, setAll]
    cases p.set? e.1 e.2 with
    | none => rfl
    | some q => exact ih q

/-- If nothing is refused, all variables are set. -/
theorem setAll_of_accepts (h : ∀ e ∈ l, p.accepts e.1 e.2 = true) :
    setAll p l = ({ p with vars := p.vars.insertAll l }, true) := by
  induction l generalizing p with
  | nil => rfl
  | cons e l ih =>
    obtain ⟨hhead, htail⟩ := List.forall_mem_cons.1 h
    rw [setAll, ProcessEnvironment.set?_eq_some_iff.2 ⟨hhead, rfl⟩]
    exact ih htail

theorem setAll_of_complete (h : (setAll p l).2 = true) :
    setAll p l = ({ p with vars := p.vars.insertAll l }, true) :=
  setAll_of_accepts (ProcessEnvironment.accepts_of_setAll h)

theorem setAll_inMemory (vars : Variables) (l : List (String × String)) :
    setAll (.inMemory vars) l = (.inMemory (vars.insertAll l), true) :=
  setAll_of_accepts fun _ _ => rfl

/-- Setting variables does not change who keeps them. -/
theorem setAll_ofSystem (p : ProcessEnvironment) (l : List (String × String)) :
    (setAll p l).1.ofSystem = p.ofSystem := by
  induction l generalizing p with
  | nil => rfl
  | cons e l ih =>
    rw [setAll]
    cases hset : p.set? e.1 e.2 with
    | none => rfl
    | some q =>
      obtain ⟨-, rfl⟩ := ProcessEnvironment.set?_eq_some_iff.1 hset
      exact ih _

theorem pathName_holdsName : Variables.holdsName pathName = true := by decide +kernel

/-! ## Taking over -/

/-- The search path with directories put at its end, if there are any. -/
def pathAssignment (process : ProcessEnvironment) (directories : List String) :
    List (String × String) :=
  if directories = [] then []
  else [(pathName, PathList.append ((process.get? pathName).getD "") directories)]

end Session

/-- The variables that entries set. -/
def EnvironmentFile.pairs (entries : List Entry) : List (String × String) :=
  entries.map fun e => (e.name, e.value)

/-- The variables that are set when variables and directories are taken over, those of the entries
first. -/
def Session.assignments (process : ProcessEnvironment) (entries : List Entry)
    (directories : List String) : List (String × String) :=
  pairs entries ++ pathAssignment (setAll process (pairs entries)).1 directories

/-- The variables that are set when contents are taken over. A file that cannot be read or decoded
sets nothing, and those after it neither. -/
def EnvironmentFiles.Contents.assignments (c : EnvironmentFiles.Contents)
    (process : ProcessEnvironment) : List (String × String) :=
  match entriesOf c.env, linesOf c.path with
  | .error _, _ => []
  | .ok entries, .error _ => pairs entries
  | .ok entries, .ok directories => Session.assignments process entries directories

/-- What holds of the variables of the entries, and of the search path with the directories at its
end, holds of everything that contents set. -/
theorem Session.forall_mem_assignments {c : EnvironmentFiles.Contents} {p : ProcessEnvironment}
    {P : String × String → Prop}
    (henv : ∀ entries, entriesOf c.env = .ok entries → ∀ e ∈ entries, P (e.name, e.value))
    (hpath : ∀ entries directories, entriesOf c.env = .ok entries →
      linesOf c.path = .ok directories →
      P (pathName, PathList.append (((setAll p (pairs entries)).1.get? pathName).getD "")
        directories)) :
    ∀ e ∈ c.assignments p, P e := by
  unfold EnvironmentFiles.Contents.assignments
  cases hentries : entriesOf c.env with
  | error => simp
  | ok entries =>
    have hpairs : ∀ e ∈ pairs entries, P e := List.forall_mem_map.2 (henv entries hentries)
    cases hdirectories : linesOf c.path with
    | error => exact hpairs
    | ok directories =>
      refine List.forall_mem_append.2 ⟨hpairs, ?_⟩
      unfold pathAssignment
      split
      · simp
      · exact List.forall_mem_singleton.2 (hpath entries directories hentries hdirectories)

/-- Nothing is refused of the whole if nothing is refused of the two parts. -/
theorem Session.setAll_assignments_complete_iff {p : ProcessEnvironment} {entries : List Entry}
    {directories : List String} : (setAll p (assignments p entries directories)).2 = true ↔
      (setAll p (pairs entries)).2 = true ∧ (setAll (setAll p (pairs entries)).1
        (pathAssignment (setAll p (pairs entries)).1 directories)).2 = true := by
  rw [assignments, setAll_append]
  cases h : (setAll p (pairs entries)).2 <;> simp [h]

namespace Handover

variable {p : ProcessEnvironment} {c : EnvironmentFiles.Contents}

theorem ofPath_eq (p : ProcessEnvironment) (directories : List String) :
    let set := Session.setAll p (Session.pathAssignment p directories)
    ofPath p directories = ⟨set.1, if set.2 then directories.map .path else [], set.2⟩ := by
  unfold ofPath Session.pathAssignment
  by_cases hd : directories = []
  · simp [hd, Session.setAll]
  · simp only [if_neg hd, Session.setAll]
    cases p.set? Session.pathName
      (PathList.append ((p.get? Session.pathName).getD "") directories) <;> rfl

theorem next_process (h : Handover) (f : ProcessEnvironment → Handover) :
    (h.next f).process = if h.complete then (f h.process).process else h.process := by
  unfold next
  split <;> rfl

/-- A handover sets variables one after the other. -/
theorem ofContents_process (p : ProcessEnvironment) (c : EnvironmentFiles.Contents) :
    (ofContents p c).process = (Session.setAll p (c.assignments p)).1 := by
  -- the last two files set nothing
  have hrest (q : ProcessEnvironment) :
      ((ofFile q (entriesOf c.outputs) ofOutputs).next fun q =>
        ofFile q c.summary ofSummary).process = q := by
    cases entriesOf c.outputs with
    | error => rfl
    | ok => cases c.summary <;> rfl
  unfold ofContents EnvironmentFiles.Contents.assignments
  cases entriesOf c.env with
  | error => rfl
  | ok entries =>
    have hprocess : (ofVariables p entries).process = (Session.setAll p (pairs entries)).1 := rfl
    have hcomplete : (ofVariables p entries).complete = (Session.setAll p (pairs entries)).2 := rfl
    rw [next_process, ofFile, hprocess, hcomplete]
    cases linesOf c.path with
    | error =>
      rw [next_process, ofFile]
      exact ite_self _
    | ok directories =>
      rw [next_process, ofFile, ofPath_eq]
      simp only [hrest, ite_self, Session.assignments, Session.setAll_append]
      split <;> rfl

end Handover

/-! ## Calls -/

namespace Session

variable {s : Session}

/-- The variables that a call sets one after the other, up to the first that is refused. -/
def assignedBy (s : Session) : Call → List (String × String)
  | .startWorkflow run => (githubDuring s.github run).exports.filter (·.2 ≠ "")
  | .takeOver c => if s.stepRun.isSome then c.assignments s.process else []
  | _ => []

/-- All that a call does to the process environment is to set variables. -/
theorem process_perform (s : Session) (c : Call) :
    (s.perform c).session.process = (setAll s.process (s.assignedBy c)).1 := by
  have e := perform_effect s c
  generalize (s.perform c).session = t at e ⊢
  cases e with
  | idle hidle =>
    cases c with
    | startWorkflow => exact hidle.elim
    | takeOver contents =>
      have hs : s.stepRun = none := hidle
      simp only [assignedBy, hs]
      rfl
    | _ => rfl
  | startWorkflow run => rfl
  | takeOver hs contents =>
    simp only [assignedBy, hs]
    exact Handover.ofContents_process s.process contents
  | _ => rfl

end Session

end WorkflowRuns
