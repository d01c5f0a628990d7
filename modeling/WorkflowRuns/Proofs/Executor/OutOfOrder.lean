import Mathlib.Tactic.ByContra
import WorkflowRuns.Proofs.Executor.Reports

/-!
# Calls out of order

A call that needs a scope fails if and only if the scope is missing, and says which one it is
(`Session.perform_reply_failed_iff`). Taking over fails for want of a step if and only if there is
none, whatever the files hold (`Executor.takeOver_ofScope_iff`). What fails so, and what finds
nothing to end, leaves the executor as it was, with its trace, its log and its archive
(`Executor.perform_of_idle`).
-/

namespace WorkflowRuns

open EnvironmentFile

/-- The scope without which a call fails. Taking over is not among these calls, because there are
other reasons for it to fail. -/
def Call.needs? : Call → Option ScopeError
  | .startJob _ => some .noActiveWorkflow
  | .concludeJob .. | .startStep _ => some .noActiveJob
  | .write _ => some .noActiveStep
  | _ => none

/-- Whether a call takes over what a step wrote. -/
def Call.takesOver : Call → Bool
  | .takeOver _ => true
  | _ => false

/-- A failure is one for want of a scope. -/
def Failure.OfScope (f : Failure) : Prop := ∃ err, f.cause = .scope err

/-! ## Outcomes -/

namespace Outcome

@[simp] theorem done_reply (s : Session) (ns : List Notice) : (done s ns).reply = .done := rfl

@[simp] theorem outOfScope_reply (s : Session) (err : ScopeError) :
    (outOfScope s err).reply = .failed ⟨[], .scope err⟩ := rfl

/-- If an outcome is a failure, it is not one for want of a scope. -/
def InScope (o : Outcome) : Prop := ∀ f, o.reply = .failed f → ¬ f.OfScope

theorem inScope_of_done {o : Outcome} (h : o.reply = .done) : o.InScope := by
  intro f hf
  rw [h] at hf
  cases hf

theorem InScope.after {o : Outcome} (h : o.InScope) (notices : List Notice) :
    (o.after notices).InScope := h

theorem InScope.andThen {o : Outcome} {next : Session → Outcome} (h : o.InScope)
    (hnext : ∀ s, (next s).InScope) : (o.andThen next).InScope := by
  unfold Outcome.andThen
  split
  · exact (hnext o.session).after o.notices
  · exact h

end Outcome

/-! ## What a session replies -/

namespace Session

variable {s : Session} {c : Call}

/-- A scope is missing. -/
def Lacks (s : Session) : ScopeError → Prop
  | .noActiveWorkflow => s.workflowRun = none
  | .noActiveJob => s.jobRun = none
  | .noActiveStep => s.stepRun = none

theorem retireStep_reply (s : Session) (result : RunResult) :
    (s.retireStep result).reply = .done := by
  unfold retireStep
  split
  · rfl
  dsimp only
  split
  · split <;> rfl
  · rfl

theorem retireJob_reply (s : Session) (result : RunResult) :
    (s.retireJob result).reply = .done := by
  unfold retireJob
  split
  · rfl
  dsimp only
  split <;> rfl

/-- A call fails if and only if the scope that it needs is missing, and then it says so. -/
theorem perform_reply_failed_iff (hc : c.takesOver = false) {f : Failure} :
    (s.perform c).reply = .failed f ↔
      ∃ err, c.needs? = some err ∧ s.Lacks err ∧ f = ⟨[], .scope err⟩ := by
  cases c with
  | startWorkflow run =>
    simp only [perform, startWorkflow_reply]
    split <;> simp [Call.needs?]
  | retireWorkflow result => simp [perform, retireWorkflow_reply, Call.needs?]
  | startJob run =>
    cases hw : s.workflowRun with
    | none => simp [perform, startJob_of_none hw, Call.needs?, Lacks, hw, eq_comm]
    | some w => simp [perform, startJob_reply hw, Call.needs?, Lacks, hw]
  | retireJob result => simp [perform, retireJob_reply, Call.needs?]
  | concludeJob conclusion outcome outputs =>
    cases hj : s.jobRun with
    | none => simp [perform, concludeJob_of_none hj, Call.needs?, Lacks, hj, eq_comm]
    | some job => simp [perform, concludeJob, hj, Call.needs?, Lacks]
  | startStep run =>
    cases hj : s.jobRun with
    | none => simp [perform, startStep_of_none hj, Call.needs?, Lacks, hj, eq_comm]
    | some job => simp [perform, startStep, hj, Call.needs?, Lacks]
  | retireStep result => simp [perform, retireStep_reply, Call.needs?]
  | write w =>
    cases hs : s.stepRun with
    | none => simp [perform, write_of_none hs, Call.needs?, Lacks, hs, eq_comm]
    | some step => simp [perform, write, hs, Call.needs?, Lacks]
  | takeOver contents => cases hc
  | _ =>
    simp [perform, editWorkflow, startAction, leaveAction, nameEnvironmentFile, namePathFile,
      Call.needs?]

/-- A call fails only where it finds nothing to act on. -/
theorem idle_of_lacks {err : ScopeError} (hc : c.needs? = some err) (h : s.Lacks err) :
    s.Idle c := by
  cases c <;> cases hc <;> exact h

/-- A call that finds nothing to act on says nothing either. -/
theorem perform_notices_of_idle (h : s.Idle c) : (s.perform c).notices = [] := by
  cases c with
  | retireWorkflow result => exact congrArg Outcome.notices (retireWorkflow_of_none h result)
  | startJob run => exact congrArg Outcome.notices (startJob_of_none h run)
  | retireJob result => exact congrArg Outcome.notices (retireJob_of_none h result)
  | concludeJob conclusion outcome outputs =>
    exact congrArg Outcome.notices (concludeJob_of_none h conclusion outcome outputs)
  | startStep run => exact congrArg Outcome.notices (startStep_of_none h run)
  | retireStep result => exact congrArg Outcome.notices (retireStep_of_none h result)
  | write w => exact congrArg Outcome.notices (write_of_none h w)
  | takeOver contents => exact congrArg Outcome.notices (takeOver_of_none h contents)
  | _ => exact h.elim

end Session

/-! ## Taking over -/

/-- If there is no content, the reason is not a scope that is missing. -/
def Legible {α : Type} (content : Except Failure α) : Prop :=
  ∀ f, content = .error f → ¬ f.OfScope

theorem Disk.readText_cause_ne {d : Disk} {path : String} {cause : Cause}
    (h : d.readText path = .error cause) (err : ScopeError) : cause ≠ .scope err := by
  unfold readText at h
  split at h
  · cases h
    nofun
  · split at h <;> cases h
    nofun

theorem Disk.legible_readTextIfAny (d : Disk) (path : String) :
    Legible (d.readTextIfAny path) := by
  rintro f hf ⟨err, hcause⟩
  unfold readTextIfAny at hf
  split at hf
  · cases hf
  · cases hf
  · rename_i hread
    cases hf
    exact readText_cause_ne hread err hcause

namespace EnvironmentFile

variable {content : Except Failure String}

theorem legible_entriesOf (h : Legible content) : Legible (entriesOf content) := by
  rintro f hf ⟨err, hcause⟩
  cases content with
  | error f' =>
    cases hf
    exact h f rfl ⟨err, hcause⟩
  | ok text =>
    unfold entriesOf at hf
    cases hentries : entries text with
    | ok es => simp [hentries, Except.bind, Except.mapError] at hf
    | error e =>
      simp only [hentries, Except.bind, Except.mapError, Except.error.injEq] at hf
      subst hf
      cases hcause

theorem legible_linesOf (h : Legible content) : Legible (linesOf content) := by
  rintro f hf hscope
  cases content with
  | error f' =>
    cases hf
    exact h f rfl hscope
  | ok text => cases hf

end EnvironmentFile

namespace Session

variable {s : Session}

theorem takeVariables_inScope (s : Session) (entries : List Entry) :
    (s.takeVariables entries).InScope := by
  induction entries generalizing s with
  | nil => exact Outcome.inScope_of_done rfl
  | cons e entries ih =>
    unfold takeVariables
    split
    · intro f hf
      cases hf
    · exact (ih _).after _

theorem takePath_inScope (s : Session) (entries : List String) :
    (s.takePath entries).InScope := by
  unfold takePath
  split
  · exact Outcome.inScope_of_done rfl
  dsimp only
  split
  · intro f hf
    cases hf
  · exact Outcome.inScope_of_done rfl

theorem takeFrom_inScope {α : Type} {file : String} {content : Except Failure α}
    {take : Session → α → Outcome} (hcontent : Legible content)
    (htake : ∀ a, (take s a).InScope) : (s.takeFrom file content take).InScope := by
  cases content with
  | ok a => exact htake a
  | error f =>
    rintro f' hf'
    cases hf'
    exact hcontent f rfl

/-- With a step active, taking over from files does not fail for want of a scope. -/
theorem takeOver_inScope (hs : s.stepRun ≠ none) (files : EnvironmentFiles) (d : Disk) :
    (s.takeOver (files.read d)).InScope := by
  have hsome : ¬ s.stepRun.isNone = true := by simpa using hs
  unfold takeOver
  rw [if_neg hsome]
  have henv := legible_entriesOf (d.legible_readTextIfAny files.env)
  have hpath := legible_linesOf (d.legible_readTextIfAny files.path)
  have houtputs := legible_entriesOf (d.legible_readTextIfAny files.outputs)
  have hsummary := d.legible_readTextIfAny files.summary
  exact (takeFrom_inScope henv (takeVariables_inScope s)).andThen fun s =>
    (takeFrom_inScope hpath (takePath_inScope s)).andThen fun s =>
      (takeFrom_inScope houtputs fun _ => Outcome.inScope_of_done rfl).andThen fun s =>
        takeFrom_inScope hsummary fun _ => Outcome.inScope_of_done rfl

end Session

/-! ## What an executor does -/

namespace Executor

variable {e : Executor} {c : Call}

/-- A call that finds nothing to act on changes nothing, and nothing is told of it. -/
theorem perform_of_idle (h : e.session.Idle c) : (e.perform c).2 = e := by
  show (e.session.perform c).notices.foldl deliver
    { e with session := (e.session.perform c).session } = e
  rw [Session.perform_notices_of_idle h, Session.perform_of_idle h]
  rfl

theorem takeOver_ofScope_iff (e : Executor) (files : EnvironmentFiles) :
    (∃ f, (e.takeOver files).1 = .failed f ∧ f.OfScope) ↔ e.session.Lacks .noActiveStep := by
  constructor
  · rintro ⟨f, hf, hscope⟩
    by_contra hs
    exact Session.takeOver_inScope hs files e.disk f hf hscope
  · intro hs
    refine ⟨⟨[], .scope .noActiveStep⟩, ?_, .noActiveStep, rfl⟩
    exact congrArg Outcome.reply (Session.takeOver_of_none hs (files.read e.disk))

/-- Whoever calls out of order is told so, and nothing happens. -/
structure RefusesCleanly (e : Executor) : Prop where
  /-- A call other than taking over fails if and only if the scope that it needs is missing. -/
  call : ∀ c f, c.takesOver = false → ((e.perform c).1 = .failed f ↔
    ∃ err, c.needs? = some err ∧ e.session.Lacks err ∧ f = ⟨[], .scope err⟩)
  /-- Such a failure changes nothing. -/
  callFrame : ∀ c f, c.takesOver = false → (e.perform c).1 = .failed f → (e.perform c).2 = e
  /-- Taking over fails for want of a scope if and only if there is no step. -/
  takeOver : ∀ files, (∃ f, (e.takeOver files).1 = .failed f ∧ f.OfScope) ↔
    e.session.Lacks .noActiveStep
  /-- Then it fails for want of a step, and that changes nothing. -/
  takeOverFrame : e.session.Lacks .noActiveStep → ∀ files,
    e.takeOver files = (.failed ⟨[], .scope .noActiveStep⟩, e)
  /-- Ending a step that is not there is done at once. -/
  retireStep : e.session.Lacks .noActiveStep → ∀ result,
    e.perform (.retireStep result) = (.done, e)
  /-- So is ending a job that is not there. -/
  retireJob : e.session.Lacks .noActiveJob → ∀ result,
    e.perform (.retireJob result) = (.done, e)
  /-- Ending a workflow that is not there gives no record back. -/
  retireWorkflow : e.session.Lacks .noActiveWorkflow → ∀ result,
    e.perform (.retireWorkflow result) = (.retired none, e)

theorem refusesCleanly (e : Executor) : e.RefusesCleanly where
  call c f hc := Session.perform_reply_failed_iff hc
  callFrame c f hc hf := by
    obtain ⟨err, hneeds, hlacks, -⟩ := (Session.perform_reply_failed_iff hc).1 hf
    exact perform_of_idle (Session.idle_of_lacks hneeds hlacks)
  takeOver := e.takeOver_ofScope_iff
  takeOverFrame h files := Prod.ext
    (congrArg Outcome.reply (Session.takeOver_of_none h (files.read e.disk)))
    (perform_of_idle (c := .takeOver (files.read e.disk)) h)
  retireStep h result := Prod.ext (Session.retireStep_reply e.session result) (perform_of_idle h)
  retireJob h result := Prod.ext (Session.retireJob_reply e.session result) (perform_of_idle h)
  retireWorkflow h result := by
    have hreply := e.session.retireWorkflow_reply result
    rw [show e.session.workflowRun = none from h] at hreply
    exact Prod.ext hreply (perform_of_idle h)

/-- **Calls out of order are refused cleanly.** After every history the scopes are nested, and
whoever calls for a scope that is missing is told which one, or that nothing was there to be ended;
the executor is then exactly what it was before the call. -/
theorem refusals_of_history (around : Executor) (home : String) (github : Context.Github)
    (runner : Context.Runner) (secrets : Context.Secrets) (inputs : Context.Inputs)
    (process : ProcessEnvironment) (ops : List Operation) :
    let e := { around with
      session := .start home github runner secrets inputs process }.operateAll ops
    e.session.Nested ∧ e.RefusesCleanly := by
  intro e
  refine ⟨?_, e.refusesCleanly⟩
  rw [operateAll_session]
  exact Session.nested_performAll Session.nested_start _

end Executor

end WorkflowRuns
