import WorkflowRuns.Proofs.Session.SideBySide

/-!
# What a session carries along

Secrets, the access token, the process environment, the active action and the files it writes to are
carried along: starting a workflow and taking over look at some of it, and no other call does
(`perform_carrying`). So a difference in what is carried along that these two do not notice is not
noticed by any call (`Discreet.unnoticed`).
-/

namespace WorkflowRuns

/-- What a session carries along. -/
structure Baggage where
  secrets : Context.Secrets
  token : String
  process : ProcessEnvironment
  action : Option CustomAction
  actionPath : String
  envFile : String
  pathFile : String

/-- Whether a call looks at what a session carries along. -/
def Call.looksIntoBaggage : Call → Bool
  | .startWorkflow _ | .takeOver _ => true
  | _ => false

/-- What is carried along after a call that does not look at it. -/
def Baggage.after (b : Baggage) : Call → Baggage
  | .startAction action => { b with actionPath := action.path, action := some action }
  | .leaveAction => { b with actionPath := "", action := none }
  | .nameEnvironmentFile path => { b with envFile := path }
  | .namePathFile path => { b with pathFile := path }
  | _ => b

namespace Session

/-- What a session carries along. -/
def baggage (s : Session) : Baggage where
  secrets := s.secrets
  token := s.github.token
  process := s.process
  action := s.action
  actionPath := s.github.actionPath
  envFile := s.github.envFile
  pathFile := s.github.pathFile

/-- A session that carries something else along. -/
def carrying (s : Session) (b : Baggage) : Session :=
  { s with
    github := { s.github with
      token := b.token
      actionPath := b.actionPath
      envFile := b.envFile
      pathFile := b.pathFile }
    secrets := b.secrets
    process := b.process
    action := b.action }

variable (s : Session) (b : Baggage)

theorem carrying_baggage : s.carrying s.baggage = s := rfl

@[simp] theorem carrying_workflowRun : (s.carrying b).workflowRun = s.workflowRun := rfl

@[simp] theorem carrying_jobRun : (s.carrying b).jobRun = s.jobRun := rfl

@[simp] theorem carrying_stepRun : (s.carrying b).stepRun = s.stepRun := rfl

/-- Apart from the two that do, no call looks at what is carried along. -/
theorem perform_carrying {c : Call} (hc : c.looksIntoBaggage = false) :
    (s.carrying b).perform c = { s.perform c with
      session := (s.perform c).session.carrying (b.after c) } := by
  cases c with
  | startWorkflow | takeOver => cases hc
  | editWorkflow | startAction | leaveAction | nameEnvironmentFile | namePathFile => rfl
  | retireWorkflow result =>
    simp only [perform, retireWorkflow, carrying_workflowRun]
    cases s.workflowRun <;> rfl
  | startJob run =>
    simp only [perform, startJob, carrying_workflowRun]
    cases s.workflowRun <;> rfl
  | retireJob result =>
    simp only [perform, retireJob, carrying_workflowRun, carrying_jobRun]
    cases s.jobRun with
    | none => rfl
    | some job => cases s.workflowRun <;> rfl
  | concludeJob conclusion outcome outputs =>
    simp only [perform, concludeJob, carrying_jobRun]
    cases s.jobRun <;> rfl
  | startStep run =>
    simp only [perform, startStep, carrying_jobRun]
    cases s.jobRun <;> rfl
  | retireStep result =>
    simp only [perform, retireStep, carrying_stepRun]
    cases s.stepRun with
    | none => rfl
    | some step =>
      by_cases hmain : step.stage = .main
      · simp only [hmain, if_true, refresh, carrying_workflowRun, carrying_jobRun]
        cases s.workflowRun with
        | none => rfl
        | some run => cases s.jobRun <;> rfl
      · simp only [hmain, if_false]
        rfl
  | write w =>
    simp only [perform, write, carrying_stepRun]
    cases s.stepRun <;> rfl

variable {s}

/-- What is carried along after a call follows from what was carried along before it. -/
theorem baggage_perform {c : Call} (hc : c.looksIntoBaggage = false) :
    (s.perform c).session.baggage = s.baggage.after c := by
  have h := s.perform_carrying s.baggage hc
  rw [carrying_baggage] at h
  rw [h]
  rfl

theorem startWorkflow_notices (s : Session) (run : WorkflowRun) :
    (s.startWorkflow run).notices = replacedWorkflow s.workflowRun run := by
  unfold startWorkflow
  dsimp only
  split <;> rfl

/-! ## Differences that go unnoticed -/

/-- Two sessions are the same but for what they carry along. -/
def Apart (D : Baggage → Baggage → Prop) (s t : Session) : Prop :=
  ∃ b, D s.baggage b ∧ t = s.carrying b

/-- What is carried along stays related, after every call and after setting variables, which
succeeds with both or with none. -/
structure Discreet (D : Baggage → Baggage → Prop) : Prop where
  after : ∀ {a b}, D a b → ∀ c, D (a.after c) (b.after c)
  assign : ∀ {a b}, D a b → ∀ name (value : Option String → String),
    Option.Rel (fun p q => D { a with process := p } { b with process := q })
      (a.process.set? name (value (a.process.get? name)))
      (b.process.set? name (value (b.process.get? name)))
  handOn : ∀ {s : Session} {b}, D s.baggage b → ∀ run,
    ((s.carrying b).handedOn run).2 = (s.handedOn run).2 ∧
    D { s.baggage with process := (s.handedOn run).1 }
      { b with process := ((s.carrying b).handedOn run).1 }

namespace Discreet

variable {D : Baggage → Baggage → Prop} (hD : Discreet D)
include hD

theorem startWorkflow {s t : Session} (h : s.Apart D t) (run : WorkflowRun) :
    (s.startWorkflow run).Alike (Apart D) (t.startWorkflow run) := by
  obtain ⟨b, hb, rfl⟩ := h
  obtain ⟨hcomplete, hprocess⟩ := hD.handOn hb run
  constructor
  · rw [startWorkflow_reply, startWorkflow_reply, hcomplete]
  · rw [startWorkflow_notices, startWorkflow_notices, carrying_workflowRun]
  · rw [startWorkflow_session, startWorkflow_session, hcomplete]
    exact ⟨_, hprocess, rfl⟩

theorem handing : Handing (Apart D) where
  stepRun := by
    rintro s _ ⟨b, hb, rfl⟩
    rfl
  writeAll := by
    rintro s _ ⟨b, hb, rfl⟩ ws
    exact ⟨b, hb, rfl⟩
  assign := by
    rintro s _ ⟨b, hb, rfl⟩ name value
    have hassign := hD.assign hb name value
    show Option.Rel _ ((s.baggage.process.set? name (value (s.baggage.process.get? name))).map _)
      ((b.process.set? name (value (b.process.get? name))).map _)
    generalize s.baggage.process.set? name (value (s.baggage.process.get? name)) = p,
      b.process.set? name (value (b.process.get? name)) = q at hassign ⊢
    cases hassign with
    | none => exact .none
    | some h => exact .some ⟨_, h, rfl⟩

/-- Apart from what they carry along, all outcomes are the same. -/
theorem unnoticed : Unnoticed (Apart D) := by
  intro s t h c
  cases hc : c.looksIntoBaggage with
  | true =>
    cases c with
    | startWorkflow run => exact hD.startWorkflow h run
    | takeOver contents => exact hD.handing.takeOver h contents
    | _ => cases hc
  | false =>
    obtain ⟨b, hb, rfl⟩ := h
    rw [perform_carrying _ _ hc]
    refine ⟨rfl, rfl, b.after c, ?_, rfl⟩
    rw [baggage_perform hc]
    exact hD.after hb c

end Discreet

end Session

end WorkflowRuns
