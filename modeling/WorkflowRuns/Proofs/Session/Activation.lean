import WorkflowRuns.Proofs.Session.Calls

/-!
# Histories cut into activations

A history is a list of calls, each with the process environment that it found (`Event`). A run is
active from the call that starts it up to the next call that starts or ends a run of its kind. That
piece of the history is its `Activation`; it is retired if what ends the piece is a call that ends
the run, and otherwise the run was replaced or is still active.

Nothing here looks at a session: what becomes of a run is read off the calls of its activation alone.
-/

namespace WorkflowRuns

/-! ## Events -/

/-- A call of a history. -/
structure Event where
  /-- The call. -/
  call : Call
  /-- The process environment that it found. -/
  process : ProcessEnvironment

namespace Event

/-- What a call writes of the active step. -/
def writes (e : Event) : List StepWrite :=
  match e.call with
  | .write w => [w]
  | .takeOver contents => (Handover.ofContents e.process contents).writes
  | _ => []

/-- What a call records of how the active job ended. -/
def results? (e : Event) : Option JobResults :=
  match e.call with
  | .concludeJob conclusion outcome outputs => some ⟨conclusion, outcome, outputs⟩
  | _ => none

end Event

/-- The events of a history. -/
def Session.events (s : Session) : List Call → List Event
  | [] => []
  | c :: calls => ⟨c, s.process⟩ :: events (s.perform c).session calls

/-! ## Activations -/

/-- The calls that start and end runs of one kind. -/
structure Scope (ρ : Type) where
  /-- The run that a call starts. -/
  starts : Call → Option ρ
  /-- Whether a call ends the active run. -/
  ends : Call → Bool
  /-- No call does both. -/
  apart : ∀ c, ends c = true → starts c = none

/-- Runs of jobs. -/
def jobScope : Scope JobRun where
  starts
    | .startJob run => some run
    | _ => none
  ends
    | .retireJob _ => true
    | _ => false
  apart c h := by cases c <;> first | rfl | cases h

/-- Runs of steps. -/
def stepScope : Scope StepRun where
  starts
    | .startStep run => some run
    | _ => none
  ends
    | .retireStep _ => true
    | _ => false
  apart c h := by cases c <;> first | rfl | cases h

/-- The time for which a run is active. -/
structure Activation (ρ : Type) where
  /-- The run as it was started. -/
  run : ρ
  /-- What happened in this time. -/
  during : List Event
  /-- Whether the run was ended, and neither replaced nor left open. -/
  retired : Bool

namespace Scope

variable {ρ : Type} (scope : Scope ρ)

/-- Whether the active run stays active. -/
def lasts (e : Event) : Bool := (scope.starts e.call).isNone && !scope.ends e.call

/-- The activation of a run that is active when the events begin. -/
def activation (run : ρ) (events : List Event) : Activation ρ where
  run := run
  during := events.takeWhile scope.lasts
  retired := (events.dropWhile scope.lasts).head?.any (scope.ends ·.call)

/-- The activations of the runs that are started, in order. They do not overlap, so the retired ones
are retired in this order too. -/
def activations : List Event → List (Activation ρ)
  | [] => []
  | e :: events => ((scope.starts e.call).map (scope.activation · events)).toList ++
      activations events

variable {scope} {run : ρ} {e : Event} {events : List Event}

theorem starts_of_lasts (h : scope.lasts e = true) : scope.starts e.call = none := by
  unfold lasts at h
  exact Option.isNone_iff_eq_none.1 (Bool.and_eq_true_iff.1 h).1

theorem lasts_of_starts (h : scope.starts e.call = some run) : scope.lasts e = false := by
  unfold lasts
  rw [h]
  rfl

theorem lasts_of_ends (h : scope.ends e.call = true) : scope.lasts e = false := by
  unfold lasts
  rw [h, Bool.not_true, Bool.and_false]

theorem ends_of_starts (h : scope.starts e.call = some run) : scope.ends e.call = false := by
  cases hends : scope.ends e.call with
  | false => rfl
  | true =>
    rw [scope.apart _ hends] at h
    cases h

@[simp] theorem activation_nil : scope.activation run [] = ⟨run, [], false⟩ := rfl

theorem activation_cons_of_lasts (h : scope.lasts e = true) :
    scope.activation run (e :: events) =
      ⟨run, e :: (scope.activation run events).during, (scope.activation run events).retired⟩ := by
  simp [activation, h]

theorem activation_cons_of_not_lasts (h : scope.lasts e = false) :
    scope.activation run (e :: events) = ⟨run, [], scope.ends e.call⟩ := by
  simp [activation, h]

/-- An active run is replaced by the next one of its kind. -/
theorem activation_cons_of_starts {next : ρ} (h : scope.starts e.call = some next) :
    scope.activation run (e :: events) = ⟨run, [], false⟩ := by
  rw [activation_cons_of_not_lasts (lasts_of_starts h), ends_of_starts h]

theorem activation_cons_of_ends (h : scope.ends e.call = true) :
    scope.activation run (e :: events) = ⟨run, [], true⟩ := by
  rw [activation_cons_of_not_lasts (lasts_of_ends h), h]

@[simp] theorem activations_nil : scope.activations [] = [] := rfl

theorem activations_cons_of_starts (h : scope.starts e.call = some run) :
    scope.activations (e :: events) =
      scope.activation run events :: scope.activations events := by
  simp [activations, h]

theorem activations_cons_of_starts_none (h : scope.starts e.call = none) :
    scope.activations (e :: events) = scope.activations events := by
  simp [activations, h]

end Scope

namespace Activation

/-- What was written of a step. -/
def writes (a : Activation StepRun) : List StepWrite := a.during.flatMap Event.writes

/-- The run of a step with all that was written of it. -/
def finalStep (a : Activation StepRun) : StepRun := a.writes.foldl StepRun.write a.run

/-- How a job was last said to have ended. -/
def results? (a : Activation JobRun) : Option JobResults := latest Event.results? a.during

/-- The conclusion of a job: that of its last results, or the one with which it was started. -/
def conclusion (a : Activation JobRun) : Conclusion :=
  (a.results?.map (·.conclusion)).getD a.run.conclusion

/-- The runs of the steps that were retired, each with all that was written of it. -/
def endedSteps (l : List (Activation StepRun)) : List StepRun :=
  (l.filter (·.retired)).map finalStep

/-- The runs of steps that ended within a job, in the order in which they ended. -/
def retiredSteps (a : Activation JobRun) : List StepRun :=
  endedSteps (stepScope.activations a.during)

end Activation

/-- The run of a job with its last results and the steps that ended. -/
def Activation.finalJob (a : Activation JobRun) : JobRun :=
  { a.run.withResults a.results? with steps := a.run.steps ++ a.retiredSteps }

end WorkflowRuns
