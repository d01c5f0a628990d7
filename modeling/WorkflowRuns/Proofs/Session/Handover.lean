import WorkflowRuns.Session.Handover
import WorkflowRuns.Session.Workflow

/-!
# What is handed over by a step

Taking over what a step wrote touches two things, the process environment and the run of the step.
`Handover.ofContents` says what becomes of both, from the environment and the contents of the files
alone; `takeOver_hands` says that nothing else of the session is changed.
-/

namespace WorkflowRuns

open EnvironmentFile

/-- What taking over some of the files comes to. -/
structure Handover where
  /-- The process environment afterwards. -/
  process : ProcessEnvironment
  /-- What is recorded of the step, in order. -/
  writes : List StepWrite
  /-- Whether it went through, so that the next file has its turn. -/
  complete : Bool

namespace Handover

/-- Goes on with the next file if everything so far went through. -/
def next (h : Handover) (f : ProcessEnvironment → Handover) : Handover :=
  if h.complete then
    ⟨(f h.process).process, h.writes ++ (f h.process).writes, (f h.process).complete⟩
  else h

/-- The variables that are set one after the other, up to the first that is refused. -/
def ofVariables (process : ProcessEnvironment) (entries : List Entry) : Handover :=
  let (after, complete) := Session.setAll process (entries.map fun e => (e.name, e.value))
  ⟨after,
    (entries.takeWhile fun e => process.accepts e.name e.value).map fun e =>
      .environment e.name e.value,
    complete⟩

/-- The directories that are put at the end of the search path. -/
def ofPath (process : ProcessEnvironment) (entries : List String) : Handover :=
  let path := PathList.append ((process.get? Session.pathName).getD "") entries
  if entries = [] then ⟨process, [], true⟩
  else
    match process.set? Session.pathName path with
    | none => ⟨process, [], false⟩
    | some after => ⟨after, entries.map .path, true⟩

/-- The outputs. -/
def ofOutputs (process : ProcessEnvironment) (entries : List Entry) : Handover :=
  ⟨process, entries.map fun e => .output e.name e.value, true⟩

/-- The summary. -/
def ofSummary (process : ProcessEnvironment) (text : String) : Handover :=
  ⟨process, [.summary text], true⟩

/-- A file of which nothing is taken over if it cannot be read or decoded. -/
def ofFile {α : Type} (process : ProcessEnvironment) (content : Except Failure α)
    (f : ProcessEnvironment → α → Handover) : Handover :=
  match content with
  | .ok a => f process a
  | .error _ => ⟨process, [], false⟩

/-- All four files, in their order. -/
def ofContents (process : ProcessEnvironment) (c : EnvironmentFiles.Contents) : Handover :=
  (ofFile process (entriesOf c.env) ofVariables).next fun process =>
  (ofFile process (linesOf c.path) ofPath).next fun process =>
  (ofFile process (entriesOf c.outputs) ofOutputs).next fun process =>
  ofFile process c.summary ofSummary

end Handover

namespace ProcessEnvironment

theorem set?_eq_some_iff {p p' : ProcessEnvironment} {name value : String} :
    p.set? name value = some p' ↔
      p.accepts name value = true ∧ p' = { p with vars := p.vars.insert name value } := by
  unfold set?
  split
  · next h => simp [h, eq_comm]
  · next h => simp [h]

theorem set?_eq_none_iff {p : ProcessEnvironment} {name value : String} :
    p.set? name value = none ↔ p.accepts name value = false := by
  simp [set?]

end ProcessEnvironment

namespace Session

/-- The session after a handover. -/
def handed (s : Session) (h : Handover) : Session :=
  { s with process := h.process }.writeAll h.writes

/-- An outcome that is a handover and nothing else. -/
def Hands (s : Session) (o : Outcome) (h : Handover) : Prop :=
  o.session = s.handed h ∧ (o.reply = .done ↔ h.complete = true)

/-- A handover of nothing. -/
theorem handed_nothing (s : Session) (b : Bool) : s.handed ⟨s.process, [], b⟩ = s := by
  cases s
  simp [handed, writeAll]

theorem handed_handed (s : Session) (h h' : Handover) :
    (s.handed h).handed h' = s.handed ⟨h'.process, h.writes ++ h'.writes, h'.complete⟩ := by
  cases hs : s.stepRun <;> simp [handed, writeAll, hs]

/-- Two handovers one after the other. -/
theorem Hands.andThen {s : Session} {o : Outcome} {h : Handover} {next : Session → Outcome}
    {f : ProcessEnvironment → Handover} (ho : s.Hands o h)
    (hnext : (s.handed h).Hands (next (s.handed h)) (f h.process)) :
    s.Hands (o.andThen next) (h.next f) := by
  obtain ⟨hsession, hreply⟩ := ho
  obtain ⟨hs', hr'⟩ := hnext
  by_cases hc : h.complete = true
  · have ho : o.andThen next = (next o.session).after o.notices := by
      simp [Outcome.andThen, hreply.2 hc]
    rw [ho, Handover.next, if_pos hc, hsession]
    exact ⟨hs'.trans (handed_handed s h _), hr'⟩
  · have hnd : o.reply ≠ .done := fun hd => hc (hreply.1 hd)
    have ho : o.andThen next = o := by
      unfold Outcome.andThen
      split
      · next hd => exact absurd hd hnd
      · rfl
    rw [ho, Handover.next, if_neg hc]
    exact ⟨hsession, hreply⟩

theorem takeVariables_hands (s : Session) (entries : List Entry) :
    s.Hands (s.takeVariables entries) (.ofVariables s.process entries) := by
  induction entries generalizing s with
  | nil => exact ⟨(handed_nothing s true).symm, by simp [takeVariables, Outcome.done,
      Handover.ofVariables, setAll]⟩
  | cons e rest ih =>
    cases hset : s.process.set? e.name e.value with
    | none =>
      have hacc := ProcessEnvironment.set?_eq_none_iff.1 hset
      have hof : Handover.ofVariables s.process (e :: rest) = ⟨s.process, [], false⟩ := by
        simp [Handover.ofVariables, setAll, hset, hacc]
      have htake : s.takeVariables (e :: rest) =
          ⟨.aborted, s, [entryNotice "GITHUB_ENV" e]⟩ := by
        simp [takeVariables, hset]
      rw [hof, htake]
      exact ⟨(handed_nothing s false).symm, by simp⟩
    | some process =>
      obtain ⟨hacc, hprocess⟩ := ProcessEnvironment.set?_eq_some_iff.1 hset
      have hsame : process.accepts = s.process.accepts := by rw [hprocess]; rfl
      -- the rest is taken over into a session that has the variable already
      obtain ⟨hsession, hreply⟩ :=
        ih ({ s with process := process }.writeAll [.environment e.name e.value])
      have hof : Handover.ofVariables s.process (e :: rest) =
          ⟨(Handover.ofVariables process rest).process,
            .environment e.name e.value :: (Handover.ofVariables process rest).writes,
            (Handover.ofVariables process rest).complete⟩ := by
        simp [Handover.ofVariables, setAll, hset, hacc, hsame]
      have htake : s.takeVariables (e :: rest) =
          (takeVariables ({ s with process := process }.writeAll [.environment e.name e.value])
            rest).after [entryNotice "GITHUB_ENV" e] := by
        simp [takeVariables, hset]
      rw [hof, htake]
      exact ⟨hsession.trans (handed_handed s ⟨process, [.environment e.name e.value], true⟩ _),
        hreply⟩

theorem takePath_hands (s : Session) (entries : List String) :
    s.Hands (s.takePath entries) (.ofPath s.process entries) := by
  by_cases he : entries = []
  · rw [takePath, Handover.ofPath, if_pos he, if_pos he]
    exact ⟨(handed_nothing s true).symm, by simp [Outcome.done]⟩
  · simp only [takePath, Handover.ofPath, if_neg he]
    cases s.process.set? pathName
        (PathList.append ((s.process.get? pathName).getD "") entries) with
    | none => exact ⟨(handed_nothing s false).symm, by simp⟩
    | some process => exact ⟨rfl, by simp [Outcome.done]⟩

theorem takeOutputs_hands (s : Session) (entries : List Entry) :
    s.Hands (s.takeOutputs entries) (.ofOutputs s.process entries) :=
  ⟨rfl, by simp [takeOutputs, Handover.ofOutputs, Outcome.done]⟩

theorem takeSummary_hands (s : Session) (text : String) :
    s.Hands (s.takeSummary text) (.ofSummary s.process text) :=
  ⟨rfl, by simp [takeSummary, Handover.ofSummary, Outcome.done]⟩

theorem takeFrom_hands {α : Type} (s : Session) (file : String) (content : Except Failure α)
    {take : Session → α → Outcome} {f : ProcessEnvironment → α → Handover}
    (h : ∀ a, s.Hands (take s a) (f s.process a)) :
    s.Hands (s.takeFrom file content take) (.ofFile s.process content f) := by
  cases content with
  | ok a => exact h a
  | error e =>
    exact ⟨(handed_nothing s false).symm, by simp [takeFrom, Handover.ofFile, Outcome.refused]⟩

theorem takeOver_of_isSome {s : Session} (hs : s.stepRun.isSome = true)
    (c : EnvironmentFiles.Contents) : s.takeOver c =
      (s.takeFrom "env" (entriesOf c.env) takeVariables).andThen fun s =>
      (s.takeFrom "path" (linesOf c.path) takePath).andThen fun s =>
      (s.takeFrom "output" (entriesOf c.outputs) takeOutputs).andThen fun s =>
      s.takeFrom "step summary" c.summary takeSummary := by
  have hnone : ¬ s.stepRun.isNone = true := by
    rw [Option.isNone_eq_false_iff.2 hs]
    exact Bool.false_ne_true
  rw [takeOver, if_neg hnone]

/-- **Taking over is a handover.** With a step active it changes the process environment and what is
recorded of the step, as the four files say, and nothing else; it is done if and only if all four
files went through. -/
theorem takeOver_hands {s : Session} (hs : s.stepRun.isSome = true)
    (c : EnvironmentFiles.Contents) : s.Hands (s.takeOver c) (.ofContents s.process c) := by
  rw [takeOver_of_isSome hs]
  exact ((takeFrom_hands s _ _ (takeVariables_hands s)).andThen
    ((takeFrom_hands _ _ _ (takePath_hands _)).andThen
      ((takeFrom_hands _ _ _ (takeOutputs_hands _)).andThen
        (takeFrom_hands _ _ _ (takeSummary_hands _)))))

/-- Without a step nothing is taken over. -/
theorem takeOver_of_none {s : Session} (hs : s.stepRun = none) (c : EnvironmentFiles.Contents) :
    s.takeOver c = .outOfScope s .noActiveStep := by
  simp [takeOver, hs]

end Session

end WorkflowRuns
