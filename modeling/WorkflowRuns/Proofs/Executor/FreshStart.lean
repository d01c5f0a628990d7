import WorkflowRuns.Proofs.Executor.SideBySide
import WorkflowRuns.Proofs.Session.Assignments
import WorkflowRuns.Proofs.Session.Coherence

/-!
# A workflow starts afresh

Whatever came before, a workflow that starts finds nothing of it but what outlives a workflow: the
process environment, the active action, and the files that were named. From then on two executors
that were built alike go through the same history.
-/

namespace WorkflowRuns

/-- What is carried along differs in what outlives a workflow, of which the process environment is a
store in memory. -/
structure Baggage.SameSecrets (a b : Baggage) : Prop where
  secrets : b.secrets = a.secrets
  token : b.token = a.token
  inMemory : ∃ vars, a.process = .inMemory vars
  inMemory' : ∃ vars, b.process = .inMemory vars

theorem Session.SameOrigin.of_common {s t u : Session} (h : s.SameOrigin t)
    (h' : s.SameOrigin u) : t.SameOrigin u :=
  ⟨h'.home.trans h.home.symm, h'.runner.trans h.runner.symm, h'.secrets.trans h.secrets.symm,
    h'.inputs.trans h.inputs.symm, h'.github.trans h.github.symm⟩

/-- What no call changes and the run that starts make up the context, but for what outlives a
workflow. -/
theorem Session.githubDuring_congr {g g' : Context.Github} (h : g'.lasting = g.lasting)
    (run : WorkflowRun) : githubDuring g' run = { githubDuring g run with
      actionPath := g'.actionPath
      envFile := g'.envFile
      pathFile := g'.pathFile } := by
  cases g
  cases g'
  simp_all [Context.Github.lasting, githubDuring]

namespace Session

variable {s t : Session}

/-- Two sessions are the same but for what outlives a workflow. -/
def SameRun : Session → Session → Prop := Apart Baggage.SameSecrets

theorem handedOn_inMemory {vars : Variables} (h : s.process = .inMemory vars) (run : WorkflowRun) :
    ∃ vars', s.handedOn run = (.inMemory vars', true) := by
  unfold handedOn
  rw [h]
  exact ⟨_, setAll_inMemory _ _⟩

theorem unnoticed_sameRun : Unnoticed SameRun := by
  apply Discreet.unnoticed
  constructor
  · intro a b h c
    cases c <;> exact ⟨h.secrets, h.token, h.inMemory, h.inMemory'⟩
  · intro a b h name value
    obtain ⟨vars, hvars⟩ := h.inMemory
    obtain ⟨vars', hvars'⟩ := h.inMemory'
    rw [hvars, hvars']
    exact .some ⟨h.secrets, h.token, ⟨_, rfl⟩, ⟨_, rfl⟩⟩
  · intro s b h run
    obtain ⟨vars, hvars⟩ := h.inMemory
    obtain ⟨vars', hvars'⟩ := h.inMemory'
    obtain ⟨after, hafter⟩ := handedOn_inMemory (s := s) hvars run
    obtain ⟨after', hafter'⟩ := handedOn_inMemory (s := s.carrying b) hvars' run
    rw [hafter, hafter']
    exact ⟨rfl, h.secrets, h.token, ⟨_, rfl⟩, ⟨_, rfl⟩⟩

theorem SameRun.showSame (h : s.SameRun t) : ShowSame [] ["action_path", "env", "path"] s t := by
  obtain ⟨b, hb, rfl⟩ := h
  apply showSame_carrying
  · exact fun _ => hb.secrets
  · exact fun _ => hb.token
  · intro haction
    exact absurd (by decide) haction
  · intro henv
    exact absurd (by decide) henv
  · intro hpath
    exact absurd (by decide) hpath

/-- **A workflow starts the same wherever it starts.** -/
theorem sameRun_startWorkflow (h : s.SameOrigin t) (hs : ∃ vars, s.process = .inMemory vars)
    (ht : ∃ vars, t.process = .inMemory vars) (run : WorkflowRun) :
    (s.startWorkflow run).session.SameRun (t.startWorkflow run).session := by
  obtain ⟨vars, hvars⟩ := hs
  obtain ⟨vars', hvars'⟩ := ht
  obtain ⟨after, hafter⟩ := handedOn_inMemory hvars run
  obtain ⟨after', hafter'⟩ := handedOn_inMemory hvars' run
  have htoken : t.github.token = s.github.token := congrArg (·.token) h.github
  refine ⟨(t.startWorkflow run).session.baggage, ⟨?_, ?_, ?_, ?_⟩, ?_⟩
  · simp only [baggage, startWorkflow_session, h.secrets]
  · simp only [baggage, startWorkflow_session, githubDuring, htoken]
  · simp only [baggage, startWorkflow_session, hafter]
    exact ⟨after, rfl⟩
  · simp only [baggage, startWorkflow_session, hafter']
    exact ⟨after', rfl⟩
  · rw [startWorkflow_session, startWorkflow_session, hafter, hafter', h.home, h.runner, h.inputs,
      githubDuring_congr h.github]
    rfl

end Session

/-- Two occurrences of one operation in the same run of a workflow: the answers, what was kept, what
was traced and the sessions are the same, but for what outlives a workflow. -/
structure Occurrence.SameRun (v v' : Occurrence) : Prop where
  operation : v'.operation = v.operation
  answer : v.SameAnswer ["github"] v'
  kept : v'.told.filterMap Delivery.taken? = v.told.filterMap Delivery.taken?
  traced : v'.told.flatMap Delivery.messages = v.told.flatMap Delivery.messages
  left : v'.left = { v.left with
    process := v'.left.process
    action := v'.left.action
    github := { v.left.github with
      actionPath := v'.left.github.actionPath
      envFile := v'.left.github.envFile
      pathFile := v'.left.github.pathFile } }
  shown : v.left.ShowSame [] ["action_path", "env", "path"] v'.left

theorem Session.SameRun.eq {s t : Session} (h : s.SameRun t) : t = { s with
    process := t.process
    action := t.action
    github := { s.github with
      actionPath := t.github.actionPath
      envFile := t.github.envFile
      pathFile := t.github.pathFile } } := by
  obtain ⟨b, hb, rfl⟩ := h
  unfold carrying
  rw [hb.secrets, hb.token]
  rfl

theorem Occurrence.Alike.sameRun {v v' : Occurrence} (h : v.Alike Session.SameRun v') :
    v.SameRun v' where
  operation := h.operation
  answer := h.sameAnswer h.left.showSame
  kept := by rw [h.told]
  traced := by rw [h.told]
  left := h.left.eq
  shown := h.left.showSame

namespace Executor

variable {e e' : Executor} {ops : List Operation}

theorem sameOrigin_operateAll (e : Executor) (ops : List Operation) :
    e.session.SameOrigin (e.operateAll ops).session := by
  induction ops generalizing e with
  | nil => exact ⟨rfl, rfl, rfl, rfl, rfl⟩
  | cons op ops ih =>
    have hop : e.session.SameOrigin (e.operate op).2.session := by
      rw [operate_session]
      cases e.callOf? op with
      | none => exact ⟨rfl, rfl, rfl, rfl, rfl⟩
      | some c => exact .effect (Session.perform_effect _ c)
    exact hop.trans (ih _)

theorem kept_of_history
    (h : List.Forall₂ Occurrence.SameRun (e.history ops) (e'.history ops)) :
    (e'.transcript ops).filterMap Delivery.taken? =
        (e.transcript ops).filterMap Delivery.taken? ∧
      (e'.transcript ops).flatMap Delivery.messages =
        (e.transcript ops).flatMap Delivery.messages := by
  unfold transcript
  generalize e.history ops = vs, e'.history ops = vs' at h ⊢
  induction h with
  | nil => exact ⟨rfl, rfl⟩
  | cons hv _ ih =>
    obtain ⟨hkept, htraced⟩ := ih
    simp only [List.flatMap_cons, List.filterMap_append, List.flatMap_append, hv.kept, hv.traced,
      hkept, htraced, and_self]

/-- Starting a workflow is said to the log alone. -/
theorem told_startWorkflow (h : e.archive = .shelf fun _ _ => none) (run : WorkflowRun) :
    (e.told (.call (.startWorkflow run))).filterMap Delivery.taken? = [] ∧
      (e.told (.call (.startWorkflow run))).flatMap Delivery.messages = [] := by
  have hnotices : (e.session.perform (.startWorkflow run)).notices =
      Session.replacedWorkflow e.session.workflowRun run := e.session.startWorkflow_notices run
  rw [told_eq_granted h]
  simp only [callOf?, Option.elim_some, hnotices]
  cases e.session.workflowRun <;> exact ⟨rfl, rfl⟩

/-- A store in memory stays one: a session that differs from itself in nothing keeps doing so. -/
theorem inMemory_operateAll (htakes : e.archive = .shelf fun _ _ => none)
    (h : ∃ vars, e.session.process = .inMemory vars) (ops : List Operation) :
    ∃ vars, (e.operateAll ops).session.process = .inMemory vars := by
  have hself : Beside Session.SameRun e e := ⟨⟨_, ⟨rfl, rfl, h, h⟩, rfl⟩, rfl, htakes, htakes⟩
  obtain ⟨_, hb, -⟩ := (hself.operateAll Session.unnoticed_sameRun ops).session
  exact hb.inMemory

/-- Two executors were built alike and see the same files, wherever their sessions went. -/
structure BuiltAlike (e e' : Executor) : Prop where
  origin : e.session.SameOrigin e'.session
  inMemory : ∃ vars, e.session.process = .inMemory vars
  inMemory' : ∃ vars, e'.session.process = .inMemory vars
  disk : e'.disk = e.disk
  takesAll : e.archive = .shelf fun _ _ => none
  takesAll' : e'.archive = .shelf fun _ _ => none

namespace BuiltAlike

variable (h : BuiltAlike e e') (run : WorkflowRun)
include h

theorem beside_startWorkflow : Beside Session.SameRun
    (e.operate (.call (.startWorkflow run))).2 (e'.operate (.call (.startWorkflow run))).2 := by
  constructor
  · rw [operate_session, operate_session]
    exact Session.sameRun_startWorkflow h.origin h.inMemory h.inMemory' run
  · exact operate_disk_congr h.takesAll h.takesAll' h.disk _
  · exact (e.tells_operate _).archive.trans h.takesAll
  · exact (e'.tells_operate _).archive.trans h.takesAll'

theorem occurrence_startWorkflow : (e.occurrence (.call (.startWorkflow run))).SameRun
    (e'.occurrence (.call (.startWorkflow run))) := by
  have hleft := (h.beside_startWorkflow run).session
  obtain ⟨hkept, htraced⟩ := told_startWorkflow h.takesAll run
  obtain ⟨hkept', htraced'⟩ := told_startWorkflow h.takesAll' run
  have hdone {e : Executor} (hmemory : ∃ vars, e.session.process = .inMemory vars) :
      (e.session.startWorkflow run).reply = .done := by
    obtain ⟨vars, hvars⟩ := hmemory
    obtain ⟨after, hafter⟩ := Session.handedOn_inMemory hvars run
    rw [Session.startWorkflow_reply, hafter]
    rfl
  constructor
  · rfl
  · exact .inl (congrArg Answer.reply ((hdone h.inMemory').trans (hdone h.inMemory).symm))
  · exact hkept'.trans hkept.symm
  · exact htraced'.trans htraced.symm
  · exact hleft.eq
  · exact hleft.showSame

/-- From the start of a workflow on, the history does not depend on what came before. -/
theorem history_startWorkflow (ops : List Operation) :
    List.Forall₂ Occurrence.SameRun (e.history (.call (.startWorkflow run) :: ops))
      (e'.history (.call (.startWorkflow run) :: ops)) := by
  have hrest := (h.beside_startWorkflow run).history Session.unnoticed_sameRun ops
  exact .cons (h.occurrence_startWorkflow run) (hrest.imp fun _ _ hv => hv.sameRun)

end BuiltAlike

/-- **A workflow starts afresh.** Two executors are built alike, with a process environment in
memory and an archive that takes everything, and each goes through a history of its own. If the same
workflow starts in both and they see the same files, then from there on both answer, keep and trace
the same and leave the same session at every operation of every history, but for what outlives a
workflow: the process environment, the active action and the files that were named. -/
theorem fresh_start_of_history (around : Executor) (home : String) (github : Context.Github)
    (runner : Context.Runner) (secrets : Context.Secrets) (inputs : Context.Inputs)
    (vars : Variables) (before before' : List Operation) (d : Disk) (run : WorkflowRun)
    (ops : List Operation) :
    let built : Executor := { around with
      session := .start home github runner secrets inputs (.inMemory vars)
      archive := .shelf fun _ _ => none
      tracesToLog := false }
    let one := { built.operateAll before with disk := d }
    let other := { built.operateAll before' with disk := d }
    let history := .call (.startWorkflow run) :: ops
    List.Forall₂ Occurrence.SameRun (one.history history) (other.history history) ∧
      ∃ kept traced,
        (one.operateAll history).shelved = one.shelved ++ kept ∧
        (other.operateAll history).shelved = other.shelved ++ kept ∧
        (one.operateAll history).trace = one.trace ++ traced ∧
        (other.operateAll history).trace = other.trace ++ traced := by
  intro built one other history
  have htakes (before : List Operation) :
      (built.operateAll before).archive = .shelf fun _ _ => none :=
    (built.tells_operateAll before).archive
  have hcollects (before : List Operation) : (built.operateAll before).tracesToLog = false :=
    (built.tells_operateAll before).tracesToLog
  have hmessages : Delivery.traceOf false = Delivery.messages := rfl
  have hmemory := inMemory_operateAll (e := built) rfl ⟨vars, rfl⟩
  have halike : BuiltAlike one other := by
    constructor
    · exact .of_common (built.sameOrigin_operateAll before) (built.sameOrigin_operateAll before')
    · exact hmemory before
    · exact hmemory before'
    · rfl
    · exact htakes before
    · exact htakes before'
  have hhistory := halike.history_startWorkflow run ops
  obtain ⟨hkept, htraced⟩ := kept_of_history hhistory
  have hone := one.tells_operateAll history
  have hother := other.tells_operateAll history
  refine ⟨hhistory, ((one.transcript history).filterMap Delivery.taken?).map Filing.artifact,
    (one.transcript history).flatMap Delivery.messages, ?_, ?_, ?_, ?_⟩
  · exact hone.shelved _ halike.takesAll
  · rw [hother.shelved _ halike.takesAll', hkept]
  · rw [hone.trace, hcollects before, hmessages]
  · rw [hother.trace, hcollects before', hmessages, htraced]

end Executor

end WorkflowRuns
