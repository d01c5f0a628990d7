import Mathlib.Data.List.Forall2
import Mathlib.Logic.Basic
import WorkflowRuns.Proofs.Session.Needs

/-!
# In which order a job lists what it needs

A snapshot splits the jobs that are needed: of those that are registered it tells, and the others it
lists as missing. What it tells does not depend on the order of the list, nor on how often a job is
in it. Two histories in which jobs list the same needs in other ways (`Call.Relisted`) therefore show
the same `needs` context at every moment, although the records of those jobs differ.
-/

namespace WorkflowRuns

/-! ## What a snapshot tells -/

namespace Context.Needs

variable {jobs jobs' : Dict String JobRun} {ids ids' : List String} {id : String}

theorem get?_snapshot_eq_some_iff {need : Context.Need} :
    (snapshot jobs ids).1.get? id = some need ↔ id ∈ ids ∧ ∃ run, jobs.get? id = some run ∧
      need = { result := run.conclusion, outputs := run.outputs } := by
  rw [get?_snapshot]
  by_cases h : id ∈ ids
  · simp [h, Need.ofRun, @eq_comm _ need]
  · simp [h]

theorem contains_snapshot_iff :
    (snapshot jobs ids).1.contains id = true ↔ id ∈ ids ∧ (jobs.get? id).isSome = true := by
  unfold Dict.contains
  rw [get?_snapshot]
  by_cases h : id ∈ ids <;> simp [h]

theorem mem_snapshot_missing_iff :
    id ∈ (snapshot jobs ids).2 ↔ id ∈ ids ∧ (jobs.get? id).isNone = true := by
  rw [snapshot_missing, List.mem_filter]

/-- A snapshot depends on which jobs are needed and on what they tell, and on nothing else. -/
theorem snapshot_congr (hids : ∀ id, id ∈ ids' ↔ id ∈ ids)
    (hjobs : ∀ id, (jobs'.get? id).map Need.ofRun = (jobs.get? id).map Need.ofRun) :
    (snapshot jobs' ids').1 = (snapshot jobs ids).1 := by
  refine Dict.ext_get? fun id => ?_
  rw [get?_snapshot, get?_snapshot, hjobs]
  by_cases h : id ∈ ids
  · rw [if_pos h, if_pos ((hids id).2 h)]
  · rw [if_neg h, if_neg fun h' => h ((hids id).1 h')]

end Context.Needs

/-! ## Needs that are listed in another way -/

/-- The run of a job with another list of needs. -/
def JobRun.needing (r : JobRun) (ids : List String) : JobRun :=
  { r with job := { r.job with needs := ids } }

/-- The same run of a job, but that it lists its needs in another order or more often. -/
def JobRun.Relisted (r r' : JobRun) : Prop :=
  ∃ ids, (∀ id, id ∈ ids ↔ id ∈ r.job.needs) ∧ r' = r.needing ids

/-- The same run of a workflow, but that jobs list their needs in other ways. -/
def WorkflowRun.Relisted (w w' : WorkflowRun) : Prop :=
  ∃ jobs, (∀ id, Option.Rel JobRun.Relisted (w.jobs.get? id) (jobs.get? id)) ∧
    w' = { w with jobs := jobs }

/-- Whether a call can bring in lists of needs. -/
def Call.bringsNeeds : Call → Bool
  | .startWorkflow _ | .editWorkflow _ | .startJob _ => true
  | _ => false

/-- The same call, but that jobs list their needs in other ways. A change from outside must not look
at the order in which they do. -/
inductive Call.Relisted : Call → Call → Prop where
  | startWorkflow {run run' : WorkflowRun} (h : run.Relisted run') :
      Relisted (.startWorkflow run) (.startWorkflow run')
  | editWorkflow {change change' : WorkflowRun → WorkflowRun}
      (h : ∀ w w', w.Relisted w' → (change w).Relisted (change' w')) :
      Relisted (.editWorkflow change) (.editWorkflow change')
  | startJob {run run' : JobRun} (h : run.Relisted run') :
      Relisted (.startJob run) (.startJob run')
  | other {c : Call} (hc : c.bringsNeeds = false) : Relisted c c

theorem rel_cases {α : Type} {R : α → α → Prop} {a b : Option α} (h : Option.Rel R a b) :
    (a = none ∧ b = none) ∨ ∃ x y, a = some x ∧ b = some y ∧ R x y := by
  cases h with
  | none => exact .inl ⟨rfl, rfl⟩
  | some h => exact .inr ⟨_, _, rfl, rfl, h⟩

theorem rel_self {α : Type} {R : α → α → Prop} (h : ∀ a, R a a) (a : Option α) :
    Option.Rel R a a := by
  cases a with
  | none => exact .none
  | some a => exact .some (h a)

namespace JobRun.Relisted

variable {r r' : JobRun}

theorem refl (r : JobRun) : r.Relisted r := ⟨r.job.needs, fun _ => Iff.rfl, rfl⟩

theorem needs (h : r.Relisted r') (id : String) : id ∈ r'.job.needs ↔ id ∈ r.job.needs := by
  obtain ⟨ids, hids, rfl⟩ := h
  exact hids id

theorem id (h : r.Relisted r') : r'.job.id = r.job.id := by
  obtain ⟨ids, -, rfl⟩ := h
  rfl

theorem matrix (h : r.Relisted r') : r'.matrix = r.matrix := by
  obtain ⟨ids, -, rfl⟩ := h
  rfl

theorem conclusion (h : r.Relisted r') : r'.conclusion = r.conclusion := by
  obtain ⟨ids, -, rfl⟩ := h
  rfl

theorem told (h : r.Relisted r') : Context.Need.ofRun r' = .ofRun r := by
  obtain ⟨ids, -, rfl⟩ := h
  rfl

theorem concluded (h : r.Relisted r') (conclusion outcome : Conclusion) (outputs : Variables) :
    (r.concluded conclusion outcome outputs).Relisted (r'.concluded conclusion outcome outputs) := by
  obtain ⟨ids, hids, rfl⟩ := h
  exact ⟨ids, hids, rfl⟩

theorem withStep (h : r.Relisted r') (step : StepRun) :
    (r.withStep step).Relisted (r'.withStep step) := by
  obtain ⟨ids, hids, rfl⟩ := h
  exact ⟨ids, hids, rfl⟩

end JobRun.Relisted

namespace WorkflowRun.Relisted

variable {w w' : WorkflowRun} {r r' : JobRun}

theorem refl (w : WorkflowRun) : w.Relisted w :=
  ⟨w.jobs, fun id => rel_self JobRun.Relisted.refl (w.jobs.get? id), rfl⟩

theorem conclusion (h : w.Relisted w') : w'.conclusion = w.conclusion := by
  obtain ⟨jobs, -, rfl⟩ := h
  rfl

theorem register (hw : w.Relisted w') (hr : r.Relisted r') :
    (w.register r).Relisted (w'.register r') := by
  obtain ⟨jobs, hjobs, rfl⟩ := hw
  refine ⟨jobs.insert r'.job.id r', fun id => ?_, rfl⟩
  rw [register_jobs, Dict.get?_insert, Dict.get?_insert, hr.id]
  by_cases h : id = r.job.id
  · rw [if_pos h, if_pos h]
    exact .some hr
  · rw [if_neg h, if_neg h]
    exact hjobs id

theorem conclude (hw : w.Relisted w') (c : Conclusion) :
    (w.conclude c).Relisted (w'.conclude c) := by
  obtain ⟨jobs, hjobs, rfl⟩ := hw
  unfold WorkflowRun.conclude
  dsimp only
  split
  · exact ⟨jobs, hjobs, rfl⟩
  · exact ⟨jobs, hjobs, rfl⟩

/-- What a job is told of another one does not depend on how that one lists its needs. -/
theorem told (hw : w.Relisted w') (id : String) :
    (w'.jobs.get? id).map Context.Need.ofRun = (w.jobs.get? id).map .ofRun := by
  obtain ⟨jobs, hjobs, rfl⟩ := hw
  rcases rel_cases (hjobs id) with ⟨hnone, hnone'⟩ | ⟨run, run', hrun, hrun', hr⟩
  · rw [hnone, hnone']
  · rw [hrun, hrun', Option.map_some, Option.map_some, hr.told]

end WorkflowRun.Relisted

namespace Session

variable {s t : Session} {c d : Call} {calls calls' : List Call}

/-- A session with other records of the active workflow and the active job. -/
def recording (s : Session) (w : Option WorkflowRun) (j : Option JobRun) : Session :=
  { s with workflowRun := w, jobRun := j }

/-- The same session, but that jobs list their needs in other ways. -/
def Relisted (s t : Session) : Prop :=
  ∃ w j, Option.Rel WorkflowRun.Relisted s.workflowRun w ∧
    Option.Rel JobRun.Relisted s.jobRun j ∧ t = s.recording w j

theorem effective_relisted {w w' : Option WorkflowRun} {j j' : Option JobRun}
    (hw : Option.Rel WorkflowRun.Relisted w w') (hj : Option.Rel JobRun.Relisted j j')
    (step : Option StepRun) : effective w' j' step = effective w j step := by
  rcases rel_cases hw with ⟨rfl, rfl⟩ | ⟨w, _, rfl, rfl, jobs, -, rfl⟩ <;>
    rcases rel_cases hj with ⟨rfl, rfl⟩ | ⟨r, _, rfl, rfl, ids, -, rfl⟩ <;> rfl

namespace Relisted

theorem refl (s : Session) : s.Relisted s :=
  ⟨s.workflowRun, s.jobRun, rel_self WorkflowRun.Relisted.refl _, rel_self JobRun.Relisted.refl _,
    rfl⟩

variable (h : s.Relisted t)
include h

theorem needs : t.needs = s.needs := by
  obtain ⟨w', j', -, -, rfl⟩ := h
  rfl

theorem startWorkflow {run run' : WorkflowRun} (hrun : run.Relisted run') :
    (s.startWorkflow run).session.Relisted (t.startWorkflow run').session := by
  obtain ⟨_, _, -, -, rfl⟩ := h
  obtain ⟨jobs, hjobs, rfl⟩ := hrun
  rw [startWorkflow_session, startWorkflow_session]
  exact ⟨some _, none, .some ⟨jobs, hjobs, rfl⟩, .none, rfl⟩

theorem retireWorkflow (result : RunResult) :
    (s.retireWorkflow result).session.Relisted (t.retireWorkflow result).session := by
  obtain ⟨w', j', hw, hj, rfl⟩ := h
  rcases rel_cases hw with ⟨hs, rfl⟩ | ⟨w, w', hs, rfl, -⟩
  · rw [retireWorkflow_of_none hs, retireWorkflow_of_none (s := s.recording none j') rfl]
    exact ⟨none, j', hw, hj, rfl⟩
  · rw [retireWorkflow_session hs, retireWorkflow_session (s := s.recording (some w') j') rfl]
    exact ⟨none, none, .none, .none, rfl⟩

theorem editWorkflow {change change' : WorkflowRun → WorkflowRun}
    (hchange : ∀ w w', w.Relisted w' → (change w).Relisted (change' w')) :
    (s.editWorkflow change).session.Relisted (t.editWorkflow change').session := by
  obtain ⟨w', j', hw, hj, rfl⟩ := h
  refine ⟨w'.map change', j', ?_, hj, rfl⟩
  show Option.Rel _ (s.workflowRun.map change) _
  rcases rel_cases hw with ⟨hs, rfl⟩ | ⟨w, w', hs, rfl, hrun⟩
  · rw [hs]
    exact .none
  · rw [hs]
    exact .some (hchange w w' hrun)

theorem startJob {run run' : JobRun} (hrun : run.Relisted run') :
    (s.startJob run).session.Relisted (t.startJob run').session := by
  obtain ⟨w', j', hw, hj, rfl⟩ := h
  rcases rel_cases hw with ⟨hs, rfl⟩ | ⟨w, w', hs, rfl, hwork⟩
  · rw [startJob_of_none hs, startJob_of_none (s := s.recording none j') rfl]
    exact ⟨none, j', hw, hj, rfl⟩
  · -- the one call that looks at a list of needs, and only at what is in it
    have hregister := hwork.register hrun
    have hneeds := Context.Needs.snapshot_congr hrun.needs hregister.told
    have henvironment := effective_relisted (.some hregister) (.some hrun) none
    rw [startJob_session hs, startJob_session (s := s.recording (some w') j') rfl, hneeds,
      henvironment, hwork.conclusion, hrun.id, hrun.matrix]
    exact ⟨some _, some run', .some hregister, .some hrun, rfl⟩

theorem retireJob (result : RunResult) :
    (s.retireJob result).session.Relisted (t.retireJob result).session := by
  obtain ⟨w', j', hw, hj, rfl⟩ := h
  rcases rel_cases hj with ⟨hs, rfl⟩ | ⟨r, r', hs, rfl, hjob⟩
  · rw [retireJob_of_none hs, retireJob_of_none (s := s.recording w' none) rfl]
    exact ⟨w', none, hw, hj, rfl⟩
  rcases rel_cases hw with ⟨hs', rfl⟩ | ⟨w, w', hs', rfl, hwork⟩
  · rw [retireJob_outside hs' hs, retireJob_outside (s := s.recording none (some r')) rfl rfl]
    exact ⟨none, none, hw, .none, rfl⟩
  · have hretired := (hwork.register hjob).conclude r.conclusion
    have henvironment := effective_relisted (j := none) (.some hretired) .none none
    rw [retireJob_session hs' hs, retireJob_session (s := s.recording (some w') (some r')) rfl rfl,
      hjob.conclusion, henvironment]
    exact ⟨some _, none, .some hretired, .none, rfl⟩

theorem concludeJob (conclusion outcome : Conclusion) (outputs : Variables) :
    (s.concludeJob conclusion outcome outputs).session.Relisted
      (t.concludeJob conclusion outcome outputs).session := by
  obtain ⟨w', j', hw, hj, rfl⟩ := h
  rcases rel_cases hj with ⟨hs, rfl⟩ | ⟨r, r', hs, rfl, hjob⟩
  · rw [concludeJob_of_none hs, concludeJob_of_none (s := s.recording w' none) rfl]
    exact ⟨w', none, hw, hj, rfl⟩
  · rw [concludeJob_session hs, concludeJob_session (s := s.recording w' (some r')) rfl]
    exact ⟨w', some _, hw, .some (hjob.concluded conclusion outcome outputs), rfl⟩

theorem startStep (run : StepRun) :
    (s.startStep run).session.Relisted (t.startStep run).session := by
  obtain ⟨w', j', hw, hj, rfl⟩ := h
  rcases rel_cases hj with ⟨hs, rfl⟩ | ⟨r, r', hs, rfl, hjob⟩
  · rw [startStep_of_none hs, startStep_of_none (s := s.recording w' none) rfl]
    exact ⟨w', none, hw, hj, rfl⟩
  · have henvironment : effective (s.recording w' (some r')).workflowRun (some r') (some run) =
        effective s.workflowRun (some r) (some run) := effective_relisted hw (.some hjob) (some run)
    rw [startStep_session hs, startStep_session (s := s.recording w' (some r')) rfl, henvironment]
    exact ⟨w', some r', hw, hj, rfl⟩

theorem retireStep (result : RunResult) :
    (s.retireStep result).session.Relisted (t.retireStep result).session := by
  obtain ⟨w', j', hw, hj, rfl⟩ := h
  cases hs : s.stepRun with
  | none =>
    rw [retireStep_of_none hs, retireStep_of_none (s := s.recording w' j') hs]
    exact ⟨w', j', hw, hj, rfl⟩
  | some step =>
    have hjob : Option.Rel JobRun.Relisted (s.jobRun.map (·.withStep step))
        ((s.recording w' j').jobRun.map (·.withStep step)) := by
      show Option.Rel _ _ (j'.map _)
      rcases rel_cases hj with ⟨hnone, rfl⟩ | ⟨r, r', hsome, rfl, hr⟩
      · rw [hnone]
        exact .none
      · rw [hsome]
        exact .some (hr.withStep step)
    have henvironment : effective (s.recording w' j').workflowRun
        ((s.recording w' j').jobRun.map (·.withStep step)) none =
          effective s.workflowRun (s.jobRun.map (·.withStep step)) none :=
      effective_relisted hw hjob none
    rw [retireStep_session hs, retireStep_session (s := s.recording w' j') hs, henvironment]
    exact ⟨w', _, hw, hjob, rfl⟩

theorem write (w : StepWrite) : (s.write w).session.Relisted (t.write w).session := by
  obtain ⟨w', j', hw, hj, rfl⟩ := h
  cases hs : s.stepRun with
  | none =>
    rw [write_of_none hs, write_of_none (s := s.recording w' j') hs]
    exact ⟨w', j', hw, hj, rfl⟩
  | some step =>
    rw [write_session hs, write_session (s := s.recording w' j') hs]
    exact ⟨w', j', hw, hj, rfl⟩

theorem takeOver (contents : EnvironmentFiles.Contents) :
    (s.takeOver contents).session.Relisted (t.takeOver contents).session := by
  obtain ⟨w', j', hw, hj, rfl⟩ := h
  cases hs : s.stepRun with
  | none =>
    rw [takeOver_of_none hs, takeOver_of_none (s := s.recording w' j') hs]
    exact ⟨w', j', hw, hj, rfl⟩
  | some step =>
    rw [takeOver_session hs, takeOver_session (s := s.recording w' j') hs]
    exact ⟨w', j', hw, hj, rfl⟩

/-- Calls that list needs in other ways lead to sessions that do. -/
theorem perform (hc : c.Relisted d) : (s.perform c).session.Relisted (t.perform d).session := by
  cases hc with
  | startWorkflow hrun => exact h.startWorkflow hrun
  | editWorkflow hchange => exact h.editWorkflow hchange
  | startJob hrun => exact h.startJob hrun
  | other hc =>
    cases c with
    | startWorkflow | editWorkflow | startJob => cases hc
    | retireWorkflow result => exact h.retireWorkflow result
    | retireJob result => exact h.retireJob result
    | concludeJob conclusion outcome outputs => exact h.concludeJob conclusion outcome outputs
    | startStep run => exact h.startStep run
    | retireStep result => exact h.retireStep result
    | write w => exact h.write w
    | takeOver contents => exact h.takeOver contents
    | startAction | leaveAction | nameEnvironmentFile | namePathFile =>
      obtain ⟨w', j', hw, hj, rfl⟩ := h
      exact ⟨w', j', hw, hj, rfl⟩

theorem performAll (hcalls : List.Forall₂ Call.Relisted calls calls') :
    (s.performAll calls).Relisted (t.performAll calls') := by
  induction hcalls generalizing s t with
  | nil => exact h
  | cons hc _ ih => exact ih (h.perform hc)

end Relisted

/-- **What a job needs is split exactly.** Of the jobs that are needed, a snapshot tells the
conclusion and the outputs of those that are registered, and lists the others in the order and as
often as they are needed, so each of them is in precisely one of the two. What it tells does not
depend on the order of the list, nor on how often a job is in it: a job that lists its needs in
another way sees the same, and so do all jobs after it, whatever happens until the next one starts. -/
theorem snapshot_splits (jobs : Dict String JobRun) (ids : List String) :
    let needs := (Context.Needs.snapshot jobs ids).1
    let missing := (Context.Needs.snapshot jobs ids).2
    (∀ id need, needs.get? id = some need ↔ id ∈ ids ∧ ∃ run, jobs.get? id = some run ∧
      need = { result := run.conclusion, outputs := run.outputs }) ∧
    missing = ids.filter (fun id => (jobs.get? id).isNone) ∧
    (∀ id ∈ ids, Xor (needs.contains id = true) (id ∈ missing)) ∧
    ∀ ids', (∀ id, id ∈ ids' ↔ id ∈ ids) →
      (Context.Needs.snapshot jobs ids').1 = needs ∧
      ∀ (s : Session) (run : JobRun) (later later' : List Call),
        List.Forall₂ Call.Relisted later later' →
        let t := s.performAll (.startJob (run.needing ids) :: later)
        let t' := s.performAll (.startJob (run.needing ids') :: later')
        ∀ last last', t.Along OpensNoJob last → t'.Along OpensNoJob last' →
          Expression.lookUp? (t'.performAll last') "needs" =
            Expression.lookUp? (t.performAll last) "needs" := by
  intro needs missing
  refine ⟨fun id need => Context.Needs.get?_snapshot_eq_some_iff,
    Context.Needs.snapshot_missing jobs ids, fun id hid => ?_, fun ids' hids => ⟨?_, ?_⟩⟩
  · -- one of the two
    rw [Context.Needs.contains_snapshot_iff, Context.Needs.mem_snapshot_missing_iff]
    cases jobs.get? id with
    | some run => exact .inl ⟨⟨hid, rfl⟩, fun h => Bool.false_ne_true h.2⟩
    | none => exact .inr ⟨⟨hid, rfl⟩, fun h => Bool.false_ne_true h.2⟩
  · -- another order
    exact Context.Needs.snapshot_congr hids fun _ => rfl
  · -- what jobs see from then on
    intro s run later later' hlater t t' last last' hlast hlast'
    have hrun : (run.needing ids).Relisted (run.needing ids') := ⟨ids', hids, rfl⟩
    have hsessions : t.Relisted t' :=
      (Relisted.refl s).performAll (.cons (.startJob hrun) hlater)
    have hneeds : (t'.performAll last').needs = (t.performAll last).needs := by
      rw [needs_performAll hlast, needs_performAll hlast', hsessions.needs]
    exact congrArg (fun needs : Context.Needs => some (Expression.Variable.value needs.toJson))
      hneeds

/-- A job lists its needs in another order, and so does one that needs it. While that one is active,
the record is edited on one side, and on the other side the job ends. -/
theorem snapshot_splits_reordered :
    let jobs : Dict String JobRun := .ofList [("build", { conclusion := .failure }), ("lint", {})]
    let s := ((start "/ghx" {} {} ∅ ∅ (.inMemory ∅)).startWorkflow { jobs := jobs }).session
    let ids := ["build", "docs", "lint", "build"]
    let ids' := ["lint", "build", "build", "docs"]
    let test : JobRun := { job := { id := "test" } }
    let deploy : JobRun := { job := { id := "deploy", needs := ["test", "lint"] } }
    let later : List Call := [.concludeJob .neutral .failure ∅, .startJob deploy]
    let later' : List Call :=
      [.concludeJob .neutral .failure ∅, .startJob (deploy.needing ["lint", "test"])]
    let t := s.performAll (.startJob (test.needing ids) :: later)
    let t' := s.performAll (.startJob (test.needing ids') :: later')
    let edited : List Call := [.editWorkflow fun run => { run with jobs := ∅ }]
    let ended : List Call := [.retireJob (.complete .epoch .epoch)]
    ids'.Perm ids ∧ (Context.Needs.snapshot jobs ids).2 = ["docs"] ∧
      List.Forall₂ Call.Relisted later later' ∧ t.Along OpensNoJob edited ∧
      t'.Along OpensNoJob ended ∧
      Expression.lookUp? (t'.performAll ended) "needs" =
        Expression.lookUp? (t.performAll edited) "needs" := by
  intro jobs s ids ids' test deploy later later' t t' edited ended
  have hperm : ids'.Perm ids := by decide
  have hdocs : ids.filter (fun id => (jobs.get? id).isNone) = ["docs"] := by decide +kernel
  have hdeploy : deploy.Relisted (deploy.needing ["lint", "test"]) :=
    ⟨_, fun _ => (List.Perm.swap "test" "lint" []).mem_iff, rfl⟩
  have hlater : List.Forall₂ Call.Relisted later later' :=
    .cons (.other rfl) (.cons (.startJob hdeploy) .nil)
  have hedited : t.Along OpensNoJob edited := ⟨trivial, trivial⟩
  have hended : t'.Along OpensNoJob ended := ⟨trivial, trivial⟩
  obtain ⟨-, hmissing, -, hsame⟩ := snapshot_splits jobs ids
  obtain ⟨-, hshown⟩ := hsame ids' fun _ => hperm.mem_iff
  exact ⟨hperm, hmissing.trans hdocs, hlater, hedited, hended,
    hshown s test later later' hlater edited ended hedited hended⟩

end Session

end WorkflowRuns
