import WorkflowRuns.Proofs.Expression.Objects
import WorkflowRuns.Proofs.Session.JobRecords

/-!
# What a job is told of the jobs that it needs

A job that starts looks up the jobs it needs in the record of the workflow. There it finds what the
latest activation of each left behind, so the results of a job that ended reach the jobs that need
it, and stay as they are while those run (`needs_of_history`).

The record also has jobs that were started and have not ended, and the job itself. Of these a job is
told too, without a warning: it is told only of jobs that have ended exactly if none of the others is
among those that it needs (`needs_known_of_history`).
-/

namespace WorkflowRuns

/-- Whether a call neither starts a workflow nor changes the record of one from outside. -/
def Call.withinWorkflow : Call → Bool
  | .startWorkflow _ | .editWorkflow _ => false
  | _ => true

/-! ## The look-up -/

namespace Context.Needs

theorem get?_snapshot (jobs : Dict String JobRun) (ids : List String) (id : String) :
    (snapshot jobs ids).1.get? id = if id ∈ ids then (jobs.get? id).map .ofRun else none := by
  induction ids with
  | nil => rfl
  | cons need ids ih =>
    unfold snapshot
    by_cases h : id = need
    · subst h
      cases hjob : jobs.get? id with
      | some run => simp
      | none => simp [ih, hjob]
    · cases jobs.get? need <;> simp [ih, h, Dict.get?_insert]

theorem snapshot_missing (jobs : Dict String JobRun) (ids : List String) :
    (snapshot jobs ids).2 = ids.filter fun id => (jobs.get? id).isNone := by
  induction ids with
  | nil => rfl
  | cons need ids ih =>
    unfold snapshot
    cases h : jobs.get? need <;> simp [ih, h]

end Context.Needs

/-! ## What activations leave behind -/

namespace Activation

variable {id : String} {activations : List (Activation JobRun)}

/-- An activation, by the identifier of its job. -/
def ofJob? (id : String) (a : Activation JobRun) : Option (Activation JobRun) :=
  if id = a.run.job.id then some a else none

/-- The identifiers of the jobs that were started. -/
def startedIds (activations : List (Activation JobRun)) : List String :=
  activations.map (·.run.job.id)

/-- The identifiers of the jobs that ended. -/
def endedIds (activations : List (Activation JobRun)) : List String :=
  startedIds (activations.filter (·.retired))

/-- The outputs of a job: those of its last results, or those with which it was started. -/
def outputs (a : Activation JobRun) : Variables :=
  (a.results?.map (·.outputs)).getD a.run.outputs

open Json in
/-- What the jobs that need a job are told of it. -/
def told (a : Activation JobRun) : Json := .object [
  ("outputs", ofEntries a.outputs.entries),
  ("result", .string a.conclusion.name)]

theorem toJson_ofRun_record {a : Activation JobRun} (h : a.retired = true) :
    (Context.Need.ofRun a.record).toJson = a.told := by
  have hrecord : a.record = a.finalJob := if_pos h
  rw [hrecord, Context.Need.toJson_eq]
  unfold told finalJob conclusion outputs Context.Need.ofRun
  cases a.results? <;> rfl

theorem latest_recordOf? (id : String) (activations : List (Activation JobRun)) :
    latest (recordOf? id) activations = (latest (ofJob? id) activations).map record := by
  have hrecord : recordOf? id = Option.map record ∘ ofJob? id := by
    funext a
    by_cases h : id = a.run.job.id <;> simp [recordOf?, ofJob?, h]
  unfold latest
  rw [hrecord, List.map_findSome?]

theorem isSome_latest_recordOf? :
    (latest (recordOf? id) activations).isSome ↔ id ∈ startedIds activations := by
  simp [latest, recordOf?, startedIds, @eq_comm _ id]

theorem startedIds_of_endedIds (h : id ∈ endedIds activations) : id ∈ startedIds activations := by
  unfold endedIds startedIds at h
  obtain ⟨a, ha, rfl⟩ := List.mem_map.1 h
  exact List.mem_map.2 ⟨a, (List.mem_filter.1 ha).1, rfl⟩

end Activation

/-! ## The start of a job -/

namespace Session

variable {s t : Session} {c : Call} {w run : WorkflowRun} {calls : List Call} {job : JobRun}

theorem startJob_needs (hw : s.workflowRun = some w) (job : JobRun) (id : String) :
    (s.startJob job).session.needs.get? id =
      if id ∈ job.job.needs then ((w.register job).jobs.get? id).map .ofRun else none := by
  rw [startJob_session hw]
  exact Context.Needs.get?_snapshot _ _ id

/-- What is said as a job starts: a warning in the log if it replaces another one, and one in the
trace for each job in a list that it needs in vain. -/
def saidAtStart (previous : Option JobRun) (job : JobRun) (missing : List String) : List Notice :=
  (previous.toList.map fun replaced =>
    .log ⟨.warn, s!"Replacing active job run {replaced.job.id} with {job.job.id}"⟩) ++
  missing.map fun need =>
    .trace ⟨.warning, s!"Job '{job.job.id}' needs '{need}' which has not run"⟩

theorem startJob_notices (hw : s.workflowRun = some w) (job : JobRun) :
    (s.startJob job).notices = saidAtStart s.jobRun job
      (job.job.needs.filter fun id => ((w.register job).jobs.get? id).isNone) := by
  rw [← Context.Needs.snapshot_missing]
  simp only [startJob, hw]
  cases s.jobRun <;> rfl

/-- Once there is no workflow, there is none before the next one starts. -/
theorem workflowRun_none_effect (hw : s.workflowRun = none) (hc : c.withinWorkflow = true)
    (e : s.Effect c t) : t.workflowRun = none := by
  cases e with
  | startWorkflow | editWorkflow => cases hc
  | retireWorkflow => rfl
  | startJob hw' | retireJob hw' =>
    rw [hw] at hw'
    cases hw'
  | _ => exact hw

/-- While a workflow is active, none has ended that was started before. -/
theorem staysInWorkflow_of_active (hcalls : ∀ c ∈ calls, c.withinWorkflow = true)
    (hactive : (s.performAll calls).workflowRun = some run) :
    ∀ c ∈ calls, c.staysInWorkflow = true := by
  intro c hc
  obtain ⟨before, after, rfl⟩ := List.append_of_mem hc
  have hkeeps : c.withinWorkflow = true := hcalls c hc
  have hafter : ∀ c ∈ after, c.withinWorkflow = true := fun c h =>
    hcalls c (List.mem_append_right _ (List.mem_cons_of_mem _ h))
  cases c with
  | startWorkflow | editWorkflow => cases hkeeps
  | retireWorkflow result =>
    -- no workflow is active from here on
    have hnone : (s.performAll (before ++ .retireWorkflow result :: after)).workflowRun = none := by
      rw [performAll_append, performAll_cons]
      exact performAll_keeps (fun s c hc h => workflowRun_none_effect h hc (perform_effect s c))
        hafter (retireWorkflow_workflowRun _ result)
    rw [hnone] at hactive
    cases hactive
  | _ => rfl

/-- The record that a job finds at its start is that of all activations before. -/
theorem record_of_startJob (s : Session) (w : WorkflowRun)
    (hcalls : ∀ c ∈ calls, c.withinWorkflow = true)
    (hdone : (((s.startWorkflow w).session.performAll calls).startJob job).reply = .done) :
    ∃ run, ((s.startWorkflow w).session.performAll calls).workflowRun = some run ∧
      ∀ id, (run.register job).jobs.get? id =
        if id = job.job.id then some job
        else (latest (Activation.recordOf? id)
          (jobScope.activations ((s.startWorkflow w).session.events calls))).or
            (w.jobs.get? id) := by
  obtain ⟨run, hrun⟩ := startJob_reply_done.1 hdone
  have hstays := staysInWorkflow_of_active hcalls hrun
  refine ⟨run, hrun, fun id => ?_⟩
  rw [workflowRun_of_startWorkflow s w hstays] at hrun
  rw [WorkflowRun.register_jobs, Dict.get?_insert, ← Option.some.inj hrun,
    WorkflowRun.get?_foldl_settle_jobs]
  rfl

/-! ## From one job to the next -/

/-- The `needs` context lasts as long as no other job starts. -/
theorem needs_effect (hc : s.OpensNoJob c) (e : s.Effect c t) : t.needs = s.needs := by
  cases e with
  | startWorkflow => exact hc.elim
  | startJob hw => simp [OpensNoJob, hw] at hc
  | _ => rfl

theorem needs_performAll {more : List Call} (hmore : s.Along OpensNoJob more) :
    (s.performAll more).needs = s.needs :=
  Along.keeps (I := fun t => t.needs = s.needs)
    (fun t c hc h => (needs_effect hc (perform_effect t c)).trans h) hmore rfl

/-- **Results reach the jobs that need them.** Whatever ran in between, a job that starts finds,
under the identifier of every other job that it needs and whose latest activation in the workflow was
retired, the last results of that activation, or those with which it was started. What it finds stays
as it is until the next job or workflow starts, even if the record is edited. -/
theorem needs_of_history (s : Session) (w : WorkflowRun) (calls : List Call)
    (hcalls : ∀ c ∈ calls, c.withinWorkflow = true) (job : JobRun)
    (hdone : (((s.startWorkflow w).session.performAll calls).startJob job).reply = .done) :
    let begun := (s.startWorkflow w).session
    let activations := jobScope.activations (begun.events calls)
    let started := ((begun.performAll calls).startJob job).session
    ∃ members,
      (∀ more, started.Along OpensNoJob more →
        (started.performAll more).needs = started.needs ∧
        Expression.lookUp? (started.performAll more) "needs" = some (.value (.object members))) ∧
      ∀ id a, latest (Activation.ofJob? id) activations = some a → a.retired = true →
        id ∈ job.job.needs → job.job.id ≠ id → Json.lookUp? id members = some (some a.told) := by
  intro begun activations started
  obtain ⟨run, hrun, hrecord⟩ := record_of_startJob s w hcalls hdone
  obtain ⟨members, hobject, hmembers⟩ := shows_needs started
  refine ⟨members, fun more hmore => ?_, fun id a hlatest hretired hneeded hother => ?_⟩
  · -- later calls
    have hneeds := needs_performAll hmore
    refine ⟨hneeds, ?_⟩
    rw [← hobject]
    exact congrArg (fun needs : Context.Needs => some (Expression.Variable.value needs.toJson))
      hneeds
  · -- what the job finds
    have hget : started.needs.get? id = some (.ofRun a.record) := by
      rw [startJob_needs hrun job id, if_pos hneeded, hrecord, if_neg hother.symm,
        Activation.latest_recordOf?, hlatest]
      rfl
    calc Json.lookUp? id members
        = some ((started.needs.get? id).map Context.Need.toJson) := hmembers id
      _ = some (some (Context.Need.ofRun a.record).toJson) := by rw [hget]; rfl
      _ = some (some a.told) := by rw [Activation.toJson_ofRun_record hretired]

/-- A job succeeds and fails when it runs again. One that needs it starts after another job, its
record is edited, and job and workflow end. -/
theorem needs_of_history_edited_record :
    let result : RunResult := .complete .epoch .epoch
    let built := start "/ghx" {} {} ∅ ∅ (.inMemory ∅)
    let begun := (built.startWorkflow {}).session
    let build : JobRun := { job := { id := "build" } }
    let calls : List Call := [
      .startJob build, .concludeJob .success .success (Dict.insert ∅ "x" "1"), .retireJob result,
      .startJob build, .concludeJob .failure .failure (Dict.insert ∅ "x" "2"), .retireJob result,
      .startJob { job := { id := "lint" } }, .retireJob result]
    let deploy : JobRun := { job := { id := "deploy", needs := ["build", "lint"] } }
    let started := ((begun.performAll calls).startJob deploy).session
    let more : List Call := [
      .editWorkflow fun run => { run with jobs := ∅ }, .concludeJob .neutral .neutral ∅,
      .retireJob result, .retireWorkflow result, .startJob build]
    (∀ c ∈ calls, c.withinWorkflow = true) ∧
      ((begun.performAll calls).startJob deploy).reply = .done ∧
      started.Along OpensNoJob more ∧
      ∃ members,
        Expression.lookUp? (started.performAll more) "needs" = some (.value (.object members)) ∧
        Json.lookUp? "build" members = some (some (.object [
          ("outputs", .object [("x", .string "2")]), ("result", .string "failure")])) := by
  intro result built begun build calls deploy started more
  have hcalls : ∀ c ∈ calls, c.withinWorkflow = true := by decide
  have hmore : started.Along OpensNoJob more := by
    simp only [more, Along, OpensNoJob, perform, retireWorkflow_workflowRun, and_self]
  have hdone : ((begun.performAll calls).startJob deploy).reply = .done := rfl
  obtain ⟨members, hlast, htold⟩ := needs_of_history built {} calls hcalls deploy hdone
  have hlatest : (latest (Activation.ofJob? "build")
      (jobScope.activations (begun.events calls))).map
        (fun a => (a.retired, a.outputs, a.conclusion)) =
          some (true, Dict.insert ∅ "x" "2", .failure) := by
    decide +kernel
  obtain ⟨a, ha, hends⟩ := Option.map_eq_some_iff.1 hlatest
  have hretired : a.retired = true := congrArg (·.1) hends
  have hbuild := htold "build" a ha hretired (by decide) (by decide)
  rw [Activation.told, show a.outputs = _ from congrArg (·.2.1) hends,
    show a.conclusion = _ from congrArg (·.2.2) hends] at hbuild
  exact ⟨hcalls, hdone, hmore, members, (hlast more hmore).2, hbuild⟩

/-! ## Jobs that have not ended -/

/-- A job that starts is told of no job but `known` ones, and there is a warning each time it needs
another one. -/
structure ToldOnlyOf (known : List String) (previous : Option JobRun) (job : JobRun)
    (o : Outcome) : Prop where
  shown : ∀ id, id ∉ known → o.session.needs.get? id = none
  warned : o.notices = saidAtStart previous job (job.job.needs.filter fun id => id ∉ known)

/-- A job is told of what is registered with it, and warned of the rest. -/
theorem toldOnlyOf_startJob {registered : List String} (hw : s.workflowRun = some w)
    (hfound : ∀ id, ((w.register job).jobs.get? id).isSome ↔ id ∈ registered) :
    (∀ id, ((s.startJob job).session.needs.get? id).isSome ↔
        id ∈ job.job.needs ∧ id ∈ registered) ∧
      ToldOnlyOf registered s.jobRun job (s.startJob job) := by
  have hshown : ∀ id, ((s.startJob job).session.needs.get? id).isSome ↔
      id ∈ job.job.needs ∧ id ∈ registered := by
    intro id
    rw [startJob_needs hw]
    by_cases h : id ∈ job.job.needs
    · rw [if_pos h, Option.isSome_map, hfound]
      simp [h]
    · simp [h]
  refine ⟨hshown, fun id hid => ?_, ?_⟩
  · exact Option.not_isSome_iff_eq_none.1 fun hsome => hid ((hshown id).1 hsome).2
  · have hmissing : (job.job.needs.filter fun id => ((w.register job).jobs.get? id).isNone) =
        job.job.needs.filter fun id => id ∉ registered := by
      refine List.filter_congr fun id _ => ?_
      rw [Bool.eq_iff_iff, decide_eq_true_iff, Option.isNone_iff_eq_none, ← hfound,
        Option.not_isSome_iff_eq_none]
    rw [startJob_notices hw, hmissing]

/-- Where a job is told of all `registered` jobs that it needs, it is told only of `known` ones if it
needs no other. -/
theorem ToldOnlyOf.iff_known {registered known : List String} {previous : Option JobRun}
    {o : Outcome} (h : ToldOnlyOf registered previous job o)
    (hshown : ∀ id, (o.session.needs.get? id).isSome ↔
      id ∈ job.job.needs ∧ id ∈ registered)
    (hknown : ∀ id ∈ known, id ∈ registered) :
    ToldOnlyOf known previous job o ↔ ∀ id ∈ job.job.needs, id ∈ registered → id ∈ known := by
  constructor
  · -- a registered job is shown, so it has to be a known one
    intro hk id hneeded hregistered
    by_cases hid : id ∈ known
    · exact hid
    · have hsome := (hshown id).2 ⟨hneeded, hregistered⟩
      rw [hk.shown id hid] at hsome
      cases hsome
  · -- among the jobs that are needed the two lists agree
    intro hall
    refine ⟨fun id hid => ?_, ?_⟩
    · refine Option.not_isSome_iff_eq_none.1 fun hsome => hid ?_
      obtain ⟨hneeded, hregistered⟩ := (hshown id).1 hsome
      exact hall id hneeded hregistered
    · have hmissing : (job.job.needs.filter fun id => id ∉ known) =
          job.job.needs.filter fun id => id ∉ registered := by
        refine List.filter_congr fun id hneeded => decide_eq_decide.2 (not_congr ?_)
        exact ⟨hknown id, hall id hneeded⟩
      rw [h.warned, hmissing]

/-- **A job is told of every job that was started, and of itself.** What it needs and nobody started
is missing, with a warning each time it is needed. So it is told only of jobs that ended, and warned
of all others, exactly if every job that it needs and that was started has ended, and it does not
need itself unless it ended before. -/
theorem needs_known_of_history (s : Session) (w : WorkflowRun) (hjobs : w.jobs = ∅)
    (calls : List Call) (hcalls : ∀ c ∈ calls, c.withinWorkflow = true) (job : JobRun)
    (hdone : (((s.startWorkflow w).session.performAll calls).startJob job).reply = .done) :
    let begun := (s.startWorkflow w).session
    let t := begun.performAll calls
    let activations := jobScope.activations (begun.events calls)
    let registered := job.job.id :: Activation.startedIds activations
    let ended := Activation.endedIds activations
    (∀ id, ((t.startJob job).session.needs.get? id).isSome ↔
        id ∈ job.job.needs ∧ id ∈ registered) ∧
      ToldOnlyOf registered t.jobRun job (t.startJob job) ∧
      (ToldOnlyOf ended t.jobRun job (t.startJob job) ↔
        ∀ id ∈ job.job.needs, id ∈ registered → id ∈ ended) := by
  intro begun t activations registered ended
  obtain ⟨run, hrun, hrecord⟩ := record_of_startJob s w hcalls hdone
  have hfound : ∀ id, ((run.register job).jobs.get? id).isSome ↔ id ∈ registered := by
    intro id
    rw [hrecord, hjobs, Dict.get?_emptyCollection, Option.or_none]
    by_cases h : id = job.job.id
    · simp [registered, h]
    · rw [if_neg h, Activation.isSome_latest_recordOf?]
      simp [registered, activations, begun, h]
  obtain ⟨hshown, htold⟩ := toldOnlyOf_startJob hrun hfound
  exact ⟨hshown, htold, htold.iff_known hshown fun id hid =>
    List.mem_cons_of_mem _ (Activation.startedIds_of_endedIds hid)⟩

/-- A job ended and one is still active. A third one needs the first, and twice one that never
started: it is told of the first, and warned twice. -/
theorem needs_known_of_history_never_started :
    let result : RunResult := .complete .epoch .epoch
    let built := start "/ghx" {} {} ∅ ∅ (.inMemory ∅)
    let calls : List Call := [
      .startJob { job := { id := "build" } }, .retireJob result, .startJob { job := { id := "lint" } }]
    let deploy : JobRun := { job := { id := "deploy", needs := ["docs", "build", "docs"] } }
    (∀ c ∈ calls, c.withinWorkflow = true) ∧
      (((built.startWorkflow {}).session.performAll calls).startJob deploy).reply = .done ∧
      ((((built.startWorkflow {}).session.performAll calls).startJob deploy).session.needs.get?
        "build").isSome ∧
      ToldOnlyOf ["build"] ((built.startWorkflow {}).session.performAll calls).jobRun deploy
        (((built.startWorkflow {}).session.performAll calls).startJob deploy) := by
  intro result built calls deploy
  have hcalls : ∀ c ∈ calls, c.withinWorkflow = true := by decide
  have hdone : (((built.startWorkflow {}).session.performAll calls).startJob deploy).reply =
      .done := rfl
  obtain ⟨hshown, -, htold⟩ := needs_known_of_history built {} rfl calls hcalls deploy hdone
  have hended : Activation.endedIds
      (jobScope.activations ((built.startWorkflow {}).session.events calls)) = ["build"] := by
    decide +kernel
  have hstarted : Activation.startedIds
      (jobScope.activations ((built.startWorkflow {}).session.events calls)) =
        ["build", "lint"] := by
    decide +kernel
  rw [hended, hstarted] at htold
  rw [hstarted] at hshown
  exact ⟨hcalls, hdone, (hshown "build").2 (by decide), htold.2 (by decide)⟩

/-- A job that was replaced and never ended is told of, as a success, and so is a job to itself;
neither comes with a warning. -/
theorem not_toldOnlyOf_replaced_job :
    let begun := ((start "/ghx" {} {} ∅ ∅ (.inMemory ∅)).startWorkflow {}).session
    let calls : List Call := [.startJob { job := { id := "build" } }]
    let t := begun.performAll calls
    let deploy : JobRun := { job := { id := "deploy", needs := ["build", "deploy"] } }
    let told := (t.startJob deploy).session.needs
    let ended := Activation.endedIds (jobScope.activations (begun.events calls))
    (t.startJob deploy).reply = .done ∧ ended = [] ∧
      told.get? "build" = some { result := .success } ∧
      told.get? "deploy" = some { result := .success } ∧
      (t.startJob deploy).notices =
        [.log ⟨.warn, "Replacing active job run build with deploy"⟩] ∧
      ¬ ToldOnlyOf ended t.jobRun deploy (t.startJob deploy) := by
  intro begun calls t deploy told ended
  have hended : Activation.endedIds (jobScope.activations (begun.events calls)) = [] := by
    decide +kernel
  have hbuild : told.get? "build" = some { result := .success } := by decide +kernel
  have hdeploy : told.get? "deploy" = some { result := .success } := by decide +kernel
  have hnotices : (t.startJob deploy).notices =
      [.log ⟨.warn, "Replacing active job run build with deploy"⟩] := by
    have hrun : t.workflowRun = some (({} : WorkflowRun).register { job := { id := "build" } }) := rfl
    have hmissing : (deploy.job.needs.filter fun id => (((({} : WorkflowRun).register
        { job := { id := "build" } }).register deploy).jobs.get? id).isNone) = [] := by
      decide +kernel
    rw [startJob_notices hrun, hmissing]
    rfl
  refine ⟨rfl, hended, hbuild, hdeploy, hnotices, fun h => ?_⟩
  have hnone := h.shown "build" (by simp [ended, hended])
  rw [show (t.startJob deploy).session.needs.get? "build" = _ from hbuild] at hnone
  cases hnone

end Session

end WorkflowRuns
