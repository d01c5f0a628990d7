import WorkflowRuns.Proofs.Environment.Layers
import WorkflowRuns.Proofs.Session.Coherence

/-!
# The variables in force

A session keeps the variables in force and puts them in force anew at every change of a scope
(`InForce`). One call can fail to: a start of a workflow of which the process environment refuses a
variable breaks off with the new workflow active, and the variables stay what they were before it
(`Stale`). The next start of a workflow or job, or the end of the workflow, mends that, so after a
history the variables in force are those of the active scopes unless such a start was the last of
these calls (`BrokenOff`).
-/

namespace WorkflowRuns

/-- Whether a call sets the variables in force, or clears them, whatever they were before. -/
def Call.rescopes : Call → Bool
  | .startWorkflow _ | .retireWorkflow _ | .startJob _ => true
  | _ => false

/-- Whether the workflow and the job that are active before a call are so after it. -/
def Call.staysInJob : Call → Bool
  | .startWorkflow _ | .retireWorkflow _ | .editWorkflow _ | .startJob _ | .retireJob _ => false
  | _ => true

theorem Call.rescopes_of_staysInJob {c : Call} (h : c.staysInJob = true) : c.rescopes = false := by
  cases c <;> first | rfl | cases h

theorem Call.edits_of_staysInJob {c : Call} (h : c.staysInJob = true) : c.edits = false := by
  cases c <;> first | rfl | cases h

namespace Session

/-- What the active scopes define for a name: the step, else the job, else the workflow. -/
def defined (s : Session) (k : String) : Option String :=
  (s.stepRun.bind (·.step.environment.get? k)).or
    ((s.jobRun.bind (·.job.environment.get? k)).or
      (s.workflowRun.bind (·.workflow.environment.get? k)))

/-- The variables in force are those that the active scopes define. -/
def InForce (s : Session) : Prop :=
  s.environment = effective s.workflowRun s.jobRun s.stepRun

/-- No job is active, and the variables in force are some older ones. -/
structure Frozen (older : Variables) (s : Session) : Prop where
  noJob : s.jobRun = none
  noStep : s.stepRun = none
  environment : s.environment = older

/-- A workflow has just been started, and the variables in force are still older ones. -/
structure Stale (older : Variables) (s : Session) : Prop extends s.Frozen older where
  workflow : s.workflowRun.isSome

/-- A call leaves the workflow and the job be, by its kind or because it finds nothing to act on. -/
def LeavesJob (s : Session) (c : Call) : Prop := c.staysInJob = true ∨ s.Idle c

/-- Of the calls that set the variables in force the last was the start of a workflow after
`before`, and it broke off. -/
def BrokenOff (s : Session) (calls before : List Call) : Prop :=
  ∃ run after, calls = before ++ .startWorkflow run :: after ∧
    ((s.performAll before).startWorkflow run).reply = .aborted ∧ ∀ c ∈ after, c.rescopes = false

variable {s t : Session} {c : Call}

/-- Of a job and a step, only the definitions bear on the variables in force. -/
theorem effective_congr {workflow : Option WorkflowRun} {job job' : Option JobRun}
    {step step' : Option StepRun} (hjob : job.map (·.job) = job'.map (·.job))
    (hstep : step.map (·.step) = step'.map (·.step)) :
    effective workflow job step = effective workflow job' step' := by
  have hj (j : Option JobRun) : j.map (·.job.environment) = (j.map (·.job)).map (·.environment) :=
    by cases j <;> rfl
  have hs (r : Option StepRun) :
      r.map (·.step.environment) = (r.map (·.step)).map (·.environment) := by cases r <;> rfl
  unfold effective
  rw [hj job, hj job', hjob, hs step, hs step', hstep]

theorem InForce.get? (h : s.InForce) (k : String) : s.environment.get? k = s.defined k := by
  rw [h]
  exact get?_effective _ _ _ k

/-! ## What one call does to the variables in force -/

theorem startWorkflow_reply_aborted {run : WorkflowRun} :
    (s.startWorkflow run).reply = .aborted ↔ (s.handedOn run).2 = false := by
  rw [startWorkflow_reply]
  cases (s.handedOn run).2 <;> simp

theorem startWorkflow_reply_done {run : WorkflowRun} :
    (s.startWorkflow run).reply = .done ↔ (s.handedOn run).2 = true := by
  rw [startWorkflow_reply]
  cases (s.handedOn run).2 <;> simp

theorem inForce_startWorkflow {run : WorkflowRun} (h : (s.startWorkflow run).reply = .done) :
    (s.startWorkflow run).session.InForce := by
  unfold InForce
  rw [startWorkflow_session, startWorkflow_reply_done.1 h]
  rfl

theorem stale_startWorkflow {run : WorkflowRun} (h : (s.startWorkflow run).reply = .aborted) :
    (s.startWorkflow run).session.Stale s.environment := by
  rw [startWorkflow_session, startWorkflow_reply_aborted.1 h]
  exact ⟨⟨rfl, rfl, rfl⟩, rfl⟩

/-- Every call but a start that breaks off leaves the variables of the active scopes in force. -/
theorem InForce.effect (h : s.InForce) (hn : s.Nested) (hedit : c.edits = false)
    (hdone : ∀ run, c = .startWorkflow run → (s.startWorkflow run).reply = .done)
    (e : s.Effect c t) : t.InForce := by
  cases e with
  | startWorkflow run =>
    rw [← startWorkflow_session]
    exact inForce_startWorkflow (hdone run rfl)
  | editWorkflow => cases hedit
  | retireWorkflow | startJob | retireJob | retireStep => rfl
  | retireJobOutside hw hj =>
    have hwj := hn.jobInWorkflow
    rw [hw, hj] at hwj
    exact absurd (hwj rfl) (by simp)
  | concludeJob hj => exact Eq.trans h (effective_congr (by rw [hj]; rfl) rfl)
  | startStep hj =>
    unfold InForce
    rw [hj]
  | @write step hs w =>
    have hdef : (step.write w).step = step.step := (step.wrote_foldl [w]).step
    exact Eq.trans h (effective_congr rfl (by rw [hs, Option.map_some, Option.map_some, hdef]))
  | @takeOver step hs contents =>
    have hdef := (step.wrote_foldl (Handover.ofContents s.process contents).writes).step
    exact Eq.trans h (effective_congr rfl (by rw [hs, Option.map_some, Option.map_some, hdef]))
  | idle | startAction | leaveAction | nameEnvironmentFile | namePathFile => exact h

/-- Without a job the other calls change neither the workflow nor the variables. -/
theorem Frozen.effect {older : Variables} (h : s.Frozen older) (hc : c.rescopes = false)
    (hedit : c.edits = false) (e : s.Effect c t) :
    t.Frozen older ∧ t.workflowRun = s.workflowRun := by
  have hjob {job : JobRun} (hj : s.jobRun = some job) : False := by
    rw [h.noJob] at hj
    cases hj
  have hstep {step : StepRun} (hs : s.stepRun = some step) : False := by
    rw [h.noStep] at hs
    cases hs
  cases e with
  | startWorkflow | retireWorkflow | startJob => cases hc
  | editWorkflow => cases hedit
  | retireJob _ hj | retireJobOutside _ hj | concludeJob hj | startStep hj => exact (hjob hj).elim
  | retireStep hs | write hs | takeOver hs => exact (hstep hs).elim
  | idle | startAction | leaveAction | nameEnvironmentFile | namePathFile =>
    exact ⟨⟨h.noJob, h.noStep, h.environment⟩, rfl⟩

theorem Stale.effect {older : Variables} (h : s.Stale older) (hc : c.rescopes = false)
    (hedit : c.edits = false) (e : s.Effect c t) : t.Stale older := by
  obtain ⟨hfrozen, hworkflow⟩ := h.toFrozen.effect hc hedit e
  exact { hfrozen with workflow := by rw [hworkflow]; exact h.workflow }

/-- The end of the workflow and the start of a job mend older variables. -/
theorem Stale.mend {older : Variables} (h : s.Stale older) (hc : c.rescopes = true)
    (hdone : ∀ run, c = .startWorkflow run → (s.startWorkflow run).reply = .done)
    (e : s.Effect c t) : t.InForce := by
  cases e with
  | idle hidle =>
    have hsome := h.workflow
    cases c with
    | retireWorkflow | startJob =>
      rw [show s.workflowRun = none from hidle] at hsome
      cases hsome
    | startWorkflow => exact hidle.elim
    | _ => cases hc
  | startWorkflow run =>
    rw [← startWorkflow_session]
    exact inForce_startWorkflow (hdone run rfl)
  | retireWorkflow | startJob => rfl
  | _ => cases hc

/-! ## Whole histories -/

theorem BrokenOff.concat {calls before : List Call} (h : s.BrokenOff calls before)
    (hc : c.rescopes = false) : s.BrokenOff (calls ++ [c]) before := by
  obtain ⟨run, after, hcalls, hreply, hafter⟩ := h
  refine ⟨run, after ++ [c], by rw [hcalls]; simp, hreply, fun c' hc' => ?_⟩
  rcases List.mem_append.1 hc' with hc' | hc'
  · exact hafter c' hc'
  · rw [List.mem_singleton.1 hc']
    exact hc

/-- After a start that broke off, the variables stay what they were before it. -/
theorem BrokenOff.stale {calls before : List Call} (h : s.BrokenOff calls before)
    (hcalls : ∀ c ∈ calls, c.edits = false) :
    (s.performAll calls).Stale (s.performAll before).environment := by
  obtain ⟨run, after, rfl, hreply, hafter⟩ := h
  have hkept : ∀ c ∈ after, c.rescopes = false ∧ c.edits = false := fun c hc =>
    ⟨hafter c hc, hcalls c (List.mem_append_right _ (List.mem_cons_of_mem _ hc))⟩
  rw [performAll_append, performAll_cons]
  exact performAll_keeps
    (fun s c hc h => h.effect hc.1 hc.2 (perform_effect s c)) hkept (stale_startWorkflow hreply)

/-- After a history the variables of the active scopes are in force, or a start broke off. -/
theorem inForce_or_brokenOff (h : s.InForce) (hn : s.Nested) (calls : List Call)
    (hcalls : ∀ c ∈ calls, c.edits = false) :
    (s.performAll calls).InForce ∨ ∃ before, s.BrokenOff calls before := by
  -- by the last call, as it alone decides whether the variables before it still matter
  induction calls using List.reverseRecOn with
  | nil => exact Or.inl h
  | append_singleton calls c ih =>
    have hprev : ∀ c ∈ calls, c.edits = false := fun c hc => hcalls c (List.mem_append_left _ hc)
    have hedit : c.edits = false := hcalls c (by simp)
    have he := perform_effect (s.performAll calls) c
    rw [performAll_append, performAll_cons, performAll_nil]
    by_cases haborted : ∃ run, c = .startWorkflow run ∧
        ((s.performAll calls).startWorkflow run).reply = .aborted
    · obtain ⟨run, rfl, hreply⟩ := haborted
      exact Or.inr ⟨calls, run, [], rfl, hreply, by simp⟩
    · have hdone : ∀ run, c = .startWorkflow run →
          ((s.performAll calls).startWorkflow run).reply = .done := by
        intro run hrun
        rw [startWorkflow_reply_done]
        refine Bool.of_not_eq_false fun hf => haborted ⟨run, hrun, ?_⟩
        exact startWorkflow_reply_aborted.2 hf
      rcases ih hprev with hin | ⟨before, hbroken⟩
      · exact Or.inl (hin.effect (nested_performAll hn calls) hedit hdone he)
      · cases hc : c.rescopes with
        | true => exact Or.inl ((hbroken.stale hprev).mend hc hdone he)
        | false => exact Or.inr ⟨before, hbroken.concat hc⟩

/-! ## Within one job -/

/-- The same workflow and the same job are active. -/
structure SameJob (s t : Session) : Prop where
  workflow : t.workflowRun = s.workflowRun
  job : t.jobRun.map (·.job) = s.jobRun.map (·.job)

theorem SameJob.effect {u : Session} (h : s.SameJob t) (hc : c.staysInJob = true)
    (e : t.Effect c u) : s.SameJob u := by
  cases e with
  | startWorkflow | retireWorkflow | editWorkflow | startJob | retireJob | retireJobOutside =>
    cases hc
  | concludeJob hj => exact ⟨h.workflow, by rw [← h.job, hj]; rfl⟩
  | retireStep hs =>
    refine ⟨h.workflow, ?_⟩
    rw [← h.job]
    cases t.jobRun <;> rfl
  | idle | startStep | write | takeOver | startAction | leaveAction | nameEnvironmentFile
  | namePathFile => exact ⟨h.workflow, h.job⟩

/-- Whatever steps came and went within a job, without a step the variables are the same. -/
theorem environment_eq_of_leavesJob (hs : s.InForce ∨ s.Frozen s.environment) (hn : s.Nested)
    (hstep : s.stepRun = none) {calls : List Call} (hcalls : s.Along LeavesJob calls)
    (hend : (s.performAll calls).stepRun = none) :
    (s.performAll calls).environment = s.environment := by
  rcases hs with hin | hfrozen
  · -- the variables in force are those of the scopes, and these are the same again
    have hkept : (s.performAll calls).InForce ∧ (s.performAll calls).Nested ∧
        s.SameJob (s.performAll calls) := by
      refine hcalls.keeps (I := fun t => t.InForce ∧ t.Nested ∧ s.SameJob t) ?_
        ⟨hin, hn, rfl, rfl⟩
      intro t c hc ht
      rcases hc with hc | hidle
      · obtain ⟨hin, hn, hsame⟩ := ht
        have he := perform_effect t c
        have hnostart : ∀ run, c = .startWorkflow run → (t.startWorkflow run).reply = .done := by
          rintro run rfl
          cases hc
        exact ⟨hin.effect hn (Call.edits_of_staysInJob hc) hnostart he, hn.effect he,
          hsame.effect hc he⟩
      · rw [perform_of_idle hidle]
        exact ht
    obtain ⟨hin', -, hsame⟩ := hkept
    unfold InForce at hin hin'
    rw [hin', hin, hend, hstep, hsame.workflow]
    exact effective_congr hsame.job rfl
  · -- there is no job, so nothing changes the variables in force
    have hkept : (s.performAll calls).Frozen s.environment := by
      refine hcalls.keeps (I := Frozen s.environment) ?_ hfrozen
      intro t c hc ht
      rcases hc with hc | hidle
      · have he := perform_effect t c
        have hkept := ht.effect (Call.rescopes_of_staysInJob hc) (Call.edits_of_staysInJob hc) he
        exact hkept.1
      · rw [perform_of_idle hidle]
        exact ht
    exact hkept.environment

theorem retireStep_stepRun (s : Session) (result : RunResult) :
    (s.retireStep result).session.stepRun = none := by
  cases hs : s.stepRun with
  | none =>
    rw [retireStep_of_none hs]
    exact hs
  | some step => rw [retireStep_session hs]

/-! ## The variables in force after a history -/

/-- What single calls do to the variables in force. -/
structure Scoping (s : Session) : Prop where
  /-- What a step writes does not change them. -/
  write : ∀ w, (s.write w).session.environment = s.environment
  /-- What is taken over of a step does not change them. -/
  takeOver : ∀ contents, (s.takeOver contents).session.environment = s.environment
  /-- A workflow that starts leaves nothing of what was active before. -/
  startWorkflow : ∀ run, (s.startWorkflow run).reply = .done → ∀ k,
    (s.startWorkflow run).session.environment.get? k = run.workflow.environment.get? k
  /-- A job that starts leaves nothing of the job and the step that were active before. -/
  startJob : ∀ workflow, s.workflowRun = some workflow → ∀ run k,
    (s.startJob run).session.environment.get? k =
      (run.job.environment.get? k).or (workflow.workflow.environment.get? k)
  /-- A step that starts leaves nothing of the step that was active before. -/
  startStep : ∀ workflow job, s.workflowRun = some workflow → s.jobRun = some job → ∀ run k,
    (s.startStep run).session.environment.get? k =
      (run.step.environment.get? k).or
        ((job.job.environment.get? k).or (workflow.workflow.environment.get? k))
  /-- A step that ends leaves nothing of itself, whatever was done in between. -/
  retireStep : s.stepRun = none → ∀ run during result,
    (s.startStep run).session.Along LeavesJob during →
      (s.performAll (.startStep run :: during ++ [.retireStep result])).environment =
        s.environment

theorem scoping (hs : s.InForce ∨ s.Frozen s.environment) (hn : s.Nested) : s.Scoping where
  write w := by
    cases h : s.stepRun with
    | none => rw [write_of_none h]; rfl
    | some step => rw [write_session h]
  takeOver contents := by
    cases h : s.stepRun with
    | none => rw [takeOver_of_none h]; rfl
    | some step => rw [takeOver_session h]
  startWorkflow run hdone k := by
    rw [(inForce_startWorkflow hdone).get?, startWorkflow_session]
    rfl
  startJob workflow hw run k := by
    rw [startJob_session hw]
    exact get?_effective _ _ none k
  startStep workflow job hw hj run k := by
    rw [startStep_session hj, hw]
    exact get?_effective _ _ _ k
  retireStep hstep run during result hduring := by
    refine environment_eq_of_leavesJob hs hn hstep ?_ ?_
    · have hend : Along LeavesJob (s.performAll (.startStep run :: during)) [.retireStep result] :=
        ⟨Or.inl rfl, trivial⟩
      exact along_append.2 ⟨⟨Or.inl rfl, hduring⟩, hend⟩
    · rw [performAll_append]
      exact retireStep_stepRun _ result

variable {home : String} {github : Context.Github} {runner : Context.Runner}
  {secrets : Context.Secrets} {inputs : Context.Inputs} {process : ProcessEnvironment}

theorem inForce_start : (start home github runner secrets inputs process).InForce := rfl

/-- **The variables in force are those of the active scopes.** This is so after every history, with
one exception: if the last call that sets them is a start of a workflow that broke off, they are what
they were before it. -/
theorem environment_of_history (calls : List Call) (hcalls : ∀ c ∈ calls, c.edits = false) :
    let built := start home github runner secrets inputs process
    let s := built.performAll calls
    ((¬ ∃ before, built.BrokenOff calls before) → ∀ k, s.environment.get? k = s.defined k) ∧
      (∀ before, built.BrokenOff calls before →
        s.Stale (built.performAll before).environment) ∧
      s.Scoping := by
  intro built s
  have hnested : s.Nested := nested_performAll nested_start calls
  have hs := inForce_or_brokenOff (s := built) inForce_start nested_start calls hcalls
  refine ⟨?_, ?_, ?_⟩
  · -- nothing broke off
    intro hnone k
    rcases hs with hin | hbroken
    · exact hin.get? k
    · exact absurd hbroken hnone
  · -- a start broke off
    exact fun before hbroken => hbroken.stale hcalls
  · -- single calls
    refine scoping ?_ hnested
    rcases hs with hin | ⟨before, hbroken⟩
    · exact Or.inl hin
    · refine Or.inr ?_
      have hstale : s.Stale (built.performAll before).environment := hbroken.stale hcalls
      rw [hstale.environment]
      exact hstale.toFrozen

/-- A step is replaced by another that defines the same name, and writes a variable of its own. -/
theorem environment_of_history_replaced_step :
    let built := start "/ghx" {} {} ∅ ∅ (.system ∅)
    let calls : List Call := [
      .startWorkflow (.start "42" { environment := Dict.insert (Dict.insert ∅ "A" "w") "B" "w" }),
      .startJob { job := { id := "build", environment := Dict.insert ∅ "B" "j" } },
      .startStep { step := { environment := Dict.insert (Dict.insert ∅ "B" "s") "C" "s" } },
      .startStep { step := { environment := Dict.insert ∅ "A" "t" } },
      .write (.environment "C" "x")]
    let s := built.performAll calls
    (∀ c ∈ calls, c.edits = false) ∧ (¬ ∃ before, built.BrokenOff calls before) ∧ s.Scoping ∧
      s.environment.get? "A" = some "t" ∧ s.environment.get? "B" = some "j" ∧
      s.environment.get? "C" = none := by
  intro built calls s
  have hcalls : ∀ c ∈ calls, c.edits = false := by decide
  -- a job was started since the only start of a workflow
  have hnone : ¬ ∃ before, built.BrokenOff calls before := by
    rintro ⟨before, run, after, heq, -, hafter⟩
    cases before with
    | nil =>
      obtain ⟨-, rfl⟩ := List.cons.inj heq
      exact absurd (hafter _ List.mem_cons_self) (by decide)
    | cons c before =>
      have hmem : Call.startWorkflow run ∈ calls.tail := by
        rw [heq]
        simp
      simp [calls] at hmem
  obtain ⟨hin, -, hscoping⟩ := environment_of_history calls hcalls
  refine ⟨hcalls, hnone, hscoping, ?_, ?_, ?_⟩
  · exact (hin hnone "A").trans (by decide +kernel)
  · exact (hin hnone "B").trans (by decide +kernel)
  · exact (hin hnone "C").trans (by decide +kernel)

/-- A workflow whose run the operating system cannot be told of is active, and its variables are not
in force. -/
theorem environment_stale_of_refused_start :
    let built := start "/ghx" {} {} ∅ ∅ (.system ∅)
    let calls : List Call := [
      .startWorkflow (.start "4\x002" { environment := Dict.insert ∅ "A" "1" })]
    let s := built.performAll calls
    (∀ c ∈ calls, c.edits = false) ∧ s.workflowRun.isSome ∧
      s.defined "A" = some "1" ∧ s.environment.get? "A" = none := by
  decide +kernel

end Session

end WorkflowRuns
