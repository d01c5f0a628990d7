import WorkflowRuns.Proofs.Executor.History

/-!
# An archive that refuses

Whatever an archive refuses, and however often, the run goes on as if it had taken everything. Two
executors that differ in what their shelves refuse stay in lockstep (`Lockstep.operate`); the one
with refusals says one thing more for each of them, at its place (`refusals_only_complain`).
-/

namespace WorkflowRuns

/-- Deliveries end as the archive decides, which was asked `n` times before. -/
def Delivery.Decided (refuses : Nat → Artifact → Option Failure) : Nat → List Delivery → Prop
  | _, [] => True
  | n, .kept f :: told => refuses n f.artifact = none ∧ Decided refuses (n + 1) told
  | n, .refused f failure :: told =>
    refuses n f.artifact = some failure ∧ Decided refuses (n + 1) told
  | n, _ :: told => Decided refuses n told

namespace Executor

variable {refuses : Nat → Artifact → Option Failure} {e smooth rough : Executor}
  {ops : List Operation}

/-! ## What a shelf decides -/

theorem decided_append {n : Nat} {told told' : List Delivery} :
    Delivery.Decided refuses n (told ++ told') ↔ Delivery.Decided refuses n told ∧
      Delivery.Decided refuses (n + (told.filterMap Delivery.filing?).length) told' := by
  induction told generalizing n with
  | nil => simp [Delivery.Decided]
  | cons d told ih =>
    have hsucc (k : Nat) : n + 1 + k = n + (k + 1) := by omega
    cases d <;> simp [Delivery.Decided, List.filterMap_cons, ih, and_assoc, hsucc]

theorem decided_deliveries (h : e.archive = .shelf refuses) (ns : List Notice) :
    Delivery.Decided refuses e.submitted.length (e.deliveries ns) := by
  induction ns generalizing e with
  | nil => trivial
  | cons n ns ih =>
    have hnext := (e.tells_deliver n).archive.trans h
    have hrest := ih hnext
    rw [(e.tells_deliver n).submitted] at hrest
    cases n with
    | log event => simpa [deliveries, delivery, Delivery.Decided, List.filterMap_cons] using hrest
    | trace m => simpa [deliveries, delivery, Delivery.Decided, List.filterMap_cons] using hrest
    | file f =>
      simp only [deliveries, delivery_shelf h] at hrest ⊢
      cases hr : refuses e.submitted.length f.artifact with
      | none =>
        refine ⟨hr, ?_⟩
        simpa [hr] using hrest
      | some failure =>
        refine ⟨hr, ?_⟩
        simpa [hr] using hrest

theorem decided_told (h : e.archive = .shelf refuses) (op : Operation) :
    Delivery.Decided refuses e.submitted.length (e.told op) := by
  unfold told
  split
  · trivial
  · rename_i c hc
    have harchive : { e with session := (e.session.perform c).session }.archive =
        .shelf refuses := h
    exact decided_deliveries harchive _

theorem decided_transcript (h : e.archive = .shelf refuses) (ops : List Operation) :
    Delivery.Decided refuses e.submitted.length (e.transcript ops) := by
  induction ops generalizing e with
  | nil => trivial
  | cons op ops ih =>
    have htells := e.tells_operate op
    have hrest := ih (htells.archive.trans h)
    rw [htells.submitted, List.length_append, List.length_map] at hrest
    rw [transcript_cons, decided_append]
    exact ⟨decided_told h op, hrest⟩

/-! ## Two executors side by side -/

/-- Two executors with shelves, of which one takes everything, have the same session and files. -/
structure Lockstep (refuses : Nat → Artifact → Option Failure) (smooth rough : Executor) :
    Prop where
  session : rough.session = smooth.session
  disk : rough.disk = smooth.disk
  takesAll : smooth.archive = .shelf fun _ _ => none
  refuses : rough.archive = .shelf refuses

theorem deliveries_granted (hsmooth : smooth.archive = .shelf fun _ _ => none)
    (hrough : rough.archive = .shelf refuses) (ns : List Notice) :
    smooth.deliveries ns = (rough.deliveries ns).map Delivery.granted := by
  induction ns generalizing smooth rough with
  | nil => rfl
  | cons n ns ih =>
    have hrest := ih ((smooth.tells_deliver n).archive.trans hsmooth)
      ((rough.tells_deliver n).archive.trans hrough)
    have hfirst : smooth.delivery n = (rough.delivery n).granted := by
      cases n with
      | log event => rfl
      | trace m => rfl
      | file f =>
        -- how many artifacts came before matters to the one that refuses only
        rw [delivery_shelf hsmooth, delivery_shelf hrough]
        cases refuses rough.submitted.length f.artifact <;> rfl
    rw [deliveries, deliveries, List.map_cons, hfirst, hrest]

theorem Lockstep.told (h : Lockstep refuses smooth rough) (op : Operation) :
    smooth.told op = (rough.told op).map Delivery.granted := by
  have hcall : rough.callOf? op = smooth.callOf? op := by
    cases op <;> simp [callOf?, h.disk]
  unfold Executor.told
  rw [hcall, h.session]
  cases smooth.callOf? op with
  | none => rfl
  | some c =>
    have hsmooth : { smooth with session := (smooth.session.perform c).session }.archive =
        .shelf fun _ _ => none := h.takesAll
    have hrough : { rough with session := (smooth.session.perform c).session }.archive =
        .shelf refuses := h.refuses
    exact deliveries_granted hsmooth hrough _

theorem Lockstep.answer (h : Lockstep refuses smooth rough) (op : Operation) :
    (rough.operate op).1 = (smooth.operate op).1 := by
  cases op with
  | call c => exact congrArg (fun s => Answer.reply (s.perform c).reply) h.session
  | takeOver files =>
    show Answer.reply (rough.session.perform (.takeOver (files.read rough.disk))).reply = _
    rw [h.session, h.disk]
    rfl
  | lookUp text => exact congrArg (fun s => Answer.variable (Expression.lookUp? s text)) h.session
  | touch change => rfl

/-- What an archive refuses has no way back into the session. -/
theorem Lockstep.operate (h : Lockstep refuses smooth rough) (op : Operation) :
    Lockstep refuses (smooth.operate op).2 (rough.operate op).2 := by
  have hcall : rough.callOf? op = smooth.callOf? op := by
    cases op <;> simp [callOf?, h.disk]
  constructor
  -- the notices are delivered after the session has changed, and do not come back to it
  · rw [operate_session, operate_session, hcall, h.session]
  · cases op with
    | call c =>
      exact (perform_disk h.refuses c).trans (h.disk.trans (perform_disk h.takesAll c).symm)
    | takeOver files =>
      have hsmooth := perform_disk h.takesAll (.takeOver (files.read smooth.disk))
      have hrough := perform_disk h.refuses (.takeOver (files.read rough.disk))
      exact hrough.trans (h.disk.trans hsmooth.symm)
    | lookUp text => exact h.disk
    | touch change => exact congrArg change h.disk
  · exact (smooth.tells_operate op).archive.trans h.takesAll
  · exact (rough.tells_operate op).archive.trans h.refuses

theorem Lockstep.history (h : Lockstep refuses smooth rough) (ops : List Operation) :
    smooth.history ops = (rough.history ops).map Occurrence.granted := by
  induction ops generalizing smooth rough with
  | nil => rfl
  | cons op ops ih =>
    have hnext := h.operate op
    have hoccurrence : smooth.occurrence op = (rough.occurrence op).granted := by
      unfold occurrence Occurrence.granted
      rw [h.told op, h.answer op, h.session, hnext.session]
    rw [Executor.history, Executor.history, List.map_cons, hoccurrence, ih hnext]

/-! ## What is said of refusals -/

theorem transcript_granted (h : smooth.history ops = (rough.history ops).map Occurrence.granted) :
    smooth.transcript ops = (rough.transcript ops).map Delivery.granted := by
  unfold transcript
  rw [h, List.flatMap_map, List.map_flatMap]
  rfl

/-- Each refusal is one thing more that is said, in the trace or in the log. -/
theorem length_said (tracesToLog : Bool) (told : List Delivery) :
    (told.flatMap (Delivery.traceOf tracesToLog)).length +
        (told.flatMap (Delivery.logOf tracesToLog)).length =
      ((told.map Delivery.granted).flatMap (Delivery.traceOf tracesToLog)).length +
        ((told.map Delivery.granted).flatMap (Delivery.logOf tracesToLog)).length +
        told.countP Delivery.isRefused := by
  induction told with
  | nil => rfl
  | cons d told ih =>
    simp only [List.map_cons, List.flatMap_cons, List.length_append, List.countP_cons]
    cases d <;> cases tracesToLog <;> simp [Delivery.isRefused] at ih ⊢ <;> omega

theorem length_of_tells {smooth' rough' : Executor} {told : List Delivery}
    (hsmooth : smooth.Tells (told.map Delivery.granted) smooth') (hrough : rough.Tells told rough')
    (htraces : rough.tracesToLog = smooth.tracesToLog) (htrace : rough.trace = smooth.trace)
    (hlog : rough.log = smooth.log) :
    rough'.trace.length + rough'.log.length =
      smooth'.trace.length + smooth'.log.length + told.countP Delivery.isRefused := by
  have hsaid := length_said smooth.tracesToLog told
  rw [hrough.trace, hrough.log, hsmooth.trace, hsmooth.log, htraces, htrace, hlog]
  simp only [List.length_append]
  omega

/-- A refusal is told of with what it was that could not be kept, and of which run. -/
theorem complaint_of_refused (e : Executor) (op : Operation) {f : Filing} {failure : Failure}
    (h : .refused f failure ∈ e.told op) :
    ∃ run, e.session.workflowRun = some run ∧ f.Of run ∧
      f.complaint failure = ⟨.error, s!"Failed to write {f.what}: {failure.message} " ++
        s!"(workflow: {run.workflow.name}, run: {run.runId})"⟩ := by
  have hmem : f ∈ op.filings e.session := by
    rw [← e.filings_told op]
    exact List.mem_filterMap.2 ⟨_, h, rfl⟩
  cases op with
  | call c =>
    obtain ⟨run, hrun, hof⟩ := Session.of_mem_filings hmem
    refine ⟨run, hrun, hof, ?_⟩
    rw [← hof.workflow, ← hof.runId]
    simp [Filing.complaint, String.append_assoc]
    rfl
  | takeOver files => cases hmem
  | lookUp text => cases hmem
  | touch change => cases hmem

/-- **What an archive refuses is told and changes nothing else.** Of two executors with shelves, one
that takes everything and one that refuses now and then, both give the same answers, leave the same
session and submit the same artifacts at every operation of every history. What is said differs in
one complaint for each refusal, at its place. -/
theorem refusals_only_complain (e : Executor) (refuses : Nat → Artifact → Option Failure)
    (ops : List Operation) :
    let smooth : Executor := { e with archive := .shelf fun _ _ => none }
    let rough : Executor := { e with archive := .shelf refuses }
    let told := rough.transcript ops
    smooth.history ops = (rough.history ops).map Occurrence.granted ∧
      (rough.operateAll ops).submitted = (smooth.operateAll ops).submitted ∧
      Delivery.Decided refuses e.submitted.length told ∧
      smooth.Tells (told.map Delivery.granted) (smooth.operateAll ops) ∧
      rough.Tells told (rough.operateAll ops) ∧
      (rough.operateAll ops).trace.length + (rough.operateAll ops).log.length =
        (smooth.operateAll ops).trace.length + (smooth.operateAll ops).log.length +
          told.countP Delivery.isRefused ∧
      ∀ v ∈ rough.history ops, ∀ f failure, .refused f failure ∈ v.told →
        ∃ run, v.found.workflowRun = some run ∧ f.Of run ∧
          f.complaint failure = ⟨.error, s!"Failed to write {f.what}: {failure.message} " ++
            s!"(workflow: {run.workflow.name}, run: {run.runId})"⟩ := by
  intro smooth rough told
  have hlockstep : Lockstep refuses smooth rough := ⟨rfl, rfl, rfl, rfl⟩
  have hhistory := hlockstep.history ops
  have hsmooth := smooth.tells_operateAll ops
  have hrough := rough.tells_operateAll ops
  have hdecided : Delivery.Decided refuses e.submitted.length told :=
    decided_transcript (e := rough) rfl ops
  rw [transcript_granted hhistory] at hsmooth
  refine ⟨hhistory, ?_, hdecided, hsmooth, hrough, length_of_tells hsmooth hrough rfl rfl rfl, ?_⟩
  · rw [hrough.submitted, hsmooth.submitted, Delivery.filterMap_filing?_granted]
  · refine forall_history (I := fun _ => True) (fun e op _ => ⟨trivial, ?_⟩) trivial ops
    intro f failure h
    exact e.complaint_of_refused op h

/-- A report of a step that is refused holds up neither its summary nor the run. -/
example :
    let session := Session.start "/ghx" {} {} ∅ ∅ (.inMemory ∅)
    let refuses : Nat → Artifact → Option Failure := fun n _ =>
      if n = 0 then some ⟨[], .other "disk full"⟩ else none
    let e : Executor := ⟨session, .blank, .shelf refuses, [], [], false, [], []⟩
    let calls : List Call := [
      .startWorkflow (.start "42" { name := "CI" }), .startJob { job := { id := "build" } },
      .startStep { step := { id := "unit" } }, .write (.summary "done"),
      .retireStep (.complete .epoch .epoch)]
    let after := e.operateAll (calls.map .call)
    after.shelved.map Artifact.target = ["/ghx/runs/42/jobs/build/steps/unit/summary.md"] ∧
      after.trace =
        [⟨.error, "Failed to write step run: disk full (workflow: CI, run: 42)"⟩] := by
  decide +kernel

end Executor

end WorkflowRuns
