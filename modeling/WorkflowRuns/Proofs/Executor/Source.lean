import WorkflowRuns.Proofs.Executor.History
import WorkflowRuns.Proofs.Files.Tasks

/-!
# The source of a workflow

When a workflow ends and no error is traced, all that is to be kept of it has been kept, one after
the other (`keepsAll_deliver`): first the record, then a copy of the source. Afterwards the copy
reads as the source does. It has the bytes that the source had before, unless the source is itself
one of the two files (`source_of_retired`): what was there is lost then (`not_verbatim_onto_itself`).
-/

namespace WorkflowRuns

open WorkflowRuns.Path

/-- Artifacts are kept in files one after the other, and none is refused. -/
inductive KeepsAll : Disk → List Artifact → Disk → Prop where
  | nil (d : Disk) : KeepsAll d [] d
  | cons {d between d' : Disk} {a : Artifact} {as : List Artifact}
    (hkeep : d.keep a = (.ok (), between)) (hrest : KeepsAll between as d') :
    KeepsAll d (a :: as) d'

namespace Executor

/-- From one executor to the other no error is traced, nor logged if the trace goes to the log. -/
structure Quiet (e e' : Executor) : Prop where
  trace : ∀ m ∈ e'.trace.drop e.trace.length, m.level ≠ .error
  log : ∀ event ∈ e'.log.drop e.log.length, event.severity ≠ .error

instance (e e' : Executor) : Decidable (e.Quiet e') :=
  decidable_of_iff ((∀ m ∈ e'.trace.drop e.trace.length, m.level ≠ .error) ∧
      ∀ event ∈ e'.log.drop e.log.length, event.severity ≠ .error)
    ⟨fun ⟨trace, log⟩ => ⟨trace, log⟩, fun h => ⟨h.trace, h.log⟩⟩

/-- Where no error is traced, nothing was refused. -/
theorem Tells.not_refused {e e' : Executor} {told : List Delivery} (h : e.Tells told e')
    (hquiet : e.Quiet e') : ∀ d ∈ told, d.isRefused = false := by
  intro d hmem
  cases d with
  | logged | traced | kept => rfl
  | refused f failure =>
    exfalso
    cases htraces : e.tracesToLog with
    | false =>
      refine hquiet.trace (f.complaint failure) ?_ rfl
      rw [h.trace, List.drop_left]
      exact List.mem_flatMap.2 ⟨_, hmem, by simp [htraces]⟩
    | true =>
      refine hquiet.log (f.complaint failure).toLogEvent ?_ rfl
      rw [h.log, List.drop_left]
      exact List.mem_flatMap.2 ⟨_, hmem, by simp [htraces]⟩

/-- What is not refused has been kept in files. -/
theorem keepsAll_deliver {e : Executor} {ns : List Notice} (harchive : e.archive = .files)
    (h : ∀ d ∈ e.deliveries ns, d.isRefused = false) :
    KeepsAll e.disk ((ns.filterMap Notice.filing?).map Filing.artifact) (ns.foldl deliver e).disk := by
  induction ns generalizing e with
  | nil => exact .nil e.disk
  | cons n ns ih =>
    have harchive' : (e.deliver n).archive = .files := (e.tells_deliver n).archive.trans harchive
    have hrest := ih harchive' fun d hmem => h d (List.mem_cons_of_mem _ hmem)
    cases n with
    | log event => exact hrest
    | trace m =>
      have hdisk := (e.say_frame m).2
      rw [deliver, hdisk] at hrest
      exact hrest
    | file f =>
      rcases e.deliver_file f with ⟨e', hsubmit, -, hdeliver⟩ | ⟨failure, e', -, hdelivery, -⟩
      · have hkeep : e.disk.keep f.artifact = (.ok (), e'.disk) := by
          unfold submit at hsubmit
          simp only [harchive, Prod.mk.injEq] at hsubmit
          obtain ⟨hresult, rfl⟩ := hsubmit
          exact Prod.ext hresult rfl
        rw [hdeliver] at hrest
        rw [List.foldl_cons, hdeliver]
        exact .cons hkeep hrest
      · have hrefused := h _ List.mem_cons_self
        rw [hdelivery] at hrefused
        cases hrefused

/-- Where a call traces no error, all that it wants kept has been kept. -/
theorem keepsAll_perform {e : Executor} {c : Call} (harchive : e.archive = .files)
    (hquiet : e.Quiet (e.perform c).2) :
    KeepsAll e.disk ((e.session.filings c).map Filing.artifact) (e.perform c).2.disk := by
  have hgranted := (e.tells_perform c).not_refused hquiet
  have hkept := keepsAll_deliver
    (e := { e with session := (e.session.perform c).session }) harchive hgranted
  have hfilings : (e.session.perform c).notices.filterMap Notice.filing? = e.session.filings c :=
    e.session.filings_perform c
  rwa [hfilings] at hkept

/-- Where the record of a workflow run is kept. -/
def recordPath (home runId : String) : String :=
  join (Layout.workflowRun home runId) "workflow_run.json"

/-- Where the source of a workflow is kept. -/
def sourcePath (home runId : String) : String :=
  join (Layout.workflowRun home runId) "workflow.yaml"

/-- Of the record that is written first, a source that is copied then has what was written, if it is
the record itself. -/
theorem content_of_saved {d d' : Disk} {record source : String} {value : Json}
    (h : d.saveJson record value = (.ok (), d')) {content : ByteArray} {isPrivate : Bool}
    (hsource : d'.node? (resolve [] source) = some (.file content isPrivate)) :
    if resolve [] source = resolve [] record then content = value.pretty.toUTF8
    else d.node? (resolve [] source) = some (.file content isPrivate) := by
  have htouches := Disk.onlyTouches_saveJson h
  by_cases hsame : resolve [] source = resolve [] record
  · obtain ⟨hread, -⟩ := htouches.done rfl
    obtain ⟨isPrivate', hfind⟩ := Disk.read_eq_ok_iff.1 hread
    obtain ⟨-, hrecord⟩ := Disk.find_file hfind
    rw [hsame, hrecord] at hsource
    rw [if_pos hsame]
    cases hsource
    rfl
  · obtain ⟨made, hmade, helse⟩ := htouches.elsewhere rfl
    rw [helse _ hsame] at hsource
    rw [if_neg hsame]
    exact hmade.file_iff.1 hsource

/-- **The source of a workflow is kept.** If a workflow ends without an error, the copy of its
source reads as the source does. It has the bytes that the source had before, unless the source is
the copy itself, which is emptied, or the record, which is written first. -/
theorem source_of_retired {e : Executor} {run : WorkflowRun} {result : RunResult}
    (harchive : e.archive = .files) (hrun : e.session.workflowRun = some run)
    (hpath : run.workflow.path ≠ "") (hquiet : e.Quiet (e.perform (.retireWorkflow result)).2) :
    let copy := sourcePath e.session.home run.runId
    let record := recordPath e.session.home run.runId
    let source := resolve [] run.workflow.path
    let after := (e.perform (.retireWorkflow result)).2.disk
    ∃ content, after.read copy = .ok content ∧ after.read run.workflow.path = .ok content ∧
      if source = resolve [] copy then content = .empty
      else if source = resolve [] record then
        content = (Json.object [("result", result.told), ("run", run.toJson)]).pretty.toUTF8
      else ∃ isPrivate, e.disk.node? source = some (.file content isPrivate) := by
  intro copy record source after
  have hkept := keepsAll_perform harchive hquiet
  have hfilings : (e.session.filings (.retireWorkflow result)).map Filing.artifact =
      [.document record (.object [("result", result.told), ("run", run.toJson)]),
        .copy run.workflow.path copy] := by
    simp only [Session.filings, hrun, WorkflowRun.filingsOfWorkflow, if_neg hpath, List.map_cons,
      List.map_nil]
    rfl
  rw [hfilings] at hkept
  cases hkept with
  | @cons _ between _ _ _ hsave hrest =>
    cases hrest with
    | @cons _ between' _ _ _ hcopy hnothing =>
      cases hnothing
      have htouches := Disk.onlyTouches_copyFile hcopy
      obtain ⟨content, isPrivate, hsource, -, hsame, hread⟩ := htouches.done rfl
      have hcontent := content_of_saved hsave hsource
      refine ⟨_, hread, hsame.trans hread, ?_⟩
      by_cases hself : source = resolve [] copy
      · rw [if_pos hself, if_pos hself]
      · rw [if_neg hself, if_neg hself]
        split
        · rename_i hrecord
          rwa [if_pos hrecord] at hcontent
        · rename_i hrecord
          rw [if_neg hrecord] at hcontent
          exact ⟨isPrivate, hcontent⟩

/-- A run of a workflow whose source is at a path. -/
def runOf (path : String) : WorkflowRun := .start "1" { name := "CI", path := path }

/-- An executor with an active run of a workflow whose source is at a path, and holds a text. -/
def withSource (path : String) (place : Place) : Executor where
  session := { Session.start "h" {} {} ∅ ∅ (.inMemory ∅) with workflowRun := some (runOf path) }
  disk := ⟨.ofList [(["h"], .directory), (["h", "runs"], .directory),
    (["h", "runs", "1"], .directory), (place, .file "name: CI\n".toUTF8 false)]⟩
  archive := .files
  submitted := []
  shelved := []
  tracesToLog := true
  trace := []
  log := []

/-- A source beside the home is copied. -/
theorem source_of_retired_beside :
    let e := withSource "ci.yml" ["ci.yml"]
    let after := (e.perform (.retireWorkflow (.complete .epoch .epoch))).2
    e.Quiet after ∧ after.disk.read "h/runs/1/workflow.yaml" = .ok "name: CI\n".toUTF8 := by
  intro e after
  have hquiet : e.Quiet after := by decide +kernel
  have hpath : (runOf "ci.yml").workflow.path ≠ "" := by decide
  have hself : resolve [] (runOf "ci.yml").workflow.path ≠
      resolve [] (sourcePath e.session.home (runOf "ci.yml").runId) := by decide
  have hrecord : resolve [] (runOf "ci.yml").workflow.path ≠
      resolve [] (recordPath e.session.home (runOf "ci.yml").runId) := by decide
  have hsource : e.disk.node? (resolve [] (runOf "ci.yml").workflow.path) =
      some (.file "name: CI\n".toUTF8 false) := by decide
  have hplace : sourcePath e.session.home (runOf "ci.yml").runId = "h/runs/1/workflow.yaml" := by
    decide
  obtain ⟨content, hcopy, -, hcontent⟩ := source_of_retired (e := e) rfl rfl hpath hquiet
  rw [if_neg hself, if_neg hrecord] at hcontent
  rw [hplace] at hcopy
  obtain ⟨isPrivate, hfile⟩ := hcontent
  rw [hsource] at hfile
  cases hfile
  exact ⟨hquiet, hcopy⟩

/-- A workflow that is run from the copy of its source loses it. -/
theorem not_verbatim_onto_itself : ¬ ∀ (e : Executor) (run : WorkflowRun) (result : RunResult)
    (content : ByteArray), e.archive = .files → e.session.workflowRun = some run →
      run.workflow.path ≠ "" → e.Quiet (e.perform (.retireWorkflow result)).2 →
      e.disk.read run.workflow.path = .ok content →
        (e.perform (.retireWorkflow result)).2.disk.read
          (sourcePath e.session.home run.runId) = .ok content := by
  intro hverbatim
  have hread := hverbatim (withSource "h/runs/1/workflow.yaml" ["h", "runs", "1", "workflow.yaml"])
    (runOf "h/runs/1/workflow.yaml") (.complete .epoch .epoch) _ rfl rfl (by decide)
    (by decide +kernel) rfl
  revert hread
  decide +kernel

end Executor

end WorkflowRuns
