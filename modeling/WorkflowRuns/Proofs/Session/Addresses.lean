import WorkflowRuns.Proofs.Session.Activation
import WorkflowRuns.Proofs.Session.Moves

/-!
# Addresses of activations

Under which addresses a history starts runs is read off its activations: of workflows, of the jobs
that are started while a workflow is active, and of the steps that are started while a job is
(`startedAll_eq`). If the identifiers in each activation are distinct, then no two runs are started
under one address (`DistinctIds.nodup_addresses`).
-/

namespace WorkflowRuns

/-! ## Addresses of activations -/

/-- Runs of workflows. -/
def workflowScope : Scope WorkflowRun where
  starts
    | .startWorkflow run => some run
    | _ => none
  ends
    | .retireWorkflow _ => true
    | _ => false
  apart c h := by cases c <;> first | rfl | cases h

/-- The addresses of the steps that are started in the main stage. -/
def stepAddresses (above : List String) (events : List Event) : List (List String) :=
  (stepScope.activations events).filterMap fun a => a.run.mainId?.map fun id => above ++ [id]

/-- The addresses of the jobs that are started, and of their steps. -/
def jobAddresses (above : List String) (events : List Event) : List (List String) :=
  (jobScope.activations events).flatMap fun a =>
    (above ++ [a.run.job.id]) :: stepAddresses (above ++ [a.run.job.id]) a.during

/-- The addresses of the workflows that are started, and of their jobs and steps. -/
def addresses (events : List Event) : List (List String) :=
  (workflowScope.activations events).flatMap fun a =>
    [a.run.runId] :: jobAddresses [a.run.runId] a.during

/-- The addresses under which runs are started in events that begin below active runs. -/
def addressesBelow : List String → List Event → List (List String)
  | [], events => addresses events
  | [run], events =>
    jobAddresses [run] (events.takeWhile workflowScope.lasts) ++ addresses events
  | run :: job :: _, events =>
    stepAddresses [run, job]
        ((events.takeWhile workflowScope.lasts).takeWhile jobScope.lasts) ++
      jobAddresses [run] (events.takeWhile workflowScope.lasts) ++ addresses events

section

variable {e : Event} {events : List Event}

theorem stepAddresses_cons (above : List String) (e : Event) (events : List Event) :
    stepAddresses above (e :: events) =
      ((stepScope.starts e.call).bind (·.mainId?)).toList.map (above ++ [·]) ++
        stepAddresses above events := by
  unfold stepAddresses
  cases h : stepScope.starts e.call with
  | none => rw [Scope.activations_cons_of_starts_none h]; rfl
  | some run =>
    rw [Scope.activations_cons_of_starts h, List.filterMap_cons]
    cases hid : run.mainId? <;> simp [Scope.activation, hid]

theorem jobAddresses_cons (above : List String) (e : Event) (events : List Event) :
    jobAddresses above (e :: events) =
      ((jobScope.starts e.call).elim [] fun run =>
        (above ++ [run.job.id]) ::
          stepAddresses (above ++ [run.job.id]) (events.takeWhile jobScope.lasts)) ++
        jobAddresses above events := by
  unfold jobAddresses
  cases h : jobScope.starts e.call with
  | none => rw [Scope.activations_cons_of_starts_none h]; rfl
  | some run => rw [Scope.activations_cons_of_starts h]; rfl

theorem addresses_cons (e : Event) (events : List Event) :
    addresses (e :: events) =
      ((workflowScope.starts e.call).elim [] fun run =>
        [run.runId] :: jobAddresses [run.runId] (events.takeWhile workflowScope.lasts)) ++
        addresses events := by
  unfold addresses
  cases h : workflowScope.starts e.call with
  | none => rw [Scope.activations_cons_of_starts_none h]; rfl
  | some run => rw [Scope.activations_cons_of_starts h]; rfl

/-- A call that starts and ends nothing starts nothing in any scope. -/
theorem addressesBelow_cons_of_stay (hworkflow : workflowScope.lasts e = true)
    (hjob : jobScope.lasts e = true) (hstep : stepScope.starts e.call = none) (path : List String) :
    addressesBelow path (e :: events) = addressesBelow path events := by
  have hworkflows := Scope.starts_of_lasts hworkflow
  have hjobs := Scope.starts_of_lasts hjob
  rcases path with _ | ⟨run, _ | ⟨job, rest⟩⟩ <;>
    simp [addressesBelow, addresses_cons, jobAddresses_cons, stepAddresses_cons, *]

/-- A move is a step through the addresses of the activations. -/
theorem addressesBelow_cons (path : List String) (e : Event) (events : List Event) :
    addressesBelow path (e :: events) =
      e.call.move.started path ++ addressesBelow (e.call.move.after path) events := by
  obtain ⟨c, process⟩ := e
  cases c with
  | startWorkflow run =>
    have hlasts : workflowScope.lasts ⟨.startWorkflow run, process⟩ = false := rfl
    have hstarts : workflowScope.starts (.startWorkflow run) = some run := rfl
    rcases path with _ | ⟨run, _ | ⟨job, rest⟩⟩ <;>
      simp [addressesBelow, addresses_cons, hstarts, hlasts, Call.move, Move.started, Move.after,
        jobAddresses, stepAddresses]
  | retireWorkflow result =>
    have hlasts : workflowScope.lasts ⟨.retireWorkflow result, process⟩ = false := rfl
    have hstarts : workflowScope.starts (.retireWorkflow result) = none := rfl
    rcases path with _ | ⟨run, _ | ⟨job, rest⟩⟩ <;>
      simp [addressesBelow, addresses_cons, hstarts, hlasts, Call.move, Move.started, Move.after,
        jobAddresses, stepAddresses]
  | startJob run =>
    have hworkflow : workflowScope.lasts ⟨.startJob run, process⟩ = true := rfl
    have hlasts : jobScope.lasts ⟨.startJob run, process⟩ = false := rfl
    have hstarts : jobScope.starts (.startJob run) = some run := rfl
    have hstarts' : workflowScope.starts (.startJob run) = none := rfl
    rcases path with _ | ⟨run, _ | ⟨job, rest⟩⟩ <;>
      simp [addressesBelow, addresses_cons, jobAddresses_cons, hworkflow, hlasts, hstarts, hstarts',
        Call.move, Move.started, Move.after, stepAddresses]
  | retireJob result =>
    have hworkflow : workflowScope.lasts ⟨.retireJob result, process⟩ = true := rfl
    have hlasts : jobScope.lasts ⟨.retireJob result, process⟩ = false := rfl
    have hstarts : jobScope.starts (.retireJob result) = none := rfl
    have hstarts' : workflowScope.starts (.retireJob result) = none := rfl
    rcases path with _ | ⟨run, _ | ⟨job, rest⟩⟩ <;>
      simp [addressesBelow, addresses_cons, jobAddresses_cons, hworkflow, hlasts, hstarts, hstarts',
        Call.move, Move.started, Move.after, stepAddresses]
  | startStep run =>
    have hworkflow : workflowScope.lasts ⟨.startStep run, process⟩ = true := rfl
    have hjob : jobScope.lasts ⟨.startStep run, process⟩ = true := rfl
    have hstarts : stepScope.starts (.startStep run) = some run := rfl
    have hstarts' : jobScope.starts (.startStep run) = none := rfl
    have hstarts'' : workflowScope.starts (.startStep run) = none := rfl
    have hlong (n : Nat) : ¬ n + 1 + 1 < 2 := by omega
    rcases path with _ | ⟨run, _ | ⟨job, rest⟩⟩ <;>
      simp [addressesBelow, addresses_cons, jobAddresses_cons, stepAddresses_cons, hworkflow, hjob,
        hstarts, hstarts', hstarts'', hlong, Call.move, Move.started, Move.after]
  | retireStep result =>
    have hstay : addressesBelow path (⟨.retireStep result, process⟩ :: events) =
        addressesBelow path events := addressesBelow_cons_of_stay rfl rfl rfl path
    rw [hstay]
    rcases path with _ | ⟨run, _ | ⟨job, rest⟩⟩ <;> rfl
  | _ => exact addressesBelow_cons_of_stay rfl rfl rfl path

/-- The addresses under which a history starts runs are those of its activations. -/
theorem startedAll_eq (s : Session) (calls : List Call) (path : List String) :
    Move.startedAll path (calls.map Call.move) = addressesBelow path (s.events calls) := by
  induction calls generalizing s path with
  | nil => rcases path with _ | ⟨run, _ | ⟨job, rest⟩⟩ <;> rfl
  | cons c calls ih =>
    rw [Session.events, addressesBelow_cons, ← ih]
    rfl

end

/-! ## Where addresses come from -/

/-- The identifier under which a call starts a run. -/
def Call.id? : Call → Option String
  | .startWorkflow run => some run.runId
  | .startJob run => some run.job.id
  | .startStep run => some run.step.id
  | _ => none

section

variable {events : List Event} {above ids : List String}

theorem Session.call_mem_of_mem_events {s : Session} {calls : List Call} {e : Event}
    (h : e ∈ s.events calls) : e.call ∈ calls := by
  induction calls generalizing s with
  | nil => cases h
  | cons c calls ih =>
    rcases List.mem_cons.1 h with rfl | h
    · exact List.mem_cons_self
    · exact List.mem_cons_of_mem _ (ih h)

/-- An activation is of a run that was started, and what happened in it happened. -/
theorem Scope.of_mem_activations {ρ : Type} {scope : Scope ρ} {a : Activation ρ}
    (h : a ∈ scope.activations events) :
    (∃ e ∈ events, scope.starts e.call = some a.run) ∧ ∀ e ∈ a.during, e ∈ events := by
  induction events with
  | nil => cases h
  | cons e events ih =>
    rcases List.mem_append.1 h with h | h
    · obtain ⟨run, hstarts, rfl⟩ := Option.map_eq_some_iff.1 (Option.mem_toList.1 h)
      refine ⟨⟨e, List.mem_cons_self, hstarts⟩, fun e' he' => List.mem_cons_of_mem _ ?_⟩
      exact (List.takeWhile_sublist _).subset he'
    · obtain ⟨⟨e', he', hstarts⟩, hduring⟩ := ih h
      exact ⟨⟨e', List.mem_cons_of_mem _ he', hstarts⟩,
        fun e hmem => List.mem_cons_of_mem _ (hduring e hmem)⟩

theorem StepRun.eq_of_mainId? {run : StepRun} {id : String} (h : run.mainId? = some id) :
    run.step.id = id := by
  unfold StepRun.mainId? at h
  split at h
  · exact Option.some.inj h
  · cases h

theorem of_mem_stepAddresses (h : ids ∈ stepAddresses above events) :
    ∃ id, ids = above ++ [id] ∧ ∃ e ∈ events, e.call.id? = some id := by
  obtain ⟨a, ha, hid⟩ := List.mem_filterMap.1 h
  obtain ⟨id, hmain, rfl⟩ := Option.map_eq_some_iff.1 hid
  obtain ⟨⟨⟨c, process⟩, he, hstarts⟩, -⟩ := Scope.of_mem_activations ha
  refine ⟨id, rfl, ⟨c, process⟩, he, ?_⟩
  cases c <;> cases hstarts
  exact congrArg some (StepRun.eq_of_mainId? hmain)

theorem of_mem_jobAddresses (h : ids ∈ jobAddresses above events) :
    ∃ id rest, ids = above ++ id :: rest ∧ rest.length ≤ 1 ∧
      ∀ id' ∈ id :: rest, ∃ e ∈ events, e.call.id? = some id' := by
  obtain ⟨a, ha, hids⟩ := List.mem_flatMap.1 h
  obtain ⟨⟨⟨c, process⟩, he, hstarts⟩, hduring⟩ := Scope.of_mem_activations ha
  have hjob : ∃ e ∈ events, e.call.id? = some a.run.job.id := by
    refine ⟨⟨c, process⟩, he, ?_⟩
    cases c <;> cases hstarts
    rfl
  rcases List.mem_cons.1 hids with rfl | hids
  · exact ⟨a.run.job.id, [], rfl, Nat.zero_le _, by simpa using hjob⟩
  · obtain ⟨id, rfl, e', he', hid⟩ := of_mem_stepAddresses hids
    have hstep : ∃ e ∈ events, e.call.id? = some id := ⟨e', hduring e' he', hid⟩
    exact ⟨a.run.job.id, [id], by simp, Nat.le_refl _, by simpa using ⟨hjob, hstep⟩⟩

/-- An address is made of the identifiers under which runs were started. -/
theorem of_mem_addresses (h : ids ∈ addresses events) :
    ids.length ≤ 3 ∧ ∀ id ∈ ids, ∃ e ∈ events, e.call.id? = some id := by
  obtain ⟨a, ha, hids⟩ := List.mem_flatMap.1 h
  obtain ⟨⟨⟨c, process⟩, he, hstarts⟩, hduring⟩ := Scope.of_mem_activations ha
  have hrun : ∃ e ∈ events, e.call.id? = some a.run.runId := by
    refine ⟨⟨c, process⟩, he, ?_⟩
    cases c <;> cases hstarts
    rfl
  rcases List.mem_cons.1 hids with rfl | hids
  · exact ⟨by simp, by simpa using hrun⟩
  · obtain ⟨id, rest, rfl, hlength, hbelow⟩ := of_mem_jobAddresses hids
    have hlengths : (a.run.runId :: id :: rest).length ≤ 3 := Nat.add_le_add_right hlength 2
    refine ⟨hlengths, fun id' hid' => ?_⟩
    rcases List.mem_cons.1 hid' with rfl | hid'
    · exact hrun
    · obtain ⟨e', he', hid⟩ := hbelow id' hid'
      exact ⟨e', hduring e' he', hid⟩

end

/-! ## Distinct addresses -/

/-- The identifiers of runs are distinct: those of all workflow runs, those of the jobs of each
workflow run, and those of the steps of each job that are in their main stage. -/
structure DistinctIds (events : List Event) : Prop where
  workflows : ((workflowScope.activations events).map (·.run.runId)).Nodup
  jobs : ∀ w ∈ workflowScope.activations events,
    ((jobScope.activations w.during).map (·.run.job.id)).Nodup
  steps : ∀ w ∈ workflowScope.activations events, ∀ j ∈ jobScope.activations w.during,
    ((stepScope.activations j.during).filterMap (·.run.mainId?)).Nodup

instance (events : List Event) : Decidable (DistinctIds events) :=
  decidable_of_iff
    (((workflowScope.activations events).map (·.run.runId)).Nodup ∧
      (∀ w ∈ workflowScope.activations events,
        ((jobScope.activations w.during).map (·.run.job.id)).Nodup) ∧
      ∀ w ∈ workflowScope.activations events, ∀ j ∈ jobScope.activations w.during,
        ((stepScope.activations j.during).filterMap (·.run.mainId?)).Nodup)
    ⟨fun ⟨workflows, jobs, steps⟩ => ⟨workflows, jobs, steps⟩,
      fun h => ⟨h.workflows, h.jobs, h.steps⟩⟩

/-- Lists that are made of distinct keys, each with its key in its items, have no item in common. -/
theorem nodup_flatMap_of_keys {α β κ : Type} {l : List α} {f : α → List β} {key : α → κ}
    (keyOf : β → κ) (hkeys : (l.map key).Nodup) (hf : ∀ a ∈ l, (f a).Nodup)
    (hkey : ∀ a ∈ l, ∀ b ∈ f a, keyOf b = key a) : (l.flatMap f).Nodup := by
  rw [List.nodup_flatMap]
  refine ⟨hf, ?_⟩
  have hpairs : l.Pairwise fun a a' => key a ≠ key a' := List.pairwise_map.1 hkeys
  refine hpairs.imp_of_mem fun {a a'} ha ha' hne b hb hb' => ?_
  exact hne ((hkey a ha b hb).symm.trans (hkey a' ha' b hb'))

theorem stepAddresses_eq (above : List String) (events : List Event) :
    stepAddresses above events =
      ((stepScope.activations events).filterMap (·.run.mainId?)).map (above ++ [·]) := by
  rw [List.map_filterMap]
  rfl

theorem nodup_stepAddresses {above : List String} {events : List Event}
    (h : ((stepScope.activations events).filterMap (·.run.mainId?)).Nodup) :
    (stepAddresses above events).Nodup := by
  rw [stepAddresses_eq]
  exact h.map fun id id' heq => by simpa using heq

theorem nodup_jobAddresses {above : List String} {events : List Event}
    (hjobs : ((jobScope.activations events).map (·.run.job.id)).Nodup)
    (hsteps : ∀ a ∈ jobScope.activations events,
      ((stepScope.activations a.during).filterMap (·.run.mainId?)).Nodup) :
    (jobAddresses above events).Nodup := by
  refine nodup_flatMap_of_keys (·.getD above.length "") hjobs (fun a ha => ?_)
    fun a ha ids hids => ?_
  · refine List.nodup_cons.2 ⟨fun hmem => ?_, nodup_stepAddresses (hsteps a ha)⟩
    obtain ⟨id, hid, -⟩ := of_mem_stepAddresses hmem
    simp at hid
  · rcases List.mem_cons.1 hids with rfl | hids
    · simp
    · obtain ⟨id, rfl, -⟩ := of_mem_stepAddresses hids
      simp

/-- If the identifiers are distinct, then no two runs are started under one address. -/
theorem DistinctIds.nodup_addresses {events : List Event} (h : DistinctIds events) :
    (addresses events).Nodup := by
  refine nodup_flatMap_of_keys (·.getD 0 "") h.workflows (fun w hw => ?_) fun w hw ids hids => ?_
  · refine List.nodup_cons.2 ⟨fun hmem => ?_, nodup_jobAddresses (h.jobs w hw) (h.steps w hw)⟩
    obtain ⟨id, rest, hid, -⟩ := of_mem_jobAddresses hmem
    simp at hid
  · rcases List.mem_cons.1 hids with rfl | hids
    · rfl
    · obtain ⟨id, rest, rfl, -⟩ := of_mem_jobAddresses hids
      rfl

end WorkflowRuns
