import Mathlib.Data.List.Nodup
import WorkflowRuns.Proofs.Session.Calls

/-!
# Addresses of runs

The address of a run is the list of the identifiers that lead to it: of the workflow run, of the job
and of the step. A step has one only in its main stage. Every call is a `Move` on the address of the
innermost active run: it starts a run at a level, ends the one at a level, or does neither
(`Session.path_of_effect`). Whatever ends was started before, and what was started ends once at
most, so no address ends more often than runs are started under it (`count_endedAll_le`).
-/

namespace WorkflowRuns

/-! ## Moves -/

/-- What a call does to the address of the innermost active run. -/
inductive Move where
  /-- Starts a run at a level, in place of whatever is active there; without an identifier, the run
  has no address. -/
  | start (level : Nat) (id? : Option String)
  /-- Ends the run at a level. -/
  | stop (level : Nat)
  /-- Neither. -/
  | stay

namespace Move

/-- The address of the innermost active run after a move. A run only starts below an active one. -/
def after (path : List String) : Move → List String
  | .start level id? =>
    if path.length < level then path else path.take level ++ id?.toList
  | .stop level => path.take level
  | .stay => path

/-- The address under which a move starts a run, if it does. -/
def started (path : List String) : Move → List (List String)
  | .start level id? =>
    if path.length < level then [] else id?.toList.map fun id => path.take level ++ [id]
  | .stop _ | .stay => []

/-- The address of the run that a move ends, if it does. -/
def ended (path : List String) : Move → List (List String)
  | .stop level => if level < path.length then [path.take (level + 1)] else []
  | .start .. | .stay => []

/-- The addresses under which moves start runs, one after the other. -/
def startedAll (path : List String) : List Move → List (List String)
  | [] => []
  | m :: moves => m.started path ++ startedAll (m.after path) moves

/-- The addresses of the runs that moves end, one after the other. -/
def endedAll (path : List String) : List Move → List (List String)
  | [] => []
  | m :: moves => m.ended path ++ endedAll (m.after path) moves

/-- How many runs are active under an address: one, if it leads to the innermost active run or is on
the way to it. -/
def active (path ids : List String) : Nat := if ids ≠ [] ∧ ids <+: path then 1 else 0

variable {path ids : List String}

@[simp] theorem active_nil (ids : List String) : active [] ids = 0 := by
  unfold active
  rw [if_neg]
  rintro ⟨hne, hprefix⟩
  exact hne (List.prefix_nil.1 hprefix)

theorem active_le_of_prefix {above : List String} (h : above <+: path) :
    active above ids ≤ active path ids := by
  unfold active
  by_cases hactive : ids ≠ [] ∧ ids <+: above
  · simp [hactive, hactive.2.trans h]
  · rw [if_neg hactive]
    exact Nat.zero_le _

theorem active_concat_le (path : List String) (id : String) (ids : List String) :
    active (path ++ [id]) ids ≤ active path ids + [path ++ [id]].count ids := by
  by_cases hids : ids = path ++ [id]
  · have hone : active (path ++ [id]) ids ≤ 1 := by
      unfold active
      split <;> omega
    rw [hids, List.count_singleton_self]
    rw [hids] at hone
    omega
  · have hsame : active (path ++ [id]) ids = active path ids := by
      simp only [active, List.prefix_concat_iff, or_iff_right hids]
    omega

/-- An address is not active once what is at its end is taken away. -/
theorem active_take_length {level : Nat} (h : level < path.length) :
    active (path.take level) (path.take (level + 1)) = 0 := by
  unfold active
  rw [if_neg]
  rintro ⟨-, hprefix⟩
  have hlength := hprefix.length_le
  rw [List.length_take, List.length_take] at hlength
  omega

/-- A run that ends was active, and one that is active after a move was so before or was started by
it. -/
theorem count_ended_le (m : Move) (path ids : List String) :
    (m.ended path).count ids + active (m.after path) ids ≤
      active path ids + (m.started path).count ids := by
  cases m with
  | stay => simp [ended, after, started]
  | start level id? =>
    simp only [ended, after, started, List.count_nil]
    by_cases hshort : path.length < level
    · simp [hshort]
    · have habove : active (path.take level) ids ≤ active path ids :=
        active_le_of_prefix (List.take_prefix ..)
      cases id? with
      | none => simpa [hshort] using habove
      | some id =>
        have hconcat := active_concat_le (path.take level) id ids
        simp only [hshort, if_false, Option.toList_some, List.map_singleton]
        omega
  | stop level =>
    have habove : active (path.take level) ids ≤ active path ids :=
      active_le_of_prefix (List.take_prefix ..)
    simp only [ended, after, started, List.count_nil]
    by_cases hlevel : level < path.length
    · by_cases hids : ids = path.take (level + 1)
      · -- the run that ends was active and is active no more
        have hnot := active_take_length hlevel
        have hwas : active path (path.take (level + 1)) = 1 := by
          unfold active
          rw [if_pos]
          refine ⟨?_, List.take_prefix ..⟩
          intro hnil
          have hlength := congrArg List.length hnil
          rw [List.length_take, List.length_nil] at hlength
          omega
        rw [hids, if_pos hlevel, List.count_singleton_self]
        omega
      · have hcount : [path.take (level + 1)].count ids = 0 := by
          rw [List.count_eq_zero, List.mem_singleton]
          exact hids
        rw [if_pos hlevel]
        omega
    · rw [if_neg hlevel, List.count_nil]
      omega

/-- Nothing ends under an address more often than it was active or is started under it. -/
theorem count_endedAll_le (moves : List Move) (path ids : List String) :
    (endedAll path moves).count ids ≤ active path ids + (startedAll path moves).count ids := by
  induction moves generalizing path with
  | nil => exact Nat.zero_le _
  | cons m moves ih =>
    have hstep := m.count_ended_le path ids
    have hrest := ih (m.after path)
    rw [endedAll, startedAll, List.count_append, List.count_append]
    omega

/-- What ends was started, if nothing was active. -/
theorem mem_startedAll {moves : List Move} (h : ids ∈ endedAll [] moves) :
    ids ∈ startedAll [] moves := by
  have hcount := count_endedAll_le moves [] ids
  rw [active_nil, Nat.zero_add] at hcount
  exact List.count_pos_iff.1 (Nat.lt_of_lt_of_le (List.count_pos_iff.2 h) hcount)

/-- What is started once ends once at most. -/
theorem nodup_endedAll {moves : List Move} (h : (startedAll [] moves).Nodup) :
    (endedAll [] moves).Nodup := by
  rw [List.nodup_iff_count_le_one] at h ⊢
  intro ids
  have hcount := count_endedAll_le moves [] ids
  rw [active_nil, Nat.zero_add] at hcount
  exact Nat.le_trans hcount (h ids)

end Move

/-! ## Calls as moves -/

/-- The identifier of a step in its main stage. -/
def StepRun.mainId? (run : StepRun) : Option String :=
  if run.stage = .main then some run.step.id else none

theorem StepRun.Wrote.mainId? {before after : StepRun} {writes : List StepWrite}
    (h : before.Wrote writes after) : after.mainId? = before.mainId? := by
  unfold StepRun.mainId?
  rw [h.stage, h.step]

theorem WorkflowRun.SameRun.runId {w w' : WorkflowRun} (h : w.SameRun w') :
    w'.runId = w.runId := by
  rw [h]

/-- A call as a move. -/
def Call.move : Call → Move
  | .startWorkflow run => .start 0 (some run.runId)
  | .startJob run => .start 1 (some run.job.id)
  | .startStep run => .start 2 run.mainId?
  | .retireWorkflow _ => .stop 0
  | .retireJob _ => .stop 1
  | .retireStep _ => .stop 2
  | _ => .stay

namespace Session

/-- The address of the innermost active run. -/
def path (s : Session) : List String :=
  match s.workflowRun with
  | none => []
  | some run =>
    run.runId ::
      match s.jobRun with
      | none => []
      | some job => job.job.id :: (s.stepRun.bind (·.mainId?)).toList

variable {s t : Session} {c : Call}

theorem path_of_idle (h : s.Idle c) : c.move.after s.path = s.path := by
  cases c with
  | retireWorkflow | startJob =>
    have hw : s.workflowRun = none := h
    simp [path, Call.move, Move.after, hw]
  | retireJob | startStep =>
    have hj : s.jobRun = none := h
    cases hw : s.workflowRun <;> simp [path, Call.move, Move.after, hw, hj]
  | retireStep =>
    have hs : s.stepRun = none := h
    cases hw : s.workflowRun <;> cases hj : s.jobRun <;>
      simp [path, Call.move, Move.after, hw, hj, hs]
  | concludeJob | write | takeOver => rfl
  | _ => exact h.elim

/-- A call moves the address. -/
theorem path_of_effect (hc : c.edits = false) (e : s.Effect c t) :
    t.path = c.move.after s.path := by
  cases e with
  | idle hidle => exact (path_of_idle hidle).symm
  | startAction | leaveAction | nameEnvironmentFile | namePathFile => rfl
  | editWorkflow => cases hc
  | startWorkflow run => simp [path, Call.move, Move.after, installed]
  | retireWorkflow hw => simp [path, Call.move, Move.after]
  | startJob hw run =>
    simp only [path, Call.move, Move.after, hw]
    rfl
  | @retireJob w job hw hj =>
    have hrun := (w.sameRun_register job).trans (WorkflowRun.sameRun_conclude _ job.conclusion)
    simp [path, Call.move, Move.after, hw, hrun.runId]
  | retireJobOutside hw hj => simp [path, Call.move, Move.after, hw]
  | concludeJob hj =>
    cases hw : s.workflowRun <;> simp [path, Call.move, Move.after, hw, hj, JobRun.concluded]
  | startStep hj run =>
    have hlong (n : Nat) : ¬ n + 1 + 1 < 2 := by omega
    cases hw : s.workflowRun <;> simp [path, Call.move, Move.after, hw, hj, hlong]
  | retireStep hs =>
    cases hw : s.workflowRun <;> cases hj : s.jobRun <;>
      simp [path, Call.move, Move.after, hw, hj, JobRun.withStep]
  | @write step hs w =>
    have hwrote := StepRun.wrote_foldl step [w]
    simp only [path, Call.move, Move.after, hs, Option.bind_some]
    rw [show (step.write w).mainId? = step.mainId? from hwrote.mainId?]
  | @takeOver step hs contents =>
    have hwrote := StepRun.wrote_foldl step (Handover.ofContents s.process contents).writes
    simp only [path, Call.move, Move.after, hs, Option.bind_some]
    rw [hwrote.mainId?]

end Session

end WorkflowRuns
