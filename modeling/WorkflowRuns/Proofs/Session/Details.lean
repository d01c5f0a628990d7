import WorkflowRuns.Proofs.Session.Loading

/-!
# Details

Whether details are logged is a setting, and the `runner` context has a field for it. A text that a
variable gives to the field stays as it is, while the setting takes it for a switch. The two agree
just if the variable gives nothing, or `1` (`debug_of_load`).
-/

namespace WorkflowRuns

namespace Session

/-- How the `runner` context shows whether details are logged. -/
def detailMark (debug : Bool) : String := if debug then "1" else ""

/-- What the variable says stays; otherwise the settings decide. -/
theorem debug_loadRunner (host : Host) (settings : Settings) (lookup : Lookup) :
    (loadRunner host settings lookup).debug =
      ((lookup "RUNNER_DEBUG").filter (· ≠ "")).getD (detailMark settings.debug) := by
  have hread : (Context.Runner.ofLookup host lookup).debug =
      ((lookup "RUNNER_DEBUG").filter (· ≠ "")).getD "" := rfl
  unfold loadRunner detailMark
  dsimp only
  cases hsaid : (lookup "RUNNER_DEBUG").filter (· ≠ "") with
  | none =>
    rw [hsaid, Option.getD_none] at hread
    rw [hread, Option.getD_none]
    cases settings.debug
    · exact hread
    · rfl
  | some text =>
    rw [hsaid, Option.getD_some] at hread
    have hne : text ≠ "" := by simpa using (Option.filter_eq_some_iff.1 hsaid).2
    rw [hread, decide_eq_false hne, Bool.false_and, if_neg Bool.false_ne_true, hread,
      Option.getD_some]

/-- The settings take `1` for on. -/
theorem debug_override_of_one {lookup : Lookup} (h : lookup "RUNNER_DEBUG" = some "1")
    (base : Settings) : (base.override lookup).1.debug = true := by
  have hone : Text.switch? "1" = some true := by decide
  show (Settings.debugSwitch? lookup).getD base.debug = true
  unfold Settings.debugSwitch?
  rw [h, Option.bind_some, hone]
  rfl

/-- **The field for details agrees with the setting** just if the variable for it is missing, empty
or `1`. -/
theorem debug_of_load {d d' : Disk} {host : Host} {base : Settings} {lookup : Lookup}
    {process : ProcessEnvironment} {s : Session} {events : List LogEvent}
    (h : load d host (base.override lookup).1 lookup process = (.ok (s, events), d')) :
    s.runner.debug = ((lookup "RUNNER_DEBUG").filter (· ≠ "")).getD
        (detailMark (base.override lookup).1.debug) ∧
      (s.runner.debug = detailMark (base.override lookup).1.debug ↔
        lookup "RUNNER_DEBUG" = none ∨ lookup "RUNNER_DEBUG" = some "" ∨
          lookup "RUNNER_DEBUG" = some "1") := by
  have hdebug : s.runner.debug = ((lookup "RUNNER_DEBUG").filter (· ≠ "")).getD
      (detailMark (base.override lookup).1.debug) := by
    cases loads_of_load h with
    | all => exact debug_loadRunner ..
  refine ⟨hdebug, ?_⟩
  rw [hdebug]
  cases hsaid : lookup "RUNNER_DEBUG" with
  | none => simp
  | some text =>
    by_cases hempty : text = ""
    · simp [Option.filter_some, hempty]
    by_cases hone : text = "1"
    · subst hone
      have hon := debug_override_of_one hsaid base
      simp [Option.filter_some, hon, detailMark]
    · -- the field shows the text, which is no mark
      have hmark : text ≠ detailMark (base.override lookup).1.debug := by
        unfold detailMark
        split
        · exact hone
        · exact hempty
      simp [Option.filter_some, hempty, hone, hmark]

/-- The only variable that is set asks for details of steps. -/
def stepDetails : Lookup := fun name => if name = "ACTIONS_STEP_DEBUG" then some " TRUE" else none

/-- The variable for steps turns details on where the other one says nothing. -/
theorem debug_of_load_stepDetails : ∃ s events d',
    load .blank ⟨"", "", ""⟩ (({} : Settings).override stepDetails).1 stepDetails (.inMemory ∅) =
      (.ok (s, events), d') ∧ s.runner.debug = "1" := by
  have hon : (({} : Settings).override stepDetails).1.debug = true := by decide
  have hok : (load .blank ⟨"", "", ""⟩ (({} : Settings).override stepDetails).1 stepDetails
      (.inMemory ∅)).1.isOk = true := by decide +kernel
  cases hload : load .blank ⟨"", "", ""⟩ (({} : Settings).override stepDetails).1 stepDetails
      (.inMemory ∅) with
  | mk r d' =>
    rw [hload] at hok
    cases r with
    | error f => cases hok
    | ok loaded =>
      obtain ⟨-, hagrees⟩ := debug_of_load hload
      refine ⟨loaded.1, loaded.2, d', rfl, ?_⟩
      rw [hagrees.2 (.inl rfl), hon]
      rfl

/-- The only variable that is set turns details off. -/
def noDetails : Lookup := fun name => if name = "RUNNER_DEBUG" then some "0" else none

/-- A text that turns details off is shown where nothing should be. -/
theorem not_empty_when_off : ¬ ∀ (d d' : Disk) (host : Host) (lookup : Lookup)
    (process : ProcessEnvironment) (s : Session) (events : List LogEvent),
    load d host (({} : Settings).override lookup).1 lookup process = (.ok (s, events), d') →
      s.runner.debug = detailMark (({} : Settings).override lookup).1.debug := by
  intro hagrees
  have hshown : ((load .blank ⟨"", "", ""⟩ (({} : Settings).override noDetails).1 noDetails
      (.inMemory ∅)).1.map fun loaded => loaded.1.runner.debug) = .ok "0" := by decide +kernel
  have hoff : detailMark (({} : Settings).override noDetails).1.debug = "" := by decide
  cases hload : load .blank ⟨"", "", ""⟩ (({} : Settings).override noDetails).1 noDetails
      (.inMemory ∅) with
  | mk r d' =>
    rw [hload] at hshown
    cases r with
    | error f => cases hshown
    | ok loaded =>
      have hempty := hagrees _ _ _ _ _ loaded.1 loaded.2 hload
      rw [hoff] at hempty
      simp [Except.map, hempty] at hshown

end Session

end WorkflowRuns
