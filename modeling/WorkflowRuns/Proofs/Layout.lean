import WorkflowRuns.Layout
import WorkflowRuns.Proofs.Files.Path

/-!
# Where the directories of runs are

The directories of runs are nested, one level for each identifier: of the workflow run, of the job
and of the step (`nested`). The name that is made of an identifier is an ordinary one unless the
identifier is `.` or `..` (`component_safeName_iff`), and just then a path leads to its own place in
the tree of runs (`resolve_nested_iff`).
-/

namespace WorkflowRuns.Layout

/-! ## Names -/

theorem isSafe_of_mem_safeName {id : String} {c : Char} (h : c ∈ (safeName id).toList) :
    isSafe c = true := by
  unfold safeName at h
  split at h
  · obtain rfl : c = '_' := by simpa using h
    decide
  · rw [String.toList_ofList, List.mem_map] at h
    obtain ⟨c', -, rfl⟩ := h
    split
    · assumption
    · decide

/-- A name without an underscore is made of itself only. -/
theorem safeName_eq_iff {id name : String} (hunderscore : '_' ∉ name.toList) (hne : name ≠ "")
    (hsafe : name.toList.all isSafe = true) : safeName id = name ↔ id = name := by
  unfold safeName
  constructor
  · intro h
    split at h
    · rw [← h] at hunderscore
      exact absurd (by decide) hunderscore
    · have hchars : (id.toList.map fun c => if isSafe c then c else '_') = name.toList := by
        rw [← h, String.toList_ofList]
      have hkept : ∀ c ∈ id.toList, (if isSafe c then c else '_') = c := by
        intro c hc
        have hmem : (if isSafe c then c else '_') ∈ name.toList := by
          rw [← hchars]
          exact List.mem_map.2 ⟨c, hc, rfl⟩
        split
        · rfl
        · rename_i hunsafe
          rw [if_neg hunsafe] at hmem
          exact absurd hmem hunderscore
      rw [List.map_congr_left hkept, List.map_id'] at hchars
      exact String.toList_inj.1 hchars
  · rintro rfl
    have hkept : ∀ c ∈ id.toList, (if isSafe c then c else '_') = c := by
      intro c hc
      rw [if_pos (List.all_eq_true.1 hsafe c hc)]
    rw [if_neg hne, List.map_congr_left hkept, List.map_id', String.ofList_toList]

theorem safeName_eq_dot_iff {id : String} : safeName id = "." ↔ id = "." :=
  safeName_eq_iff (by decide) (by decide) (by decide)

theorem safeName_eq_dots_iff {id : String} : safeName id = ".." ↔ id = ".." :=
  safeName_eq_iff (by decide) (by decide) (by decide)

/-- An identifier is none of the two that lead from a directory to itself and to the one above. -/
def Ordinary (id : String) : Prop := id ≠ "." ∧ id ≠ ".."

instance (id : String) : Decidable (Ordinary id) :=
  inferInstanceAs (Decidable (id ≠ "." ∧ id ≠ ".."))

/-- The name of an identifier is an ordinary one, except for two identifiers. -/
theorem component_safeName_iff {id : String} : Path.Component (safeName id) ↔ Ordinary id := by
  constructor
  · intro h
    exact ⟨mt safeName_eq_dot_iff.2 h.notHere, mt safeName_eq_dots_iff.2 h.notUp⟩
  · rintro ⟨hdot, hdots⟩
    refine ⟨?_, ?_, ?_, mt safeName_eq_dot_iff.1 hdot, mt safeName_eq_dots_iff.1 hdots⟩
    · unfold safeName
      split
      · decide
      · rename_i hne
        intro h
        have hnil := congrArg String.toList h
        rw [String.toList_ofList, String.toList_empty, List.map_eq_nil_iff] at hnil
        exact hne (String.toList_eq_nil_iff.1 hnil)
    · intro h
      exact absurd (isSafe_of_mem_safeName h) (by decide)
    · intro h
      exact absurd (isSafe_of_mem_safeName h) (by decide)

/-! ## Directories -/

/-- The directories in which runs are, below the home, a workflow run and a job run. -/
def levels : List String := ["runs", "jobs", "steps"]

/-- The directory of a run that is identified by the identifiers of the workflow run, of the job and
of the step, as far as they are given. -/
def nested (home : String) (ids : List String) : String :=
  (levels.zip ids).foldl (fun place e => Path.join (Path.join place e.1) (safeName e.2)) home

theorem workflowRun_eq_nested (home runId : String) :
    workflowRun home runId = nested home [runId] := rfl

theorem jobRun_eq_nested (home runId jobId : String) :
    jobRun home runId jobId = nested home [runId, jobId] := rfl

theorem stepRun_eq_nested (home runId jobId stepId : String) :
    stepRun home runId jobId stepId = nested home [runId, jobId, stepId] := rfl

/-- The names that lead from the home to the directory of a run. -/
def branch (ids : List String) : List String :=
  (levels.zip ids).flatMap fun e => [e.1, safeName e.2]

/-- Where a level leads with an identifier. -/
def grow (place : Place) (e : String × String) : Place :=
  Path.descend (place ++ [e.1]) (safeName e.2)

theorem grow_of_ordinary {e : String × String} (h : Ordinary e.2) (place : Place) :
    grow place e = place ++ [e.1, safeName e.2] := by
  rw [grow, (component_safeName_iff.2 h).descend, List.append_assoc]
  rfl

theorem length_grow_lt {e : String × String} (h : ¬ Ordinary e.2) (place : Place) :
    (grow place e).length < place.length + 2 := by
  have hid : safeName e.2 = "." ∨ safeName e.2 = ".." := by
    rw [safeName_eq_dot_iff, safeName_eq_dots_iff]
    unfold Ordinary at h
    by_cases hdot : e.2 = "."
    · exact .inl hdot
    · exact .inr (Decidable.byContradiction fun hdots => h ⟨hdot, hdots⟩)
  unfold grow Path.descend
  rcases hid with hid | hid <;> simp [hid]

theorem foldl_grow_of_ordinary {es : List (String × String)} (h : ∀ e ∈ es, Ordinary e.2)
    (place : Place) :
    es.foldl grow place = place ++ es.flatMap fun e => [e.1, safeName e.2] := by
  induction es generalizing place with
  | nil => simp
  | cons e es ih =>
    obtain ⟨he, hes⟩ := List.forall_mem_cons.1 h
    rw [List.foldl_cons, grow_of_ordinary he, ih hes, List.flatMap_cons, List.append_assoc]

theorem length_foldl_grow_le (es : List (String × String)) (place : Place) :
    (es.foldl grow place).length ≤ place.length + 2 * es.length := by
  induction es generalizing place with
  | nil => simp
  | cons e es ih =>
    have hgrow : (grow place e).length ≤ place.length + 2 := by
      by_cases he : Ordinary e.2
      · rw [grow_of_ordinary he]
        simp
      · exact Nat.le_of_lt (length_grow_lt he place)
    have hrest := ih (grow place e)
    rw [List.foldl_cons, List.length_cons]
    omega

/-- An identifier that is not ordinary is missing on the way. -/
theorem ordinary_of_length {es : List (String × String)} {place : Place}
    (h : (es.foldl grow place).length = place.length + 2 * es.length) :
    ∀ e ∈ es, Ordinary e.2 := by
  induction es generalizing place with
  | nil => simp
  | cons e es ih =>
    rw [List.foldl_cons, List.length_cons] at h
    have hle := length_foldl_grow_le es (grow place e)
    have he : Ordinary e.2 := by
      refine Decidable.byContradiction fun hnot => ?_
      have hlt := length_grow_lt hnot place
      omega
    have hlength : (grow place e).length = place.length + 2 := by
      rw [grow_of_ordinary he]
      simp
    have hrest : (es.foldl grow (grow place e)).length =
        (grow place e).length + 2 * es.length := by omega
    exact List.forall_mem_cons.2 ⟨he, ih hrest⟩

theorem component_of_mem_levels : ∀ level ∈ levels, Path.Component level := by decide

theorem resolve_nested (here : Place) (home : String) (ids : List String) :
    Path.resolve here (nested home ids) = (levels.zip ids).foldl grow (Path.resolve here home) := by
  have hlevels : ∀ e ∈ levels.zip ids, Path.Component e.1 := fun e he =>
    component_of_mem_levels e.1 (List.of_mem_zip he).1
  unfold nested
  generalize levels.zip ids = es at hlevels ⊢
  induction es generalizing home with
  | nil => rfl
  | cons e es ih =>
    obtain ⟨he, hes⟩ := List.forall_mem_cons.1 hlevels
    have hname : '/' ∉ (safeName e.2).toList := by
      intro h
      exact absurd (isSafe_of_mem_safeName h) (by decide)
    rw [List.foldl_cons, List.foldl_cons, ih _ hes, Path.resolve_join hname,
      Path.resolve_join he.noSlash, he.descend]
    rfl

theorem length_branch (ids : List String) :
    (branch ids).length = 2 * (levels.zip ids).length := by
  unfold branch
  induction levels.zip ids with
  | nil => rfl
  | cons e es ih =>
    rw [List.flatMap_cons, List.length_append, ih, List.length_cons]
    simp
    omega

/-- **A path leads to its own place in the tree of runs if and only if its identifiers are
ordinary.** -/
theorem resolve_nested_iff {ids : List String} (hids : ids.length ≤ levels.length) (here : Place)
    (home : String) :
    Path.resolve here (nested home ids) = Path.resolve here home ++ branch ids ↔
      ∀ id ∈ ids, Ordinary id := by
  have hall : (∀ e ∈ levels.zip ids, Ordinary e.2) ↔ ∀ id ∈ ids, Ordinary id := by
    have hsnd : (levels.zip ids).map Prod.snd = ids := List.map_snd_zip hids
    constructor
    · intro h id hid
      rw [← hsnd] at hid
      obtain ⟨e, he, rfl⟩ := List.mem_map.1 hid
      exact h e he
    · intro h e he
      exact h e.2 (List.of_mem_zip he).2
  rw [← hall, resolve_nested]
  constructor
  · intro h
    have hlength : ((levels.zip ids).foldl grow (Path.resolve here home)).length =
        (Path.resolve here home).length + 2 * (levels.zip ids).length := by
      rw [h, List.length_append, length_branch]
    exact ordinary_of_length hlength
  · intro h
    exact foldl_grow_of_ordinary h _

end WorkflowRuns.Layout
