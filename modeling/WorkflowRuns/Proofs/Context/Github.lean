import WorkflowRuns.Proofs.Session.Exports

/-!
# The `github` context read back from its variables

A context is handed on as variables, and reading these gives it back as far as they tell of it
(`ofLookup_handedOn`). The owner, the short name and the kind may have been found from other names
when it was read; such a name is handed on in its turn, or is empty and found to be empty again. The
short name and the kind that are found from a full name fit to it, and in one way only
(`existsUnique_fits`).
-/

namespace WorkflowRuns.Context.Github

variable {d : Disk} {lookup : Lookup} {g : Github}

/-! ## What is handed on -/

/-- What is found under a name where a context was handed on: what it says, unless that is empty. -/
def handedOn (g : Github) : Lookup := fun name =>
  latest (assigned? name) (g.exports.filter (·.2 ≠ ""))

theorem handedOn_of_mem {name value : String} (h : (name, value) ∈ g.exports) :
    g.handedOn name = if value = "" then none else some value := by
  have hnodup : (g.exports.map Prod.fst).Nodup := nodup_exportNames
  rw [handedOn, latest_assigned?_filter hnodup h]
  by_cases hvalue : value = "" <;> simp [hvalue]

theorem handedOn_of_not_mem {name : String} (h : name ∉ exportNames) : g.handedOn name = none := by
  refine latest_assigned?_eq_none fun e he hname => h ?_
  rw [← hname, ← g.map_exports]
  exact List.mem_map_of_mem (List.mem_filter.1 he).1

/-- The variables with a value are found, and nothing else. -/
theorem handedOn_eq_some_iff {name value : String} :
    g.handedOn name = some value ↔ (name, value) ∈ g.exports ∧ value ≠ "" := by
  constructor
  · intro h
    by_cases hname : name ∈ exportNames
    · rw [← g.map_exports] at hname
      obtain ⟨⟨_, v⟩, hmem, rfl⟩ := List.mem_map.1 hname
      rw [handedOn_of_mem hmem] at h
      split at h
      · cases h
      · next hv =>
        cases h
        exact ⟨hmem, hv⟩
    · rw [handedOn_of_not_mem hname] at h
      cases h
  · rintro ⟨hmem, hvalue⟩
    rw [handedOn_of_mem hmem, if_neg hvalue]

theorem getD_handedOn {name value : String} (h : (name, value) ∈ g.exports) :
    (g.handedOn name).getD "" = value := by
  rw [handedOn_of_mem h]
  split
  · next hvalue => exact hvalue.symm
  · rfl

theorem getD_handedOn_of_not_mem {name : String} (h : name ∉ exportNames) :
    (g.handedOn name).getD "" = "" := by
  rw [handedOn_of_not_mem h]
  rfl

/-! ## What is found from other names -/

/-- The part of a context that its variables tell to whoever reads them. What they tell of the
workflow, the job and the action is not read. -/
def told (g : Github) : Github where
  repository := g.repository
  repositoryOwner := g.repositoryOwner
  workspace := g.workspace
  ref := g.ref
  refName := g.refName
  refType := g.refType
  sha := g.sha
  eventName := g.eventName
  event := .emptyObject

theorem orElse_orElse (text fallback : String) :
    orElse (orElse text fallback) fallback = orElse text fallback := by
  unfold orElse
  by_cases h : text = ""
  · rw [if_pos h, ite_self]
  · rw [if_neg h, if_neg h]

/-- The owner, the short name and the kind are those that variables give, or are found from the
other names. -/
structure Found (lookup : Lookup) (g : Github) : Prop where
  owner : g.repositoryOwner =
    orElse ((lookup "GITHUB_REPOSITORY_OWNER").getD "") (ownerOf g.repository)
  refName : g.refName = orElse ((lookup "GITHUB_REF_NAME").getD "") (shortName g.ref)
  refType : g.refType = orElse ((lookup "GITHUB_REF_TYPE").getD "") (kind g.ref)

theorem found_of_ofLookup (h : ofLookup d lookup = .ok g) : Found lookup g := by
  unfold ofLookup at h
  dsimp only at h
  cases hevent : readEvent d ((lookup "GITHUB_EVENT_PATH").getD "") with
  | error f =>
    rw [hevent] at h
    cases h
  | ok event =>
    rw [hevent] at h
    cases h
    exact ⟨rfl, rfl, rfl⟩

/-- What variables say or leave to be found is the same when it is handed on. -/
theorem ofLookup_handedOn (h : Found lookup g) (d : Disk) :
    ofLookup d g.handedOn = .ok g.told := by
  have hownerFound : orElse g.repositoryOwner (ownerOf g.repository) = g.repositoryOwner := by
    rw [h.owner, orElse_orElse]
  have hnameFound : orElse g.refName (shortName g.ref) = g.refName := by
    rw [h.refName, orElse_orElse]
  have htypeFound : orElse g.refType (kind g.ref) = g.refType := by
    rw [h.refType, orElse_orElse]
  have hsaid : ∀ e ∈ g.exports, (g.handedOn e.1).getD "" = e.2 := fun e he => getD_handedOn he
  simp only [exports, List.forall_mem_cons, List.not_mem_nil, false_imp_iff, implies_true,
    and_true] at hsaid
  obtain ⟨hrepository, howner, hworkspace, href, hname, htype, hsha, heventName, -⟩ := hsaid
  have hunsaid : ∀ name ∈ ["GITHUB_EVENT_PATH", "GITHUB_REPOSITORY_ID",
      "GITHUB_REPOSITORY_OWNER_ID", "GITHUB_REPOSITORY_URL", "GITHUB_API_URL",
      "GITHUB_GRAPHQL_URL", "GITHUB_SERVER_URL", "GITHUB_REF_PROTECTED", "GITHUB_HEAD_REF",
      "GITHUB_BASE_REF", "GITHUB_ACTOR", "GITHUB_TOKEN"], (g.handedOn name).getD "" = "" := by
    intro name hmem
    refine getD_handedOn_of_not_mem ?_
    revert name
    decide +kernel
  simp only [List.forall_mem_cons, List.not_mem_nil, false_imp_iff, implies_true,
    and_true] at hunsaid
  have hevent : readEvent d "" = .ok .emptyObject := if_pos rfl
  have hprotected : Text.switch? "" = none := by decide +kernel
  simp only [ofLookup, hunsaid, hrepository, howner, hworkspace, href, hname, htype, hsha,
    heventName, hownerFound, hnameFound, htypeFound, hevent, hprotected]
  rfl

/-! ## Branches and tags -/

/-- What a full name is a name of. -/
inductive RefKind where
  | branch
  | tag
  | other

/-- The word for it in the context. -/
def RefKind.word : RefKind → String
  | branch => "branch"
  | tag => "tag"
  | other => ""

/-- The full name, the short name and the kind of a context fit together. -/
def RefKind.Fits (g : Github) : RefKind → Prop
  | branch => g.refType = "branch" ∧ g.ref = "refs/heads/" ++ g.refName
  | tag => g.refType = "tag" ∧ g.ref = "refs/tags/" ++ g.refName
  | other => g.refType = "" ∧ g.refName = g.ref ∧
      ∀ name, g.ref ≠ "refs/heads/" ++ name ∧ g.ref ≠ "refs/tags/" ++ name

theorem RefKind.word_injective {k k' : RefKind} (h : k.word = k'.word) : k = k' := by
  cases k <;> cases k' <;> simp_all [word]

theorem RefKind.Fits.refType_eq {k : RefKind} (h : k.Fits g) : g.refType = k.word := by
  cases k <;> exact h.1

theorem after?_toList_eq_some_iff {front text : String} {rest : List Char} :
    Text.after? front.toList text.toList = some rest ↔ text = front ++ String.ofList rest := by
  rw [Text.after?_eq_some_iff, ← String.toList_inj, String.toList_append, String.toList_ofList]

theorem ne_append_of_after?_eq_none {front text : String}
    (h : Text.after? front.toList text.toList = none) (rest : String) : text ≠ front ++ rest := by
  rw [← rest.ofList_toList]
  intro heq
  rw [after?_toList_eq_some_iff.2 heq] at h
  cases h

/-- The short name and the kind that are found from a full name fit to it. -/
theorem exists_fits (hname : g.refName = shortName g.ref) (htype : g.refType = kind g.ref) :
    ∃ k : RefKind, k.Fits g := by
  unfold shortName at hname
  unfold kind at htype
  cases hbranch : Text.after? branchFront.toList g.ref.toList with
  | some name =>
    rw [hbranch] at hname htype
    refine ⟨.branch, htype, ?_⟩
    rw [hname]
    exact after?_toList_eq_some_iff.1 hbranch
  | none =>
    rw [hbranch] at hname htype
    cases htag : Text.after? tagFront.toList g.ref.toList with
    | some name =>
      rw [htag] at hname htype
      refine ⟨.tag, htype, ?_⟩
      rw [hname]
      exact after?_toList_eq_some_iff.1 htag
    | none =>
      rw [htag] at hname htype
      exact ⟨.other, htype, hname, fun name =>
        ⟨ne_append_of_after?_eq_none hbranch name, ne_append_of_after?_eq_none htag name⟩⟩

/-- They fit as those of a branch, of a tag or of something else, and never as two of these. -/
theorem existsUnique_fits (h : Found lookup g)
    (hname : (lookup "GITHUB_REF_NAME").getD "" = "")
    (htype : (lookup "GITHUB_REF_TYPE").getD "" = "") : ∃! k : RefKind, k.Fits g := by
  have hfoundName : g.refName = shortName g.ref := by
    rw [h.refName, hname]
    rfl
  have hfoundType : g.refType = kind g.ref := by
    rw [h.refType, htype]
    rfl
  obtain ⟨k, hk⟩ := exists_fits hfoundName hfoundType
  exact ⟨k, hk, fun k' hk' => RefKind.word_injective (hk'.refType_eq.symm.trans hk.refType_eq)⟩

/-- **A context is read back from its variables.** Let a context be read from variables, and let the
variables that it hands on be found where they have a value, and nothing else. What is read from
these has the same repository and owner, workspace, full name, short name and kind, commit and event
name, and nothing else. Where neither a short name nor a kind was given, the two fit to the
full name as those of a branch, of a tag, or of neither, and of one of these only. -/
theorem ofLookup_exports (h : ofLookup d lookup = .ok g) :
    (∀ name value, g.handedOn name = some value ↔ (name, value) ∈ g.exports ∧ value ≠ "") ∧
      (∀ d' : Disk, ofLookup d' g.handedOn = .ok g.told) ∧
      ((lookup "GITHUB_REF_NAME").getD "" = "" → (lookup "GITHUB_REF_TYPE").getD "" = "" →
        ∃! k : RefKind, k.Fits g) :=
  ⟨fun _ _ => handedOn_eq_some_iff, ofLookup_handedOn (found_of_ofLookup h),
    existsUnique_fits (found_of_ofLookup h)⟩

/-- A repository has no owner in its name, and a full name is that of a branch without a name. -/
theorem ofLookup_exports_bare_branch :
    let lookup : Lookup := fun name =>
      [("GITHUB_REPOSITORY", "hello"), ("GITHUB_REF", "refs/heads/"), ("GITHUB_ACTOR", "octo"),
        ("GITHUB_REF_TYPE", "")].lookup name
    let g : Github := {
      repository := "hello", ref := "refs/heads/", refType := "branch", actor := "octo"
      event := .emptyObject }
    ofLookup .blank lookup = .ok g ∧
      g.handedOn "GITHUB_REF_TYPE" = some "branch" ∧ g.handedOn "GITHUB_REF_NAME" = none ∧
      ofLookup .blank g.handedOn = .ok { g with actor := "" } ∧
      ∃! k : RefKind, k.Fits g := by
  intro lookup g
  have hevent : readEvent .blank "" = .ok .emptyObject := if_pos rfl
  have howner : orElse "" (ownerOf "hello") = "" := by decide +kernel
  have hname : orElse "" (shortName "refs/heads/") = "" := by decide +kernel
  have htype : orElse "" (kind "refs/heads/") = "branch" := by decide +kernel
  have hprotected : Text.switch? "" = none := by decide +kernel
  have hread : ofLookup .blank lookup = .ok g := by
    simp [ofLookup, lookup, g, List.lookup_cons, Except.map, hevent, howner, hname, htype,
      hprotected]
  obtain ⟨hhanded, hagain, hfits⟩ := ofLookup_exports hread
  refine ⟨hread, (hhanded _ _).2 ⟨?_, by decide⟩, ?_, hagain .blank, hfits rfl rfl⟩
  · simp [exports, g]
  · decide +kernel

end WorkflowRuns.Context.Github
