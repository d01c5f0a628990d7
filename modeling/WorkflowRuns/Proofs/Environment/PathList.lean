import WorkflowRuns.Environment.Variables

/-!
# The elements of a search path

A search path stands for the list of its elements, which is what lies between its separators
(`elements`). Adding to the text is adding to that list, whatever the text ends in and whatever is
added (`elements_append`). An entry without a separator adds itself, and an empty one nothing, so no
empty element comes in (`append_adds_elements`).
-/

namespace WorkflowRuns.PathList

/-- What lies between the separators of a text. -/
def split (text : String) : List String := (text.toList.splitOn separator).map String.ofList

/-- The elements of a search path. An empty one has none. -/
def elements (path : String) : List String := if path = "" then [] else split path

variable {path entry : String} {entries : List String}

@[simp] theorem elements_empty : elements "" = [] := rfl

theorem elements_of_ne (h : path ≠ "") : elements path = split path := if_neg h

theorem split_ne_nil (text : String) : split text ≠ [] := by
  unfold split
  intro hnil
  exact List.splitOn_ne_nil _ _ (List.map_eq_nil_iff.1 hnil)

theorem elements_eq_nil_iff : elements path = [] ↔ path = "" := by
  by_cases hpath : path = ""
  · rw [hpath]
    exact iff_of_true rfl rfl
  · rw [elements_of_ne hpath]
    exact iff_of_false (split_ne_nil path) hpath

theorem split_of_not_mem (h : separator ∉ entry.toList) : split entry = [entry] := by
  unfold split
  rw [List.splitOn_eq_singleton h, List.map_singleton, String.ofList_toList]

/-- A separator between two texts keeps their elements apart. -/
theorem split_joined (path entry : String) :
    split (path ++ (separator.toString ++ entry)) = split path ++ split entry := by
  have htext : (path ++ (separator.toString ++ entry)).toList =
      path.toList ++ separator :: entry.toList := by
    simp
  unfold split
  rw [htext, List.splitOn_append_cons_self, List.map_append]

/-! ## Adding -/

theorem elements_add (path entry : String) :
    elements (add path entry) = elements path ++ elements entry := by
  unfold add
  by_cases hentry : entry = ""
  · rw [if_pos hentry, hentry, elements_empty, List.append_nil]
  rw [if_neg hentry]
  by_cases hpath : path = ""
  · rw [if_pos hpath, hpath, elements_empty, List.nil_append]
  · have hjoined : path ++ (separator.toString ++ entry) ≠ "" := by
      intro hempty
      exact hpath (String.append_eq_empty_iff.1 hempty).1
    rw [if_neg hpath, elements_of_ne hjoined, elements_of_ne hpath, elements_of_ne hentry,
      split_joined]

theorem append_append (path : String) (entries more : List String) :
    append path (entries ++ more) = append (append path entries) more := List.foldl_append

/-- Whatever is added, its elements go to the end. -/
theorem elements_append (path : String) (entries : List String) :
    elements (append path entries) = elements path ++ entries.flatMap elements := by
  induction entries generalizing path with
  | nil => exact (List.append_nil _).symm
  | cons entry entries ih =>
    show elements (append (add path entry) entries) = _
    rw [ih, elements_add, List.flatMap_cons, List.append_assoc]

/-- The elements of entries without a separator are the entries that are not empty. -/
theorem flatMap_elements (h : ∀ entry ∈ entries, separator ∉ entry.toList) :
    entries.flatMap elements = entries.filter (· ≠ "") := by
  induction entries with
  | nil => rfl
  | cons entry entries ih =>
    have hentry := h entry List.mem_cons_self
    have hentries := ih fun e he => h e (List.mem_cons_of_mem _ he)
    rw [List.flatMap_cons, hentries]
    by_cases hempty : entry = ""
    · simp [hempty]
    · rw [elements_of_ne hempty, split_of_not_mem hentry]
      simp [hempty]

theorem append_eq_empty_iff :
    append path entries = "" ↔ path = "" ∧ ∀ entry ∈ entries, entry = "" := by
  rw [← elements_eq_nil_iff, elements_append, List.append_eq_nil_iff, elements_eq_nil_iff,
    List.flatMap_eq_nil_iff]
  simp only [elements_eq_nil_iff]

/-- **Adding to a search path is adding to the list of its elements.** Entries that are added in two
parts are added as at once. If none of them has a separator in it, the elements are those that there
were and then the entries that are not empty, in order, and no empty element comes in. The search
path stays empty only if there is nothing to add. -/
theorem append_adds_elements (path : String) (entries more : List String) :
    append (append path entries) more = append path (entries ++ more) ∧
    ((∀ entry ∈ entries, separator ∉ entry.toList) →
      elements (append path entries) = elements path ++ entries.filter (· ≠ "") ∧
      (elements (append path entries)).count "" = (elements path).count "") ∧
    (append path entries = "" ↔ path = "" ∧ ∀ entry ∈ entries, entry = "") := by
  refine ⟨(append_append path entries more).symm, fun h => ?_, append_eq_empty_iff⟩
  have helements : elements (append path entries) = elements path ++ entries.filter (· ≠ "") := by
    rw [elements_append, flatMap_elements h]
  have hnone : (entries.filter (· ≠ "")).count "" = 0 := by
    rw [List.count_eq_zero]
    simp
  refine ⟨helements, ?_⟩
  rw [helements, List.count_append, hnone, Nat.add_zero]

/-- A search path that ends in a separator has an empty element. It keeps that one, and the empty
entries add none. -/
theorem append_adds_elements_after_separator :
    let entries := ["", "/b", "", "/c"]
    (∀ entry ∈ entries, separator ∉ entry.toList) ∧ append "/a:" entries = "/a::/b:/c" ∧
      elements (append "/a:" entries) = ["/a", "", "/b", "/c"] := by
  intro entries
  have hplain : ∀ entry ∈ entries, separator ∉ entry.toList := by decide +kernel
  have happended : append "/a:" entries = "/a::/b:/c" := by decide +kernel
  obtain ⟨-, helements, -⟩ := append_adds_elements "/a:" entries []
  refine ⟨hplain, happended, ?_⟩
  rw [(helements hplain).1]
  decide +kernel

end WorkflowRuns.PathList
