import Mathlib.Data.List.Infix
import WorkflowRuns.Proofs.EnvironmentFile.Reading
import WorkflowRuns.Proofs.Text.Blank
import WorkflowRuns.Proofs.Text.Lines

/-!
# Names and values of entries

A name ends at the first mark of its line, whichever of the two that is, so neither of them stands
in it (`Cut.not_infix_name`). Names and values consist of characters of the file, apart from the
line breaks that join the lines of a value (`wellNamed_of_mem_entries`).
-/

namespace WorkflowRuns.EnvironmentFile

/-- A name that is not empty, stands on one line and holds no mark. -/
structure Entry.WellNamed (e : Entry) : Prop where
  nonempty : e.name ≠ ""
  oneLine : '\n' ∉ e.name.toList
  noEquals : '=' ∉ e.name.toList
  noHeredoc : ¬ ['<', '<'] <:+: e.name.toList

/-- An entry says what a text says. The lines of a value are joined anew. -/
structure Entry.From (e : Entry) (text : List Char) : Prop where
  name : e.name.toList ⊆ text
  value : e.value.toList ⊆ '\n' :: text

variable {m : Mark} {name rest line text : List Char}

theorem Mark.length_text_pos (m : Mark) : 0 < m.text.length := by
  cases m <;> exact Nat.succ_pos _

/-- No mark stands in the name of a line that is cut. -/
theorem Cut.not_infix_name (h : Cut m name rest line) (m' : Mark) : ¬ m'.text <:+: name := by
  rintro ⟨before, after, rfl⟩
  have hline : line = before ++ m'.text ++ (after ++ m.text ++ rest) := by
    rw [h.eq]
    simp only [List.append_assoc]
  have hpos := m'.length_text_pos
  rcases m.eq_or_eq_other m' with rfl | rfl
  · have hfirst := h.first before _ hline
    simp only [List.length_append] at hfirst
    omega
  · have hahead := h.ahead before _ hline
    simp only [List.length_append] at hahead
    omega

theorem Cut.name_subset (h : Cut m name rest line) : name ⊆ line := by
  rw [h.eq, List.append_assoc]
  exact List.subset_append_left ..

theorem Cut.rest_subset (h : Cut m name rest line) : rest ⊆ line := by
  rw [h.eq]
  exact List.subset_append_right ..

theorem Cut.wellNamed (h : Cut m name rest line) (hname : name ≠ []) (hline : '\n' ∉ line)
    (value : String) : Entry.WellNamed ⟨String.ofList name, value⟩ where
  nonempty := by simpa [String.ofList_eq_empty_iff] using hname
  oneLine := by
    rw [String.toList_ofList]
    exact fun hmem => hline (h.name_subset hmem)
  noEquals := by
    rw [String.toList_ofList, ← List.singleton_infix_iff]
    exact h.not_infix_name .equals
  noHeredoc := by
    rw [String.toList_ofList]
    exact h.not_infix_name .heredoc

/-- The characters of joined lines are those of the lines. -/
theorem joinLines_subset {body : List (List Char)} (h : ∀ line ∈ body, line ⊆ text) :
    joinLines body ⊆ '\n' :: text := by
  induction body with
  | nil => exact List.nil_subset _
  | cons line body ih =>
    obtain ⟨hline, hbody⟩ := List.forall_mem_cons.1 h
    have hline := List.subset_cons_of_subset '\n' hline
    cases body with
    | nil => simpa [joinLines] using hline
    | cons next body =>
      have hjoin : joinLines (line :: next :: body) = line ++ '\n' :: joinLines (next :: body) := by
        simp [joinLines, List.intercalate]
      rw [hjoin]
      exact List.append_subset.2 ⟨hline, List.cons_subset.2 ⟨List.mem_cons_self, ih hbody⟩⟩

/-- What a well-formed item says stands in its lines. -/
theorem Item.WellFormed.entry {item : Item} {e : Entry} (h : item.WellFormed)
    (hlines : ∀ line ∈ item.lines, '\n' ∉ line ∧ line ⊆ text) (he : item.entry? = some e) :
    e.WellNamed ∧ e.From text := by
  cases item with
  | blank => cases he
  | assignment line name value =>
    obtain ⟨hcut, hname⟩ : Assigns name value line := h
    obtain ⟨hone, hsub⟩ := hlines line List.mem_cons_self
    cases he
    refine ⟨hcut.wellNamed hname hone _, ?_, ?_⟩
    · rw [String.toList_ofList]
      exact List.Subset.trans hcut.name_subset hsub
    · rw [String.toList_ofList]
      exact List.subset_cons_of_subset _ (List.Subset.trans hcut.rest_subset hsub)
  | block opener name delimiter body =>
    obtain ⟨hcut, hname, -⟩ : Opens name delimiter opener := h.1
    obtain ⟨hone, hsub⟩ := hlines opener List.mem_cons_self
    cases he
    refine ⟨hcut.wellNamed hname hone _, ?_, ?_⟩
    · rw [String.toList_ofList]
      exact List.Subset.trans hcut.name_subset hsub
    · rw [String.toList_ofList]
      refine joinLines_subset fun line hline => (hlines line ?_).2
      simp [Item.lines, hline]

/-- Every entry of a file has the name of a mark, and says what the file says. -/
theorem wellNamed_of_mem_entries {content : String} {es : List Entry}
    (h : entries content = .ok es) {e : Entry} (he : e ∈ es) :
    e.WellNamed ∧ e.From content.toList := by
  cases readLines_eq_iff.1 h with
  | @entries items hderives =>
    obtain ⟨item, hitem, hentry⟩ := List.mem_filterMap.1 he
    refine (hderives.wellFormed item hitem).entry (fun line hline => ?_) hentry
    refine Text.of_mem_lines ?_
    rw [hderives.lines_eq]
    exact List.mem_flatMap.2 ⟨item, hitem, hline⟩

/-- The lines that are kept of a file say what it says. -/
theorem subset_of_mem_plainLines {content line : String} (h : line ∈ plainLines content) :
    line ≠ "" ∧ line.toList ⊆ content.toList := by
  obtain ⟨whole, hwhole, hne, rfl⟩ := mem_plainLines_iff.1 h
  refine ⟨mt String.ofList_eq_empty_iff.1 hne, ?_⟩
  rw [String.toList_ofList]
  exact List.Subset.trans (Text.trim_subset whole) (Text.of_mem_lines hwhole).2

end WorkflowRuns.EnvironmentFile
