import WorkflowRuns.Text.Basic

/-!
# Lines put together

A text is a line, or a line that ends at a `'\n'` and another text (`lineInduction`). Its lines are
put together in the same way (`lines_append_newline`), so a text that is set into another one keeps
the lines that stand between its `'\n'` (`lines_append_newline_splitOn`), and a text whose last line
is ended keeps all of them (`lines_append`).
-/

namespace WorkflowRuns.Text

/-- What holds of every line, and of a text with one more line in front, holds of every text. -/
@[elab_as_elim]
theorem lineInduction {motive : List Char → Prop}
    (last : ∀ line, '\n' ∉ line → motive line)
    (cons : ∀ line rest, '\n' ∉ line → motive rest → motive (line ++ '\n' :: rest))
    (text : List Char) : motive text := by
  induction hlength : text.length using Nat.strongRecOn generalizing text with
  | ind n ih =>
    subst hlength
    by_cases h : '\n' ∈ text
    · obtain ⟨line, rest, rfl, hline⟩ := List.eq_append_cons_of_mem h
      refine cons line rest hline (ih rest.length ?_ rest rfl)
      rw [List.length_append, List.length_cons]
      omega
    · exact last text h

/-! ## What ends a line -/

/-- A line without the one `'\r'` that belongs to its ending. -/
def withoutReturn (line : List Char) : List Char :=
  if line.getLast? = some '\r' then line.dropLast else line

theorem withoutReturn_cons_cons (c d : Char) (cs : List Char) :
    withoutReturn (c :: d :: cs) = c :: withoutReturn (d :: cs) := by
  unfold withoutReturn
  rw [List.getLast?_cons_cons, List.dropLast_cons_cons]
  split <;> rfl

theorem withoutReturn_eq_self {line : List Char} (h : line.getLast? ≠ some '\r') :
    withoutReturn line = line := if_neg h

/-- What is left of a line are characters of it. -/
theorem withoutReturn_subset (line : List Char) : withoutReturn line ⊆ line := by
  unfold withoutReturn
  split
  · exact List.dropLast_subset line
  · exact List.Subset.refl line

/-! ## The lines of a text -/

/-- A line up to its `'\n'` is the first one of a text. -/
theorem lines_append_newline {line : List Char} (h : '\n' ∉ line) (rest : List Char) :
    lines (line ++ '\n' :: rest) = withoutReturn line :: lines rest := by
  induction line with
  | nil => rfl
  | cons c line ih =>
    obtain ⟨hc, hline⟩ := not_or.1 (mt List.mem_cons.2 h)
    have ih := ih hline
    rw [List.cons_append, lines, if_neg (Ne.symm hc)]
    cases line with
    | nil => by_cases hr : c = '\r' <;> simp [hr, withoutReturn, lines]
    | cons d line =>
      -- a `'\r'` here stands before another character of the line
      have hd : d ≠ '\n' := fun heq => hline (heq ▸ List.mem_cons_self)
      have hend : ¬ (c = '\r' ∧ (d :: line ++ '\n' :: rest).head? = some '\n') := by simp [hd]
      rw [if_neg hend, ih, withoutReturn_cons_cons]

/-- A text without a `'\n'` is a line, unless there is nothing of it. -/
theorem lines_eq_of_oneLine {line : List Char} (h : '\n' ∉ line) :
    lines line = if line = [] then [] else [line] := by
  induction line with
  | nil => rfl
  | cons c line ih =>
    obtain ⟨hc, hline⟩ := not_or.1 (mt List.mem_cons.2 h)
    have hend : ¬ (c = '\r' ∧ line.head? = some '\n') := fun ⟨_, hhead⟩ =>
      hline (List.mem_of_head? hhead)
    rw [lines, if_neg (Ne.symm hc), if_neg hend, ih hline, if_neg (List.cons_ne_nil c line)]
    by_cases hnil : line = []
    · rw [if_pos hnil, hnil]
    · rw [if_neg hnil]

/-- The last line of a text is ended, if there is one. -/
def Ended (text : List Char) : Prop := text = [] ∨ text.getLast? = some '\n'

theorem Ended.append {text rest : List Char} (h : Ended text) (hrest : Ended rest) :
    Ended (text ++ rest) := by
  rcases hrest with rfl | hrest
  · rwa [List.append_nil]
  · right
    rw [List.getLast?_append, hrest, Option.some_or]

/-- What follows the lines of a text gives lines of its own. -/
theorem lines_append {text : List Char} (h : Ended text) (rest : List Char) :
    lines (text ++ rest) = lines text ++ lines rest := by
  induction text using lineInduction with
  | last line hline =>
    rcases h with rfl | h
    · rfl
    · exact absurd (List.mem_of_getLast? h) hline
  | cons line text hline ih =>
    have htext : Ended text := by
      rcases h with h | h
      · simp at h
      · rw [List.getLast?_append, List.getLast?_cons, Option.some_or] at h
        cases hlast : text.getLast? with
        | none => exact Or.inl (List.getLast?_eq_none_iff.1 hlast)
        | some c =>
          rw [hlast] at h
          exact Or.inr (hlast.trans h)
    rw [List.append_assoc, List.cons_append, lines_append_newline hline,
      lines_append_newline hline, ih htext, List.cons_append]

theorem splitOn_append_newline {line : List Char} (h : '\n' ∉ line) (rest : List Char) :
    (line ++ '\n' :: rest).splitOn '\n' = line :: rest.splitOn '\n' := by
  rw [List.splitOn_append_cons_self, List.splitOn_eq_singleton h]
  rfl

/-- A text up to a `'\n'` has the lines that stand between the `'\n'` in it. -/
theorem lines_append_newline_splitOn (text rest : List Char) :
    lines (text ++ '\n' :: rest) = (text.splitOn '\n').map withoutReturn ++ lines rest := by
  induction text using lineInduction with
  | last line h =>
    rw [lines_append_newline h, List.splitOn_eq_singleton h]
    rfl
  | cons line text h ih =>
    rw [List.append_assoc, List.cons_append, lines_append_newline h, ih,
      splitOn_append_newline h]
    rfl

/-- A line is on one line, and its characters are those of the text. -/
theorem of_mem_lines {line text : List Char} (h : line ∈ lines text) :
    '\n' ∉ line ∧ line ⊆ text := by
  induction text generalizing line with
  | nil => cases h
  | cons c text ih =>
    have hrest {line : List Char} (h : line ∈ lines text) : '\n' ∉ line ∧ line ⊆ c :: text :=
      ⟨(ih h).1, List.subset_cons_of_subset c (ih h).2⟩
    unfold lines at h
    split at h
    · rcases List.mem_cons.1 h with rfl | h
      · exact ⟨List.not_mem_nil, List.nil_subset _⟩
      · exact hrest h
    rename_i hc
    have hne : '\n' ≠ c := fun heq => hc heq.symm
    split at h
    · exact hrest h
    split at h
    · obtain rfl := List.mem_singleton.1 h
      exact ⟨by simpa using hne, by simp⟩
    · rename_i first others hlines
      rw [hlines] at hrest
      rcases List.mem_cons.1 h with rfl | h
      · -- `c` goes to the front of the line that follows it
        obtain ⟨hline, hsub⟩ := hrest List.mem_cons_self
        exact ⟨by simp [hne, hline], List.cons_subset.2 ⟨List.mem_cons_self, hsub⟩⟩
      · exact hrest (List.mem_cons_of_mem _ h)

/-- Each part of a text ends at a `'\n'` or where the text ends. -/
theorem eq_append_of_mem_splitOn {part text : List Char} (h : part ∈ text.splitOn '\n') :
    ∃ before after, text = before ++ part ++ after ∧
      (after = [] ∨ ∃ rest, after = '\n' :: rest) := by
  induction text using lineInduction with
  | last line hline =>
    rw [List.splitOn_eq_singleton hline, List.mem_singleton] at h
    exact ⟨[], [], by simp [h], Or.inl rfl⟩
  | cons line text hline ih =>
    rw [splitOn_append_newline hline, List.mem_cons] at h
    rcases h with rfl | h
    · exact ⟨[], '\n' :: text, rfl, Or.inr ⟨text, rfl⟩⟩
    · obtain ⟨before, after, rfl, hafter⟩ := ih h
      exact ⟨line ++ '\n' :: before, after, by simp, hafter⟩

/-- A text with no `'\r'` before a `'\n'` and none at its end has no part that ends in one. -/
theorem getLast?_ne_of_mem_splitOn {part text : List Char} (hbreak : ¬ ['\r', '\n'] <:+: text)
    (hend : text.getLast? ≠ some '\r') (h : part ∈ text.splitOn '\n') :
    part.getLast? ≠ some '\r' := by
  intro hlast
  obtain ⟨front, rfl⟩ := List.getLast?_eq_some_iff.1 hlast
  obtain ⟨before, after, rfl, rfl | ⟨rest, rfl⟩⟩ := eq_append_of_mem_splitOn h
  · exact hend (by simp)
  · exact hbreak ⟨before ++ front, rest, by simp⟩

end WorkflowRuns.Text
