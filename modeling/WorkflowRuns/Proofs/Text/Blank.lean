import Mathlib.Data.List.DropRight
import WorkflowRuns.Text.Basic

/-!
# White space at the ends of a text

Cutting the white space off leaves a text with none at its ends (`trimmed_trim`), and such a text is
left as it is (`trim_eq_self`), whatever white space is put around it (`trim_append_left`,
`trim_append_right`).
-/

namespace WorkflowRuns.Text

/-- A text with no white space at its ends. -/
structure Trimmed (cs : List Char) : Prop where
  front : ∀ c, cs.head? = some c → isBlank c = false
  back : ∀ c, cs.getLast? = some c → isBlank c = false

variable {cs pad : List Char}

theorem isBlank_of_isDigit {c : Char} (h : c.isDigit = true) : isBlank c = false := by
  obtain ⟨hlow, hhigh⟩ : 48 ≤ c.toNat ∧ c.toNat ≤ 57 := Char.isDigit_iff_toNat.1 h
  simp only [isBlank, blankRanges, List.any_cons, List.any_nil, Bool.or_false,
    Bool.or_eq_false_iff, Bool.and_eq_false_iff, decide_eq_false_iff_not]
  omega

theorem trimRight_eq_rdropWhile (cs : List Char) : trimRight cs = cs.rdropWhile isBlank := rfl

theorem trimLeft_append (h : ∀ c ∈ pad, isBlank c = true) (cs : List Char) :
    trimLeft (pad ++ cs) = trimLeft cs := List.dropWhile_append_of_pos h

theorem trimRight_append (h : ∀ c ∈ pad, isBlank c = true) (cs : List Char) :
    trimRight (cs ++ pad) = trimRight cs := by
  unfold trimRight
  rw [List.reverse_append, List.dropWhile_append_of_pos]
  exact fun c hc => h c (List.mem_reverse.1 hc)

theorem trimLeft_eq_nil_iff : trimLeft cs = [] ↔ ∀ c ∈ cs, isBlank c = true :=
  List.dropWhile_eq_nil_iff

/-- What is left of a text are characters of it. -/
theorem trim_subset (cs : List Char) : trim cs ⊆ cs :=
  List.Subset.trans (List.rdropWhile_prefix isBlank _).subset (List.dropWhile_sublist _).subset

theorem trim_append_left (h : ∀ c ∈ pad, isBlank c = true) (cs : List Char) :
    trim (pad ++ cs) = trim cs := congrArg trimRight (trimLeft_append h cs)

theorem trim_append_right (h : ∀ c ∈ pad, isBlank c = true) (cs : List Char) :
    trim (cs ++ pad) = trim cs := by
  by_cases hcs : ∀ c ∈ cs, isBlank c = true
  · -- then nothing is left of either text
    have hall : ∀ c ∈ cs ++ pad, isBlank c = true := by
      intro c hc
      rcases List.mem_append.1 hc with hc | hc
      · exact hcs c hc
      · exact h c hc
    unfold trim
    rw [trimLeft_eq_nil_iff.2 hcs, trimLeft_eq_nil_iff.2 hall]
  · have hne : ¬ (cs.dropWhile isBlank).isEmpty = true := by
      rw [List.isEmpty_iff]
      exact fun hnil => hcs (trimLeft_eq_nil_iff.1 hnil)
    unfold trim
    rw [trimLeft, List.dropWhile_append, if_neg hne]
    exact trimRight_append h _

/-- A text of white space is cut to nothing. -/
theorem trim_eq_nil (h : ∀ c ∈ pad, isBlank c = true) : trim pad = [] := by
  have hpad := trim_append_left h []
  rwa [List.append_nil] at hpad

theorem trim_eq_self (h : Trimmed cs) : trim cs = cs := by
  have hleft : trimLeft cs = cs := by
    cases cs with
    | nil => rfl
    | cons c cs => rw [trimLeft, List.dropWhile_cons, h.front c rfl, if_neg Bool.false_ne_true]
  rw [trim, hleft, trimRight_eq_rdropWhile, List.rdropWhile_eq_self_iff]
  intro hne hblank
  rw [h.back _ (List.getLast?_eq_some_getLast hne)] at hblank
  cases hblank

theorem trimmed_trim (cs : List Char) : Trimmed (trim cs) where
  front := by
    intro c hc
    obtain ⟨rest, hrest⟩ := List.rdropWhile_prefix isBlank (trimLeft cs)
    have hhead : (cs.dropWhile isBlank).head? = some c := by
      change (trimLeft cs).head? = some c
      rw [← hrest, List.head?_append]
      exact Option.or_eq_some_iff.2 (Or.inl hc)
    have hnot := List.head?_dropWhile_not isBlank cs
    rwa [hhead] at hnot
  back := by
    intro c hc
    have hne : trim cs ≠ [] := by
      intro hnil
      rw [hnil] at hc
      cases hc
    have hlast : (trim cs).getLast hne = c := by
      rw [List.getLast?_eq_some_getLast hne] at hc
      exact Option.some.inj hc
    have hnot := List.rdropWhile_last_not isBlank (trimLeft cs) hne
    rw [← hlast]
    exact Bool.eq_false_iff.2 hnot

theorem trimmed_iff : Trimmed cs ↔ trim cs = cs :=
  ⟨trim_eq_self, fun h => h ▸ trimmed_trim cs⟩

end WorkflowRuns.Text
