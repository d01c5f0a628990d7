import WorkflowRuns.EnvironmentFile.Entry

/-!
# The grammar of an environment file

The lines of a file are the lines of a sequence of items: blank lines, assignments and blocks
(`Derives`). What one line is, is said here by where its marks stand, and `Line.of` decides it
(`Line.of_eq_iff`). Lines are derived from at most one sequence of items (`Derives.unique`).
-/

namespace WorkflowRuns.EnvironmentFile

/-! ## Lines -/

/-- How a mark is written. -/
def Mark.text : Mark → List Char
  | equals => ['=']
  | heredoc => ['<', '<']

/-- The mark that a mark competes with. -/
def Mark.other : Mark → Mark
  | equals => heredoc
  | heredoc => equals

theorem Mark.other_other (m : Mark) : m.other.other = m := by
  cases m <;> rfl

theorem Mark.eq_or_eq_other (m m' : Mark) : m = m' ∨ m' = m.other := by
  cases m <;> cases m' <;> simp [other]

/-- A line is cut at a mark: no place of this mark comes before, and every place of the other one
comes after. -/
structure Cut (m : Mark) (name rest line : List Char) : Prop where
  eq : line = name ++ m.text ++ rest
  first : ∀ before after, line = before ++ m.text ++ after → name.length ≤ before.length
  ahead : ∀ before after, line = before ++ m.other.text ++ after → name.length < before.length

/-- A line holds only white space. -/
def Blank (line : List Char) : Prop := ∀ c ∈ line, Text.isBlank c = true

/-- A line is the assignment of a value to a name. -/
def Assigns (name value line : List Char) : Prop := Cut .equals name value line ∧ name ≠ []

/-- A line opens the block of a name, which a delimiter ends. -/
def Opens (name delimiter line : List Char) : Prop :=
  Cut .heredoc name delimiter line ∧ name ≠ [] ∧ delimiter ≠ []

/-- No item begins with the line. -/
structure NoItem (line : List Char) : Prop where
  notBlank : ¬ Blank line
  noAssignment : ∀ name value, ¬ Assigns name value line
  noOpener : ∀ name delimiter, ¬ Opens name delimiter line

variable {m m' : Mark} {name name' rest rest' line : List Char}

/-- A line is cut in one way at most. -/
theorem Cut.unique (h : Cut m name rest line) (h' : Cut m' name' rest' line) :
    m = m' ∧ name = name' ∧ rest = rest' := by
  obtain rfl : m = m' := by
    rcases m.eq_or_eq_other m' with rfl | rfl
    · rfl
    · -- each of the two marks would come before the other
      have hlt := h.ahead name' rest' h'.eq
      have hgt := h'.ahead name rest (m.other_other.symm ▸ h.eq)
      omega
  have hle := h.first name' rest' h'.eq
  have hge := h'.first name rest h.eq
  have heq : name ++ (m.text ++ rest) = name' ++ (m.text ++ rest') := by
    rw [← List.append_assoc, ← List.append_assoc, ← h.eq, ← h'.eq]
  obtain ⟨hname, hrest⟩ := List.append_inj heq (by omega)
  exact ⟨rfl, hname, List.append_cancel_left hrest⟩

/-- A mark at the front of a line is where the line is cut. -/
theorem Cut.front (hother : ∀ after, m.text ++ rest ≠ m.other.text ++ after) :
    Cut m [] rest (m.text ++ rest) where
  eq := rfl
  first _ _ _ := Nat.zero_le _
  ahead before after h := by
    cases before with
    | nil => exact absurd h (hother after)
    | cons c before => exact Nat.succ_pos _

/-- A line with no mark at its front is cut where the line after its first character is. -/
theorem Cut.cons {c : Char} (hfront : ∀ (m : Mark) after, c :: line ≠ m.text ++ after)
    (h : Cut m name rest line) : Cut m (c :: name) rest (c :: line) where
  eq := congrArg (c :: ·) h.eq
  first before after heq := by
    cases before with
    | nil => exact absurd heq (hfront m after)
    | cons _ before => exact Nat.succ_le_succ (h.first before after (List.cons.inj heq).2)
  ahead before after heq := by
    cases before with
    | nil => exact absurd heq (hfront m.other after)
    | cons _ before => exact Nat.succ_lt_succ (h.ahead before after (List.cons.inj heq).2)

/-- No mark stands at the front of a line that does not begin with one. -/
theorem ne_mark_append {c : Char} {cs : List Char} (hequals : c = '=' → False)
    (hheredoc : ∀ rest, c = '<' → cs = '<' :: rest → False) (m : Mark) (after : List Char) :
    c :: cs ≠ m.text ++ after := by
  intro h
  cases m with
  | equals => exact hequals (List.cons.inj h).1
  | heredoc => exact hheredoc after (List.cons.inj h).1 (List.cons.inj h).2

theorem cut_of_cut? (h : cut? line = some (name, m, rest)) : Cut m name rest line := by
  fun_induction cut? line generalizing name with
  | case1 => cases h
  | case2 tail =>
    obtain ⟨rfl, rfl, rfl⟩ := h
    exact Cut.front (m := .equals) (by simp [Mark.text, Mark.other])
  | case3 tail =>
    obtain ⟨rfl, rfl, rfl⟩ := h
    exact Cut.front (m := .heredoc) (by simp [Mark.text, Mark.other])
  | case4 c tail hequals hheredoc ih =>
    obtain ⟨⟨before, mark, after⟩, hcut, heq⟩ := Option.map_eq_some_iff.1 h
    obtain ⟨rfl, rfl, rfl⟩ := heq
    exact (ih hcut).cons (ne_mark_append hequals hheredoc)

/-- A line without a cut has no mark in it. -/
theorem ne_of_cut?_eq_none (h : cut? line = none) (m : Mark) (before after : List Char) :
    line ≠ before ++ m.text ++ after := by
  fun_induction cut? line generalizing before with
  | case1 => cases m <;> simp [Mark.text]
  | case2 | case3 => cases h
  | case4 c tail hequals hheredoc ih =>
    have htail := ih (Option.map_eq_none_iff.1 h)
    intro heq
    cases before with
    | nil => exact ne_mark_append hequals hheredoc m after heq
    | cons _ before => exact htail before (List.cons.inj heq).2

theorem allBlank_iff : Text.allBlank line = true ↔ Blank line := List.all_eq_true

/-- No mark is white space. -/
theorem Cut.not_blank (h : Cut m name rest line) : ¬ Blank line := by
  intro hblank
  have hmark : ∃ c ∈ m.text, Text.isBlank c = false := by
    cases m with
    | equals => exact ⟨'=', List.mem_singleton.2 rfl, rfl⟩
    | heredoc => exact ⟨'<', List.mem_cons_self, rfl⟩
  obtain ⟨c, hc, hfalse⟩ := hmark
  have hmem : c ∈ line := by
    rw [h.eq]
    simp [hc]
  rw [hblank c hmem] at hfalse
  cases hfalse

/-- What it takes for a line to be of a kind. -/
def Line.Is : Line → List Char → Prop
  | blank => Blank
  | assignment name value => Assigns name value
  | opener name delimiter => Opens name delimiter
  | other => NoItem

theorem Line.is_of (line : List Char) : (Line.of line).Is line := by
  unfold Line.of
  cases hblank : Text.allBlank line with
  | true => exact allBlank_iff.1 hblank
  | false =>
    have hnotBlank : ¬ Blank line := fun h => by simp [allBlank_iff.2 h] at hblank
    cases hcut : cut? line with
    | none =>
      exact ⟨hnotBlank, fun _ _ h => ne_of_cut?_eq_none hcut _ _ _ h.1.eq,
        fun _ _ h => ne_of_cut?_eq_none hcut _ _ _ h.1.eq⟩
    | some parts =>
      obtain ⟨name, m, rest⟩ := parts
      have hcut := cut_of_cut? hcut
      cases m with
      | equals =>
        by_cases hname : name = []
        · simp only [hname, if_true]
          refine ⟨hnotBlank, fun _ _ h => h.2 ?_, fun _ _ h => ?_⟩
          · rw [← hname, (hcut.unique h.1).2.1]
          · cases (hcut.unique h.1).1
        · simp only [hname, if_false]
          exact ⟨hcut, hname⟩
      | heredoc =>
        by_cases hempty : name = [] ∨ rest = []
        · simp only [hempty, if_true]
          refine ⟨hnotBlank, fun _ _ h => ?_, fun _ _ h => ?_⟩
          · cases (hcut.unique h.1).1
          · obtain ⟨-, rfl, rfl⟩ := hcut.unique h.1
            exact hempty.elim h.2.1 h.2.2
        · simp only [hempty, if_false]
          exact ⟨hcut, not_or.1 hempty⟩

/-- A line is of one kind only. -/
theorem Line.Is.unique {kind kind' : Line} (h : kind.Is line) (h' : kind'.Is line) :
    kind = kind' := by
  cases kind with
  | blank =>
    cases kind' with
    | blank => rfl
    | assignment | opener => exact absurd h h'.1.not_blank
    | other => exact absurd h h'.notBlank
  | assignment name value =>
    cases kind' with
    | blank => exact absurd h' h.1.not_blank
    | assignment =>
      obtain ⟨-, rfl, rfl⟩ := h.1.unique h'.1
      rfl
    | opener => cases (h.1.unique h'.1).1
    | other => exact absurd h (h'.noAssignment name value)
  | opener name delimiter =>
    cases kind' with
    | blank => exact absurd h' h.1.not_blank
    | assignment => cases (h.1.unique h'.1).1
    | opener =>
      obtain ⟨-, rfl, rfl⟩ := h.1.unique h'.1
      rfl
    | other => exact absurd h (h'.noOpener name delimiter)
  | other =>
    cases kind' with
    | blank => exact absurd h' h.notBlank
    | assignment name value => exact absurd h' (h.noAssignment name value)
    | opener name delimiter => exact absurd h' (h.noOpener name delimiter)
    | other => rfl

theorem Line.of_eq_iff {kind : Line} : Line.of line = kind ↔ kind.Is line :=
  ⟨fun h => h ▸ is_of line, (is_of line).unique⟩

/-! ## Items -/

/-- An item of a file. -/
inductive Item where
  | blank (line : List Char)
  | assignment (line name value : List Char)
  | block (opener name delimiter : List Char) (body : List (List Char))

namespace Item

/-- The lines of an item. A block ends with its delimiter. -/
def lines : Item → List (List Char)
  | blank line => [line]
  | assignment line _ _ => [line]
  | block opener _ delimiter body => opener :: (body ++ [delimiter])

/-- The lines of an item are what they are said to be. -/
def WellFormed : Item → Prop
  | blank line => Blank line
  | assignment line name value => Assigns name value line
  | block opener name delimiter body => Opens name delimiter opener ∧ delimiter ∉ body

/-- The entry of an item, if it has one. The value of a block is its lines with a line break between
each two. -/
def entry? : Item → Option Entry
  | blank _ => none
  | assignment _ name value => some ⟨String.ofList name, String.ofList value⟩
  | block _ name _ body => some ⟨String.ofList name, String.ofList (['\n'].intercalate body)⟩

end Item

/-- Lines are those of well-formed items, one after the other. -/
structure Derives (items : List Item) (lines : List (List Char)) : Prop where
  wellFormed : ∀ item ∈ items, item.WellFormed
  lines_eq : lines = items.flatMap Item.lines

/-- The entries of items, in order. -/
def entriesIn (items : List Item) : List Entry := items.filterMap Item.entry?

theorem entriesIn_cons (item : Item) (items : List Item) :
    entriesIn (item :: items) = item.entry?.toList ++ entriesIn items := by
  unfold entriesIn
  cases h : item.entry? <;> simp [h]

theorem derives_nil : Derives [] [] := ⟨by simp, rfl⟩

theorem Derives.cons {item : Item} {items : List Item} {lines : List (List Char)}
    (hitem : item.WellFormed) (h : Derives items lines) :
    Derives (item :: items) (item.lines ++ lines) where
  wellFormed := by
    intro item' hmem
    rcases List.mem_cons.1 hmem with rfl | hmem
    · exact hitem
    · exact h.wellFormed item' hmem
  lines_eq := by rw [h.lines_eq, List.flatMap_cons]

theorem splitBody?_append {delimiter : List Char} {body : List (List Char)}
    (h : delimiter ∉ body) (rest : List (List Char)) :
    splitBody? delimiter (body ++ delimiter :: rest) = some (body, rest) := by
  induction body with
  | nil => simp [splitBody?]
  | cons line body ih =>
    simp only [List.mem_cons, not_or] at h
    simp [splitBody?, Ne.symm h.1, ih h.2]

namespace Item

/-- The first line of an item. -/
def head : Item → List Char
  | blank line => line
  | assignment line _ _ => line
  | block opener _ _ _ => opener

/-- The lines of an item after the first. -/
def tail : Item → List (List Char)
  | block _ _ delimiter body => body ++ [delimiter]
  | _ => []

/-- What the first line of an item is. -/
def kind : Item → Line
  | blank _ => .blank
  | assignment _ name value => .assignment name value
  | block _ name delimiter _ => .opener name delimiter

theorem lines_eq_cons (item : Item) : item.lines = item.head :: item.tail := by
  cases item <;> rfl

theorem WellFormed.is_kind {item : Item} (h : item.WellFormed) : item.kind.Is item.head := by
  cases item with
  | blank | assignment => exact h
  | block => exact h.1

/-- Lines begin with one well-formed item at most. -/
theorem WellFormed.unique {item item' : Item} {after after' : List (List Char)}
    (h : item.WellFormed) (h' : item'.WellFormed)
    (heq : item.lines ++ after = item'.lines ++ after') : item = item' ∧ after = after' := by
  rw [lines_eq_cons, lines_eq_cons] at heq
  obtain ⟨hhead, htail⟩ := List.cons.inj heq
  have hkind : item.kind = item'.kind := h.is_kind.unique (hhead ▸ h'.is_kind)
  cases item with
  | blank =>
    cases item' with
    | blank =>
      cases hhead
      exact ⟨rfl, htail⟩
    | assignment | block => cases hkind
  | assignment =>
    cases item' with
    | assignment =>
      cases hhead
      cases hkind
      exact ⟨rfl, htail⟩
    | blank | block => cases hkind
  | block opener name delimiter body =>
    cases item' with
    | blank | assignment => cases hkind
    | block opener' name' delimiter' body' =>
      cases hhead
      cases hkind
      -- the body reaches up to the first line that is the delimiter
      have hsplit := splitBody?_append h.2 after
      have hsplit' := splitBody?_append h'.2 after'
      have hlines : body ++ delimiter :: after = body' ++ delimiter :: after' := by
        simpa [tail] using htail
      rw [hlines, hsplit'] at hsplit
      cases hsplit
      exact ⟨rfl, rfl⟩

end Item

theorem Derives.eq_nil {items : List Item} (h : Derives items []) : items = [] := by
  cases items with
  | nil => rfl
  | cons item items =>
    have heq := h.lines_eq
    rw [List.flatMap_cons, item.lines_eq_cons] at heq
    cases heq

/-- Lines are derived in one way at most. -/
theorem Derives.unique {items items' : List Item} {lines : List (List Char)}
    (h : Derives items lines) (h' : Derives items' lines) : items = items' := by
  induction items generalizing items' lines with
  | nil =>
    obtain rfl : lines = [] := h.lines_eq
    exact h'.eq_nil.symm
  | cons item items ih =>
    cases items' with
    | nil =>
      obtain rfl : lines = [] := h'.lines_eq
      exact h.eq_nil
    | cons item' items' =>
      obtain ⟨hitem, hitems⟩ := List.forall_mem_cons.1 h.wellFormed
      obtain ⟨hitem', hitems'⟩ := List.forall_mem_cons.1 h'.wellFormed
      have heq := h.lines_eq.symm.trans h'.lines_eq
      rw [List.flatMap_cons, List.flatMap_cons] at heq
      obtain ⟨rfl, hrest⟩ := hitem.unique hitem' heq
      rw [ih ⟨hitems, rfl⟩ ⟨hitems', hrest⟩]

end WorkflowRuns.EnvironmentFile
