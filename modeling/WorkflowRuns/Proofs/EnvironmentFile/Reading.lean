import WorkflowRuns.Proofs.EnvironmentFile.Grammar

/-!
# Reading an environment file

Reading takes well-formed items off the front of the lines, one after the other
(`readLines_of_derives`), up to the end of the file or to a place where no item begins or a block is
not ended. So its result is the verdict of the grammar on the lines (`readLines_eq_iff`), which
`entries_by_grammar` spells out.
-/

namespace WorkflowRuns.EnvironmentFile

variable {name value delimiter line : List Char} {before after body : List (List Char)}
  {number : Nat}

/-! ## The first line -/

theorem splitBody?_eq_none_iff {lines : List (List Char)} :
    splitBody? delimiter lines = none ↔ delimiter ∉ lines := by
  induction lines with
  | nil => simp [splitBody?]
  | cons line lines ih =>
    by_cases h : line = delimiter
    · simp [splitBody?, h]
    · simp [splitBody?, h, ih, Ne.symm h]

theorem readLines_blank (h : Blank line) :
    readLines number (line :: after) = readLines (number + 1) after := by
  have hline : Line.of line = .blank := Line.of_eq_iff.2 h
  rw [readLines, hline]

theorem readLines_assignment (h : Assigns name value line) :
    readLines number (line :: after) =
      (readLines (number + 1) after).map (⟨String.ofList name, String.ofList value⟩ :: ·) := by
  have hline : Line.of line = .assignment name value := Line.of_eq_iff.2 h
  rw [readLines, hline]

theorem readLines_block (h : Opens name delimiter line) (hbody : delimiter ∉ body) :
    readLines number (line :: (body ++ delimiter :: after)) =
      (readLines (number + body.length + 2) after).map
        (⟨String.ofList name, String.ofList (['\n'].intercalate body)⟩ :: ·) := by
  have hline : Line.of line = .opener name delimiter := Line.of_eq_iff.2 h
  rw [readLines, hline]
  dsimp only
  split
  · next hsplit =>
    rw [splitBody?_append hbody] at hsplit
    cases hsplit
  · next hsplit =>
    rw [splitBody?_append hbody] at hsplit
    cases hsplit
    rw [joinLines_eq]

theorem readLines_unterminated (h : Opens name delimiter line) (hafter : delimiter ∉ after) :
    readLines number (line :: after) =
      .error (.unterminated (String.ofList name) (String.ofList delimiter)) := by
  have hline : Line.of line = .opener name delimiter := Line.of_eq_iff.2 h
  rw [readLines, hline]
  dsimp only
  split
  · rfl
  · next hsplit =>
    rw [splitBody?_eq_none_iff.2 hafter] at hsplit
    cases hsplit

theorem readLines_invalid (h : NoItem line) :
    readLines number (line :: after) = .error (.invalidLine number (String.ofList line)) := by
  have hline : Line.of line = .other := Line.of_eq_iff.2 h
  rw [readLines, hline]

/-! ## Well-formed items at the front -/

/-- A well-formed item is read as its entry, and what follows with the numbers that come after it. -/
theorem readLines_item {item : Item} (h : item.WellFormed) :
    readLines number (item.lines ++ after) =
      (readLines (number + item.lines.length) after).map (item.entry?.toList ++ ·) := by
  cases item with
  | blank line => exact (readLines_blank h).trans (congrFun Except.map_id _).symm
  | assignment line name value => exact readLines_assignment h
  | block opener name delimiter body =>
    have hlines : (Item.block opener name delimiter body).lines ++ after =
        opener :: (body ++ delimiter :: after) := by simp [Item.lines]
    have hlength : number + (Item.block opener name delimiter body).lines.length =
        number + body.length + 2 := by
      simp [Item.lines]
      omega
    rw [hlines, hlength]
    exact readLines_block h.1 h.2

/-- What is read after well-formed items comes after their entries. -/
theorem readLines_of_derives {items : List Item} (h : Derives items before) (number : Nat)
    (after : List (List Char)) :
    readLines number (before ++ after) =
      (readLines (number + before.length) after).map (entriesIn items ++ ·) := by
  induction items generalizing before number with
  | nil =>
    obtain rfl : before = [] := h.lines_eq
    exact (congrFun Except.map_id _).symm
  | cons item items ih =>
    obtain ⟨hitem, hitems⟩ := List.forall_mem_cons.1 h.wellFormed
    obtain rfl : before = item.lines ++ items.flatMap Item.lines := h.lines_eq
    rw [List.append_assoc, readLines_item hitem, ih ⟨hitems, rfl⟩, entriesIn_cons,
      List.length_append, Nat.add_assoc]
    cases readLines (number + (item.lines.length + (items.flatMap Item.lines).length)) after with
    | error e => rfl
    | ok entries => simp [Except.map]

/-! ## All lines -/

/-- What reading lines comes to: their entries if they derive from the grammar, and otherwise an
error at the first place where they do not. -/
inductive Verdict (number : Nat) (lines : List (List Char)) :
    Except ReadError (List Entry) → Prop where
  | entries {items : List Item} (h : Derives items lines) :
      Verdict number lines (.ok (entriesIn items))
  | invalid {items : List Item} {before after : List (List Char)} {line : List Char}
      (h : Derives items before) (hlines : lines = before ++ line :: after) (hline : NoItem line) :
      Verdict number lines (.error (.invalidLine (number + before.length) (String.ofList line)))
  | unterminated {items : List Item} {before after : List (List Char)}
      {name delimiter line : List Char} (h : Derives items before)
      (hlines : lines = before ++ line :: after) (hline : Opens name delimiter line)
      (hafter : delimiter ∉ after) :
      Verdict number lines
        (.error (.unterminated (String.ofList name) (String.ofList delimiter)))

variable {lines : List (List Char)} {result : Except ReadError (List Entry)}

/-- A verdict on lines stands after one more item at the front. -/
theorem Verdict.cons {item : Item} (hitem : item.WellFormed)
    (h : Verdict (number + item.lines.length) lines result) :
    Verdict number (item.lines ++ lines) (result.map (item.entry?.toList ++ ·)) := by
  cases h with
  | @entries items h =>
    show Verdict number _ (.ok (item.entry?.toList ++ entriesIn items))
    rw [← entriesIn_cons]
    exact .entries (h.cons hitem)
  | @invalid items before after line h hlines hline =>
    show Verdict number _ (.error (.invalidLine (number + item.lines.length + before.length) _))
    rw [Nat.add_assoc, ← List.length_append]
    exact .invalid (h.cons hitem) (by rw [hlines, List.append_assoc]) hline
  | unterminated h hlines hline hafter =>
    exact .unterminated (h.cons hitem) (by rw [hlines, List.append_assoc]) hline hafter

theorem verdict_readLines (number : Nat) (lines : List (List Char)) :
    Verdict number lines (readLines number lines) := by
  -- by the number of lines, as a block takes off more than the first
  induction hlength : lines.length using Nat.strongRecOn generalizing number lines with
  | ind n ih =>
    subst hlength
    have hitem (item : Item) (after : List (List Char)) (h : item.WellFormed)
        (heq : item.lines ++ after = lines) : Verdict number lines (readLines number lines) := by
      subst heq
      rw [readLines_item h]
      refine (ih after.length ?_ _ after rfl).cons h
      rw [item.lines_eq_cons, List.cons_append, List.length_cons, List.length_append]
      omega
    cases lines with
    | nil =>
      rw [readLines]
      exact .entries derives_nil
    | cons line rest =>
      have hline := Line.is_of line
      cases hkind : Line.of line with
      | blank =>
        rw [hkind] at hline
        exact hitem (.blank line) rest hline rfl
      | assignment name value =>
        rw [hkind] at hline
        exact hitem (.assignment line name value) rest hline rfl
      | opener name delimiter =>
        rw [hkind] at hline
        by_cases hmem : delimiter ∈ rest
        · obtain ⟨body, after, rfl, hbody⟩ := List.eq_append_cons_of_mem hmem
          refine hitem (.block line name delimiter body) after ⟨hline, hbody⟩ ?_
          simp [Item.lines]
        · rw [readLines_unterminated hline hmem]
          exact .unterminated derives_nil rfl hline hmem
      | other =>
        rw [hkind] at hline
        rw [readLines_invalid hline]
        exact .invalid derives_nil rfl hline

theorem readLines_eq_iff : readLines number lines = result ↔ Verdict number lines result := by
  refine ⟨fun h => h ▸ verdict_readLines number lines, fun h => ?_⟩
  cases h with
  | @entries items h =>
    have hread := readLines_of_derives h number []
    rw [List.append_nil, readLines] at hread
    simpa [Except.map] using hread
  | invalid h hlines hline =>
    rw [hlines, readLines_of_derives h, readLines_invalid hline]
    rfl
  | unterminated h hlines hline hafter =>
    rw [hlines, readLines_of_derives h, readLines_unterminated hline hafter]
    rfl

/-- **A file is read by its grammar.** It has entries if and only if its lines derive from the
grammar, and then they are those of the items, of which there is one sequence only. Otherwise the
lines up to some place derive, and the error tells of the next: of the line with its number if no
item begins there, and of the block if it is not ended. -/
theorem entries_by_grammar (content : String) :
    let lines := Text.lines content.toList
    (∀ result, entries content = .ok result ↔
        ∃ items, Derives items lines ∧ entriesIn items = result) ∧
      (∀ items items', Derives items lines → Derives items' lines → items = items') ∧
      (∀ number line, entries content = .error (.invalidLine number line) ↔
        ∃ items before after, Derives items before ∧ lines = before ++ line.toList :: after ∧
          number = before.length + 1 ∧ NoItem line.toList) ∧
      ∀ name delimiter, entries content = .error (.unterminated name delimiter) ↔
        ∃ items before line after, Derives items before ∧ lines = before ++ line :: after ∧
          Opens name.toList delimiter.toList line ∧ delimiter.toList ∉ after := by
  intro lines
  have hiff (result : Except ReadError (List Entry)) :
      entries content = result ↔ Verdict 1 lines result := readLines_eq_iff
  refine ⟨fun result => ?_, fun items items' h h' => h.unique h', fun number line => ?_,
    fun name delimiter => ?_⟩
  · -- the lines derive
    rw [hiff]
    constructor
    · rintro ⟨h⟩
      exact ⟨_, h, rfl⟩
    · rintro ⟨items, h, rfl⟩
      exact .entries h
  · -- no item begins at a line
    rw [hiff]
    constructor
    · intro h
      cases h with
      | invalid h hlines hline =>
        simp only [String.toList_ofList]
        exact ⟨_, _, _, h, hlines, Nat.add_comm _ _, hline⟩
    · rintro ⟨items, before, after, h, hlines, rfl, hline⟩
      rw [Nat.add_comm, ← line.ofList_toList]
      exact .invalid h hlines hline
  · -- a block is not ended
    rw [hiff]
    constructor
    · intro h
      cases h with
      | unterminated h hlines hline hafter =>
        simp only [String.toList_ofList]
        exact ⟨_, _, _, _, h, hlines, hline, hafter⟩
    · rintro ⟨items, before, line, after, h, hlines, hline, hafter⟩
      rw [← name.ofList_toList, ← delimiter.ofList_toList]
      exact .unterminated h hlines hline hafter

/-- After an assignment and a blank line comes a block, in which marks stand, an empty line and one
that is almost the delimiter. In a second file no item begins with the line after a block, and in a
third the block is not ended. -/
theorem entries_by_grammar_blocks :
    entries "A=1\r\n \t\nM<<E\nx=<<\n\nE \nE\n" = .ok [⟨"A", "1"⟩, ⟨"M", "x=<<\n\nE "⟩] ∧
      entries "M<<E\nx\nE\n=1\n" = .error (.invalidLine 4 "=1") ∧
      entries "A=<<\nM<<E\nE \n" = .error (.unterminated "M" "E") := by
  have hone : Assigns "A".toList "1".toList "A=1".toList :=
    Line.of_eq_iff.1 (show Line.of _ = .assignment _ _ from rfl)
  have hmarks : Assigns "A".toList "<<".toList "A=<<".toList :=
    Line.of_eq_iff.1 (show Line.of _ = .assignment _ _ from rfl)
  have hblank : Blank " \t".toList := Line.of_eq_iff.1 (show Line.of _ = .blank from rfl)
  have hopens : Opens "M".toList "E".toList "M<<E".toList :=
    Line.of_eq_iff.1 (show Line.of _ = .opener _ _ from rfl)
  have hnone : NoItem "=1".toList := Line.of_eq_iff.1 (show Line.of _ = .other from rfl)
  have hassignment : (Item.assignment "A=<<".toList "A".toList "<<".toList).WellFormed := hmarks
  have hblock : (Item.block "M<<E".toList "M".toList "E".toList ["x".toList]).WellFormed :=
    ⟨hopens, by decide⟩
  refine ⟨((entries_by_grammar _).1 _).2 ?_, ((entries_by_grammar _).2.2.1 _ _).2 ?_,
    ((entries_by_grammar _).2.2.2 _ _).2 ?_⟩
  · refine ⟨[.assignment "A=1".toList "A".toList "1".toList, .blank " \t".toList,
      .block "M<<E".toList "M".toList "E".toList ["x=<<".toList, [], "E ".toList]],
      ⟨?_, by decide +kernel⟩, by decide +kernel⟩
    simp only [List.forall_mem_cons, List.not_mem_nil, false_imp_iff, implies_true, and_true]
    exact ⟨hone, hblank, hopens, by decide⟩
  · exact ⟨_, ["M<<E".toList, "x".toList, "E".toList], [], derives_nil.cons hblock,
      by decide +kernel, rfl, hnone⟩
  · exact ⟨_, ["A=<<".toList], "M<<E".toList, ["E ".toList], derives_nil.cons hassignment,
      by decide +kernel, hopens, by decide⟩

end WorkflowRuns.EnvironmentFile
