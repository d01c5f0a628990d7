import WorkflowRuns.Proofs.EnvironmentFile.Reading
import WorkflowRuns.Proofs.Text.Lines

/-!
# Writing an environment file

An entry is written as an assignment, if its value has one line, or as a block with a delimiter that
is no line of the value; blank lines may stand anywhere around. Whatever forms are chosen, the lines
of the text are those of well-formed items (`derives_of_writes`), so reading gives the entries back
(`entries_read_back`).
-/

namespace WorkflowRuns.EnvironmentFile

/-! ## What can be written -/

/-- A name that reaches up to the mark that is written after it. -/
structure PlainName (name : List Char) : Prop where
  nonempty : name ≠ []
  oneLine : '\n' ∉ name
  noEquals : '=' ∉ name
  noHeredoc : ¬ ['<', '<'] <:+: name
  /-- With the mark `<<` after it, such a name would end one character too early. -/
  noHalfMark : name.getLast? ≠ some '<'

/-- An entry with a plain name and a value in which no `'\r'` is taken for a part of a line
ending. -/
structure Entry.Writable (e : Entry) : Prop where
  plainName : PlainName e.name.toList
  noBreak : ¬ ['\r', '\n'] <:+: e.value.toList
  noReturn : e.value.toList.getLast? ≠ some '\r'

/-- A text can end the block of a value. -/
structure Delimits (delimiter value : List Char) : Prop where
  nonempty : delimiter ≠ []
  oneLine : '\n' ∉ delimiter
  noReturn : delimiter.getLast? ≠ some '\r'
  fresh : delimiter ∉ value.splitOn '\n'

/-- How an entry is written. -/
inductive Form where
  /-- As a line `name=value`. -/
  | assignment
  /-- As a block that ends at the delimiter. -/
  | block (delimiter : List Char)

namespace Form

/-- An entry can be written in a form. -/
def Fits (e : Entry) : Form → Prop
  | assignment => '\n' ∉ e.value.toList
  | block delimiter => Delimits delimiter e.value.toList

/-- The text of an entry in a form. -/
def text (e : Entry) : Form → List Char
  | assignment => e.name.toList ++ '=' :: e.value.toList ++ ['\n']
  | block delimiter => e.name.toList ++ '<' :: '<' :: delimiter ++ '\n' ::
      (e.value.toList ++ '\n' :: (delimiter ++ ['\n']))

end Form

/-- A text that writes entries in their order, each in a form of its own, with any number of blank
lines before, between and after them. -/
inductive Writes : List Entry → List Char → Prop where
  | nil : Writes [] []
  | blank {es : List Entry} {line text : List Char} (hline : Blank line) (hone : '\n' ∉ line)
      (h : Writes es text) : Writes es (line ++ '\n' :: text)
  | entry {e : Entry} {es : List Entry} {form : Form} {text : List Char} (hform : form.Fits e)
      (h : Writes es text) : Writes (e :: es) (form.text e ++ text)

/-! ## Items -/

/-- A line is cut after a plain name. -/
theorem cut_append {name : List Char} (hequals : '=' ∉ name) (hheredoc : ¬ ['<', '<'] <:+: name)
    (hhalf : name.getLast? ≠ some '<') (m : Mark) (rest : List Char) :
    Cut m name rest (name ++ m.text ++ rest) := by
  induction name with
  | nil =>
    refine Cut.front fun after => ?_
    cases m <;> simp [Mark.text, Mark.other]
  | cons c name ih =>
    have htail : Cut m name rest (name ++ m.text ++ rest) := by
      refine ih (fun h => hequals (List.mem_cons_of_mem c h))
        (fun h => hheredoc (List.infix_cons h)) ?_
      cases name with
      | nil => simp
      | cons d name => rwa [List.getLast?_cons_cons] at hhalf
    -- no mark begins at `c`
    refine htail.cons (ne_mark_append (fun hc => hequals (hc ▸ List.mem_cons_self)) ?_)
    rintro after rfl heq
    cases name with
    | nil => exact hhalf rfl
    | cons d name =>
      obtain rfl : d = '<' := (List.cons.inj heq).1
      exact hheredoc ⟨[], name, rfl⟩

theorem PlainName.cut {name : List Char} (h : PlainName name) (m : Mark) (rest : List Char) :
    Cut m name rest (name ++ m.text ++ rest) :=
  cut_append h.noEquals h.noHeredoc h.noHalfMark m rest

namespace Form

/-- The item that an entry is written as. -/
def item (e : Entry) : Form → Item
  | assignment =>
    .assignment (e.name.toList ++ '=' :: e.value.toList) e.name.toList e.value.toList
  | block delimiter =>
    .block (e.name.toList ++ '<' :: '<' :: delimiter) e.name.toList delimiter
      (e.value.toList.splitOn '\n')

variable {e : Entry} {form : Form}

theorem entry?_item (e : Entry) (form : Form) : Item.entry? (form.item e) = some e := by
  cases form <;> simp [item, Item.entry?, List.intercalate_splitOn]

theorem wellFormed_item (he : e.Writable) (hform : form.Fits e) : (form.item e).WellFormed := by
  have hname := he.plainName
  cases form with
  | assignment => exact ⟨by simpa [Mark.text] using hname.cut .equals e.value.toList,
      hname.nonempty⟩
  | block delimiter => exact ⟨⟨by simpa [Mark.text] using hname.cut .heredoc delimiter,
      hname.nonempty, hform.nonempty⟩, hform.fresh⟩

/-- What is written after a name and a mark is the end of its line. -/
theorem getLast?_append_cons_ne (name : List Char) {rest : List Char} {c : Char} (hc : c ≠ '\r')
    (hrest : rest.getLast? ≠ some '\r') : (name ++ c :: rest).getLast? ≠ some '\r' := by
  rw [List.getLast?_append, List.getLast?_cons]
  cases h : rest.getLast? with
  | none => simpa using hc
  | some d => simpa [h] using hrest

/-- A written entry gives the lines of its item. -/
theorem lines_text_append (he : e.Writable) (hform : form.Fits e) (rest : List Char) :
    Text.lines (form.text e ++ rest) = (form.item e).lines ++ Text.lines rest := by
  have hname := he.plainName.oneLine
  cases form with
  | assignment =>
    have hvalue : '\n' ∉ e.value.toList := hform
    have hone : '\n' ∉ e.name.toList ++ '=' :: e.value.toList := by simp [hname, hvalue]
    have hreturn := getLast?_append_cons_ne e.name.toList (c := '=') (by decide) he.noReturn
    have htext : text e .assignment ++ rest =
        (e.name.toList ++ '=' :: e.value.toList) ++ '\n' :: rest := by simp [text]
    rw [htext, Text.lines_append_newline hone, Text.withoutReturn_eq_self hreturn]
    rfl
  | block delimiter =>
    obtain ⟨-, hdelimiter, hend, -⟩ : Delimits delimiter e.value.toList := hform
    have hone : '\n' ∉ e.name.toList ++ '<' :: '<' :: delimiter := by simp [hname, hdelimiter]
    have hopener : (e.name.toList ++ '<' :: '<' :: delimiter).getLast? ≠ some '\r' := by
      simpa using getLast?_append_cons_ne (e.name.toList ++ ['<']) (c := '<') (by decide) hend
    have hbody : (e.value.toList.splitOn '\n').map Text.withoutReturn =
        e.value.toList.splitOn '\n' := by
      refine (List.map_congr_left fun part hpart => ?_).trans (List.map_id _)
      exact Text.withoutReturn_eq_self
        (Text.getLast?_ne_of_mem_splitOn he.noBreak he.noReturn hpart)
    have htext : text e (.block delimiter) ++ rest =
        (e.name.toList ++ '<' :: '<' :: delimiter) ++ '\n' ::
          (e.value.toList ++ '\n' :: (delimiter ++ '\n' :: rest)) := by simp [text]
    rw [htext, Text.lines_append_newline hone, Text.withoutReturn_eq_self hopener,
      Text.lines_append_newline_splitOn, hbody, Text.lines_append_newline hdelimiter,
      Text.withoutReturn_eq_self hend]
    simp [item, Item.lines]

end Form

/-! ## Whole texts -/

variable {es : List Entry} {text : List Char}

/-- What is written derives from the grammar, as items with the entries. -/
theorem derives_of_writes (h : Writes es text) (hes : ∀ e ∈ es, e.Writable) :
    ∃ items, Derives items (Text.lines text) ∧ entriesIn items = es := by
  induction h with
  | nil => exact ⟨[], derives_nil, rfl⟩
  | @blank es line text hline hone h ih =>
    obtain ⟨items, hitems, hentries⟩ := ih hes
    have hblank : Blank (Text.withoutReturn line) :=
      fun c hc => hline c (Text.withoutReturn_subset line hc)
    refine ⟨.blank (Text.withoutReturn line) :: items, ?_, ?_⟩
    · rw [Text.lines_append_newline hone]
      exact hitems.cons (show (Item.blank _).WellFormed from hblank)
    · rw [entriesIn_cons, hentries]
      rfl
  | @entry e es form text hform h ih =>
    obtain ⟨he, hes⟩ := List.forall_mem_cons.1 hes
    obtain ⟨items, hitems, hentries⟩ := ih hes
    refine ⟨form.item e :: items, ?_, ?_⟩
    · rw [form.lines_text_append he hform]
      exact hitems.cons (form.wellFormed_item he hform)
    · rw [entriesIn_cons, form.entry?_item, hentries]
      rfl

/-- Every value has a delimiter: one that is longer than the value. -/
theorem exists_delimits (value : List Char) : ∃ delimiter, Delimits delimiter value := by
  refine ⟨List.replicate (value.length + 1) 'E', by simp, by simp,
    by simp [List.getLast?_replicate], fun h => ?_⟩
  obtain ⟨before, after, heq, -⟩ := Text.eq_append_of_mem_splitOn h
  have hlength := congrArg List.length heq
  simp only [List.length_append, List.length_replicate] at hlength
  omega

theorem exists_writes (es : List Entry) : ∃ text, Writes es text := by
  induction es with
  | nil => exact ⟨[], .nil⟩
  | cons e es ih =>
    obtain ⟨text, h⟩ := ih
    obtain ⟨delimiter, hdelimiter⟩ := exists_delimits e.value.toList
    have hform : (Form.block delimiter).Fits e := hdelimiter
    exact ⟨_, .entry hform h⟩

/-- **Entries can be written and read back.** However entries are written, in whichever forms fit
and with blank lines around them, reading gives exactly them, in their order and with repeated names
kept. They can always be written, as every value has a delimiter. -/
theorem entries_read_back (es : List Entry) (hes : ∀ e ∈ es, e.Writable) :
    (∀ text, Writes es text → entries (String.ofList text) = .ok es) ∧
      (∃ text, Writes es text) ∧
      ∀ value : String, ∃ delimiter, Delimits delimiter value.toList := by
  refine ⟨fun text h => ?_, exists_writes es, fun value => exists_delimits value.toList⟩
  obtain ⟨items, hitems, hentries⟩ := derives_of_writes h hes
  unfold entries
  rw [String.toList_ofList, readLines_eq_iff, ← hentries]
  exact .entries hitems

/-- A name comes twice, and the value of a block holds marks, blank lines, what looks like the end
of the block, and a `'\n'` at its end. -/
theorem entries_read_back_repeated_name :
    let es : List Entry := [⟨"A", "1"⟩, ⟨"M", "x=y\n<<E\n\nE \nA=2\n"⟩, ⟨"A", ""⟩]
    let text := "\r\nA=1\n \t\nM<<E\nx=y\n<<E\n\nE \nA=2\n\nE\nA=\n\n"
    (∀ e ∈ es, e.Writable) ∧ Writes es text.toList ∧ entries text = .ok es := by
  intro es text
  have hes : ∀ e ∈ es, e.Writable := by
    have hA : PlainName "A".toList := by constructor <;> decide +kernel
    have hM : PlainName "M".toList := by constructor <;> decide +kernel
    simp only [es, List.forall_mem_cons, List.not_mem_nil, false_imp_iff, implies_true, and_true]
    exact ⟨⟨hA, by decide +kernel, by decide⟩, ⟨hM, by decide +kernel, by decide⟩,
      ⟨hA, by decide +kernel, by decide⟩⟩
  have hblock : Delimits ['E'] "x=y\n<<E\n\nE \nA=2\n".toList := by constructor <;> decide +kernel
  have htext : text.toList = ['\r'] ++ '\n' :: (Form.assignment.text ⟨"A", "1"⟩ ++
      ([' ', '\t'] ++ '\n' :: ((Form.block ['E']).text ⟨"M", "x=y\n<<E\n\nE \nA=2\n"⟩ ++
        (Form.assignment.text ⟨"A", ""⟩ ++ ([] ++ '\n' :: []))))) := by decide +kernel
  have hwrites : Writes es text.toList := by
    rw [htext]
    have hone : Form.assignment.Fits ⟨"A", "1"⟩ := show '\n' ∉ "1".toList by decide
    have hnone : Form.assignment.Fits ⟨"A", ""⟩ := show '\n' ∉ "".toList by decide
    refine .blank (allBlank_iff.1 rfl) (by decide) (.entry hone ?_)
    refine .blank (allBlank_iff.1 rfl) (by decide) (.entry hblock (.entry hnone ?_))
    exact .blank (allBlank_iff.1 rfl) (by decide) .nil
  have hread := (entries_read_back es hes).1 _ hwrites
  rw [String.ofList_toList] at hread
  exact ⟨hes, hwrites, hread⟩

end WorkflowRuns.EnvironmentFile
