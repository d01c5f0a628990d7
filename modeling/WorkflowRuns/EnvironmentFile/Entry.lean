import WorkflowRuns.Text.Basic

/-!
# Entries of an environment file

A step hands variables and outputs over in files. Such a file is a sequence of items: blank lines,
assignments `NAME=value`, and blocks that start with a line `NAME<<DELIMITER`, hold the lines of the
value and end at a line equal to the delimiter. Whichever of `=` and `<<` comes first decides what a
line is.
-/

namespace WorkflowRuns.EnvironmentFile

/-- A name with the value that a file gives to it. -/
structure Entry where
  /-- The name, which is not empty. -/
  name : String
  /-- The value; the lines of a block are joined by `'\n'`. -/
  value : String
deriving DecidableEq

/-- Why a file has no entries. -/
inductive ReadError where
  /-- The line with this number, counted from 1, is no item and starts none. -/
  | invalidLine (line : Nat) (content : String)
  /-- No line ends the block of this name. -/
  | unterminated (name delimiter : String)
deriving DecidableEq

/-- What is said of a file that has no entries. -/
def ReadError.message : ReadError → String
  | invalidLine line content => s!"invalid line {line} in environment file: '{content}'"
  | unterminated name delimiter => s!"heredoc '{name}' is not terminated by '{delimiter}'"

/-- What a line is, taken by itself. -/
inductive Line where
  /-- Only white space. -/
  | blank
  /-- An assignment `name=value`. -/
  | assignment (name value : List Char)
  /-- The first line `name<<delimiter` of a block. -/
  | opener (name delimiter : List Char)
  /-- None of these. -/
  | other

/-- The two marks that end a name. -/
inductive Mark where
  | equals
  | heredoc

/-- Cuts a line at the first `=` or `<<`, whichever comes first. -/
def cut? : List Char → Option (List Char × Mark × List Char)
  | [] => none
  | '=' :: rest => some ([], .equals, rest)
  | '<' :: '<' :: rest => some ([], .heredoc, rest)
  | c :: rest => (cut? rest).map fun (name, mark, value) => (c :: name, mark, value)

/-- What a line is. Names and delimiters are not empty. -/
def Line.of (line : List Char) : Line :=
  if Text.allBlank line then .blank
  else match cut? line with
    | some (name, .equals, value) => if name = [] then .other else .assignment name value
    | some (name, .heredoc, delimiter) =>
      if name = [] ∨ delimiter = [] then .other else .opener name delimiter
    | none => .other

/-- Splits lines at the first one equal to the delimiter, which belongs to no part. -/
def splitBody? (delimiter : List Char) :
    List (List Char) → Option (List (List Char) × List (List Char))
  | [] => none
  | line :: rest =>
    if line = delimiter then some ([], rest)
    else (splitBody? delimiter rest).map fun (body, rest) => (line :: body, rest)

theorem length_of_splitBody? {delimiter : List Char} {lines body rest : List (List Char)}
    (h : splitBody? delimiter lines = some (body, rest)) :
    lines.length = body.length + rest.length + 1 := by
  induction lines generalizing body with
  | nil => simp [splitBody?] at h
  | cons line lines ih =>
    by_cases hd : line = delimiter
    · simp only [splitBody?, hd, if_true, Option.some.injEq, Prod.mk.injEq] at h
      simp [← h.1, ← h.2]
    · simp only [splitBody?, hd, if_false, Option.map_eq_some_iff, Prod.mk.injEq] at h
      obtain ⟨⟨body', rest'⟩, h, rfl, rfl⟩ := h
      simp only [List.length_cons, ih h]
      omega

/-- Joins the lines of a value. -/
def joinLines (lines : List (List Char)) : List Char := ['\n'].intercalate lines

theorem joinLines_eq (lines : List (List Char)) : joinLines lines = ['\n'].intercalate lines := rfl

/-- Reads the items of lines, the first of which has the number `number`. -/
def readLines (number : Nat) : List (List Char) → Except ReadError (List Entry)
  | [] => .ok []
  | line :: rest =>
    match Line.of line with
    | .blank => readLines (number + 1) rest
    | .assignment name value =>
      (readLines (number + 1) rest).map (⟨String.ofList name, String.ofList value⟩ :: ·)
    | .opener name delimiter =>
      match h : splitBody? delimiter rest with
      | none => .error (.unterminated (String.ofList name) (String.ofList delimiter))
      | some (body, after) =>
        (readLines (number + body.length + 2) after).map
          (⟨String.ofList name, String.ofList (joinLines body)⟩ :: ·)
    | .other => .error (.invalidLine number (String.ofList line))
termination_by lines => lines.length
decreasing_by
  · simp
  · simp
  · simp only [List.length_cons]
    have := length_of_splitBody? h
    omega

/-- The entries of a file, in order. Names may come more than once. -/
def entries (content : String) : Except ReadError (List Entry) :=
  readLines 1 (Text.lines content.toList)

/-- The lines of a file that are not blank, without the white space at their ends. -/
def plainLines (content : String) : List String :=
  (((Text.lines content.toList).map Text.trim).filter (· ≠ [])).map String.ofList

theorem mem_plainLines_iff {content e : String} : e ∈ plainLines content ↔
    ∃ line ∈ Text.lines content.toList, Text.trim line ≠ [] ∧
      String.ofList (Text.trim line) = e := by
  simp only [plainLines, List.mem_map, List.mem_filter, decide_eq_true_eq]
  constructor
  · rintro ⟨_, ⟨⟨line, hline, rfl⟩, hne⟩, he⟩
    exact ⟨line, hline, hne, he⟩
  · rintro ⟨line, hline, hne, he⟩
    exact ⟨_, ⟨⟨line, hline, rfl⟩, hne⟩, he⟩

end WorkflowRuns.EnvironmentFile
