import Mathlib.Control.Monad.Basic
import WorkflowRuns.Proofs.EnvironmentFile.Reading
import WorkflowRuns.Proofs.Text.Lines

/-!
# Appending to an environment file

A step appends to a file as often as it likes. What it appends gives lines of its own
(`Text.lines_append`), and where the lines before have been read to their end, reading starts afresh
with these (`readLines_of_derives`): only their numbers tell that something stands above
(`readLines_add`). So each text that was appended is decoded on its own (`entries_append`).
-/

namespace WorkflowRuns.EnvironmentFile

/-- The error in the same lines, if as many others stand above them. -/
def ReadError.below (above : Nat) : ReadError → ReadError
  | invalidLine line content => invalidLine (line + above) content
  | unterminated name delimiter => unterminated name delimiter

variable {number : Nat} {lines : List (List Char)} {result : Except ReadError (List Entry)}
  {a b : String} {es : List Entry}

/-- A verdict depends on the number of the first line by the number that it names. -/
theorem Verdict.below (h : Verdict number lines result) (above : Nat) :
    Verdict (number + above) lines (result.mapError (.below above)) := by
  cases h with
  | entries h => exact .entries h
  | @invalid items before after line h hlines hline =>
    show Verdict _ lines (.error (.invalidLine (number + before.length + above) _))
    rw [Nat.add_right_comm]
    exact .invalid h hlines hline
  | unterminated h hlines hline hafter => exact .unterminated h hlines hline hafter

theorem readLines_add (number above : Nat) (lines : List (List Char)) :
    readLines (number + above) lines = (readLines number lines).mapError (.below above) :=
  readLines_eq_iff.2 ((verdict_readLines number lines).below above)

/-- What is appended to a text that has been read to its end is read as if it stood alone, apart
from the numbers of its lines. -/
theorem entries_append_eq (ha : Text.Ended a.toList) (hread : entries a = .ok es) (b : String) :
    entries (a ++ b) =
      ((entries b).mapError (.below (Text.lines a.toList).length)).map (es ++ ·) := by
  have hverdict : Verdict 1 (Text.lines a.toList) (.ok es) := readLines_eq_iff.1 hread
  cases hverdict with
  | @entries items h =>
    calc entries (a ++ b)
        = readLines 1 (Text.lines a.toList ++ Text.lines b.toList) := by
          rw [entries, String.toList_append, Text.lines_append ha]
      _ = (readLines (1 + (Text.lines a.toList).length) (Text.lines b.toList)).map
            (entriesIn items ++ ·) := readLines_of_derives h 1 _
      _ = ((entries b).mapError (.below (Text.lines a.toList).length)).map
            (entriesIn items ++ ·) := by rw [readLines_add, entries]

/-- Texts that can be read and end their last lines are read one by one, however many of them are
appended. -/
theorem entries_foldl_append (ha : Text.Ended a.toList) (hread : entries a = .ok es)
    {parts : List (String × List Entry)}
    (hparts : ∀ part ∈ parts, Text.Ended part.1.toList ∧ entries part.1 = .ok part.2) :
    entries (parts.foldl (fun content part => content ++ part.1) a) =
      .ok (es ++ parts.flatMap Prod.snd) := by
  induction parts generalizing a es with
  | nil => simpa using hread
  | cons part parts ih =>
    obtain ⟨⟨hended, hpart⟩, hparts⟩ := List.forall_mem_cons.1 hparts
    have hjoined : Text.Ended (a ++ part.1).toList := by
      rw [String.toList_append]
      exact ha.append hended
    have hboth : entries (a ++ part.1) = .ok (es ++ part.2) := by
      rw [entries_append_eq ha hread, hpart]
      rfl
    rw [List.foldl_cons, ih hjoined hboth hparts, List.flatMap_cons, List.append_assoc]

/-- **What is appended to a file is decoded on its own.** Let a text be read to its end, and let its
last line be ended. The entries of what is appended to it come after those of the text. A block that
is not ended in it is not ended in the whole, and a line of it that is no item is none in the whole,
where it has a higher number. So any number of such texts give their entries one after the other. -/
theorem entries_append (ha : Text.Ended a.toList) (hread : entries a = .ok es) :
    (∀ b added, entries b = .ok added → entries (a ++ b) = .ok (es ++ added)) ∧
      (∀ b name delimiter, entries b = .error (.unterminated name delimiter) →
        entries (a ++ b) = .error (.unterminated name delimiter)) ∧
      (∀ b number line, entries b = .error (.invalidLine number line) →
        entries (a ++ b) =
          .error (.invalidLine (number + (Text.lines a.toList).length) line)) ∧
      ∀ parts : List (String × List Entry),
        (∀ part ∈ parts, Text.Ended part.1.toList ∧ entries part.1 = .ok part.2) →
        entries (parts.foldl (fun content part => content ++ part.1) a) =
          .ok (es ++ parts.flatMap Prod.snd) := by
  refine ⟨fun b added h => ?_, fun b name delimiter h => ?_, fun b number line h => ?_,
    fun parts hparts => entries_foldl_append ha hread hparts⟩
  all_goals
    rw [entries_append_eq ha hread, h]
    rfl

/-- A text with a blank line and a block is read to its end. What is appended to it has a bad line,
or a block that is not ended, or two more entries in two texts. -/
theorem entries_append_block :
    let a := "A=1\n\nM<<E\nx\nE\n"
    let es : List Entry := [⟨"A", "1"⟩, ⟨"M", "x"⟩]
    Text.Ended a.toList ∧ entries a = .ok es ∧
      entries (a ++ "B=2") = .ok (es ++ [⟨"B", "2"⟩]) ∧
      entries (a ++ "M<<E\nE \n") = .error (.unterminated "M" "E") ∧
      entries (a ++ "B=2\nno entry\n") = .error (.invalidLine 7 "no entry") ∧
      entries (a ++ "A=2\n" ++ "" ++ "A=3\n") = .ok (es ++ [⟨"A", "2"⟩, ⟨"A", "3"⟩]) := by
  intro a es
  have ha : Text.Ended a.toList := Or.inr (by decide +kernel)
  have hread : entries a = .ok es := by decide +kernel
  obtain ⟨hadded, hopen, hbad, hparts⟩ := entries_append ha hread
  refine ⟨ha, hread, hadded _ _ (by decide +kernel), hopen _ _ _ (by decide +kernel), ?_, ?_⟩
  · have hlength : (Text.lines a.toList).length = 5 := by decide +kernel
    have hline := hbad "B=2\nno entry\n" 2 "no entry" (by decide +kernel)
    rwa [hlength] at hline
  · refine hparts [("A=2\n", [⟨"A", "2"⟩]), ("", []), ("A=3\n", [⟨"A", "3"⟩])] ?_
    simp only [List.forall_mem_cons, List.not_mem_nil, false_imp_iff, implies_true, and_true]
    exact ⟨⟨Or.inr (by decide +kernel), by decide +kernel⟩, ⟨Or.inl rfl, by decide +kernel⟩,
      Or.inr (by decide +kernel), by decide +kernel⟩

end WorkflowRuns.EnvironmentFile
