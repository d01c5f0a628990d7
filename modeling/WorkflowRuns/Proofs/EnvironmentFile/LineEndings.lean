import Mathlib.Control.Monad.Basic
import WorkflowRuns.EnvironmentFile.Files
import WorkflowRuns.Proofs.Files.Saved

/-!
# Line endings of an environment file

Some programs end a line with `'\n'`, others with `'\r'` and `'\n'`, and several of them may write
to one file. Whichever lines of a text are ended in the longer way, its lines are the same
(`Text.lines_withReturns`), and so is what the file says (`reading_ignores_returns`).
-/

namespace WorkflowRuns

/-- The text with a `'\r'` before some of its `'\n'`: those of the lines with the chosen numbers,
counted from the given one. -/
def Text.withReturns (chosen : Nat → Bool) (number : Nat) : List Char → List Char
  | [] => []
  | c :: cs =>
    if c = '\n' then
      (if chosen number then ['\r', '\n'] else ['\n']) ++ withReturns chosen (number + 1) cs
    else c :: withReturns chosen number cs

/-- The `'\r'` that are put in belong to the line endings, so no line keeps one. -/
theorem Text.lines_withReturns {text : List Char} (h : '\r' ∉ text) (chosen : Nat → Bool)
    (number : Nat) : lines (withReturns chosen number text) = lines text := by
  induction text generalizing number with
  | nil => rfl
  | cons c cs ih =>
    obtain ⟨hc, hcs⟩ := not_or.1 (mt List.mem_cons.2 h)
    by_cases hbreak : c = '\n'
    · have ih := ih hcs (number + 1)
      by_cases hchosen : chosen number = true
      · simp [withReturns, lines, hbreak, hchosen, ih]
      · simp [withReturns, lines, hbreak, hchosen, ih]
    · -- a character that ends no line, and no `'\r'` either, is taken as it is
      simp [withReturns, lines, hbreak, Ne.symm hc, ih hcs number]

namespace EnvironmentFile

/-- The content with a `'\r'` at the end of each line with a chosen number, if a `'\n'` ends it. -/
def withReturns (chosen : Nat → Bool) (content : String) : String :=
  .ofList (Text.withReturns chosen 1 content.toList)

variable {content : String}

theorem lines_withReturns (h : '\r' ∉ content.toList) (chosen : Nat → Bool) :
    Text.lines (withReturns chosen content).toList = Text.lines content.toList := by
  rw [withReturns, String.toList_ofList]
  exact Text.lines_withReturns h chosen 1

/-- **Line endings do not matter.** Let a content have no `'\r'`, and let any of its lines be ended
with `'\r'` and `'\n'` instead. Then it has the same entries or the same error, and the same lines
that are kept, and so has a file with it. -/
theorem reading_ignores_returns (h : '\r' ∉ content.toList) (chosen : Nat → Bool) :
    entries (withReturns chosen content) = entries content ∧
      plainLines (withReturns chosen content) = plainLines content ∧
      ∀ (d d' : Disk) (path path' : String), d.read path = .ok content.toUTF8 →
        d'.read path' = .ok (withReturns chosen content).toUTF8 →
        entriesOf (d'.readTextIfAny path') = entriesOf (d.readTextIfAny path) ∧
          linesOf (d'.readTextIfAny path') = linesOf (d.readTextIfAny path) := by
  have hlines := lines_withReturns h chosen
  have hentries : entries (withReturns chosen content) = entries content := by
    unfold entries
    rw [hlines]
  have hplain : plainLines (withReturns chosen content) = plainLines content := by
    unfold plainLines
    rw [hlines]
  refine ⟨hentries, hplain, fun d d' path path' hread hread' => ?_⟩
  rw [Disk.readTextIfAny_of_read hread, Disk.readTextIfAny_of_read hread']
  constructor
  · unfold entriesOf
    exact congrArg (Except.mapError _) hentries
  · exact congrArg Except.ok hplain

/-- A block is opened by a line with a `'\r'` and ended by one without. -/
theorem reading_ignores_returns_mixed :
    let content := "M<<E\nx\n\nE\nA=1"
    let content' := "M<<E\r\nx\n\r\nE\nA=1"
    let disk : Disk := ⟨Dict.ofList [
      (["plain"], .file content.toUTF8 false), (["mixed"], .file content'.toUTF8 false)]⟩
    '\r' ∉ content.toList ∧ withReturns (· % 2 = 1) content = content' ∧
      disk.read "plain" = .ok content.toUTF8 ∧ disk.read "mixed" = .ok content'.toUTF8 ∧
      entries content' = .ok [⟨"M", "x\n"⟩, ⟨"A", "1"⟩] ∧
      plainLines content' = plainLines content ∧
      entriesOf (disk.readTextIfAny "mixed") = entriesOf (disk.readTextIfAny "plain") ∧
      linesOf (disk.readTextIfAny "mixed") = linesOf (disk.readTextIfAny "plain") := by
  intro content content' disk
  have h : '\r' ∉ content.toList := by decide +kernel
  have hwritten : withReturns (· % 2 = 1) content = content' := by decide +kernel
  have hplain : disk.read "plain" = .ok content.toUTF8 := by decide +kernel
  have hmixed : disk.read "mixed" = .ok content'.toUTF8 := by decide +kernel
  have hentries : entries content = .ok [⟨"M", "x\n"⟩, ⟨"A", "1"⟩] := by decide +kernel
  obtain ⟨hsame, hkept, hfiles⟩ := reading_ignores_returns h (· % 2 = 1)
  rw [hwritten] at hsame hkept hfiles
  obtain ⟨hfileEntries, hfileLines⟩ := hfiles disk disk "plain" "mixed" hplain hmixed
  exact ⟨h, hwritten, hplain, hmixed, hsame.trans hentries, hkept, hfileEntries, hfileLines⟩

end EnvironmentFile

end WorkflowRuns
