import Mathlib.Control.Monad.Basic
import WorkflowRuns.EnvironmentFile.Files
import WorkflowRuns.Proofs.EnvironmentFile.Grammar
import WorkflowRuns.Proofs.Files.Saved
import WorkflowRuns.Proofs.Text.Blank
import WorkflowRuns.Proofs.Text.Lines

/-!
# Lists in an environment file

A file can list texts, one on each line, with white space around them and lines of white space
between them (`Lists`). Only the texts are kept of it (`plainLines_of_lists`). What is kept of any
file is a list that such a file can hold (`listable_of_mem_plainLines`), so a file is read to the
same list when what was read from it is written down again (`linesOf_round_trip`).
-/

namespace WorkflowRuns.EnvironmentFile

/-! ## What can be listed -/

/-- A text that fits on a line and has no white space at its ends, which would not be kept. -/
structure Listable (e : String) : Prop where
  nonempty : e ≠ ""
  oneLine : '\n' ∉ e.toList
  trimmed : Text.Trimmed e.toList

/-- White space within a line. -/
structure Padding (pad : List Char) : Prop where
  blank : Blank pad
  oneLine : '\n' ∉ pad

/-- A line holds one text or none, and white space beside it. -/
inductive Holds : List String → List Char → Prop where
  | nothing {line : List Char} (h : Padding line) : Holds [] line
  | one {left right : List Char} (e : String) (hleft : Padding left) (hright : Padding right) :
      Holds [e] (left ++ e.toList ++ right)

/-- A text lists texts, line by line. As a line may hold nothing, the last of them may be ended or
not. -/
inductive Lists : List String → List Char → Prop where
  | last {es : List String} {line : List Char} (h : Holds es line) : Lists es line
  | cons {es es' : List String} {line text : List Char} (h : Holds es line)
      (htext : Lists es' text) : Lists (es ++ es') (line ++ '\n' :: text)

variable {es : List String} {line text : List Char}

theorem padding_nil : Padding [] := ⟨by simp [Blank], by simp⟩

theorem Padding.append_not_mem {left right : List Char} (hleft : Padding left)
    (hright : Padding right) {e : List Char} (he : '\n' ∉ e) : '\n' ∉ left ++ e ++ right := by
  simp [hleft.oneLine, hright.oneLine, he]

/-! ## What is kept of lines -/

/-- What is kept of lines: the texts between their white space, where there are any. -/
def kept (lines : List (List Char)) : List String :=
  ((lines.map Text.trim).filter (· ≠ [])).map String.ofList

theorem plainLines_eq_kept (content : String) :
    plainLines content = kept (Text.lines content.toList) := rfl

theorem kept_append (lines lines' : List (List Char)) :
    kept (lines ++ lines') = kept lines ++ kept lines' := by
  simp [kept]

theorem kept_singleton (line : List Char) :
    kept [line] = if Text.trim line = [] then [] else [String.ofList (Text.trim line)] := by
  unfold kept
  by_cases h : Text.trim line = [] <;> simp [h]

/-- The `'\r'` of a line ending is white space, so it makes no difference where it belongs. -/
theorem kept_withoutReturn (line : List Char) : kept [Text.withoutReturn line] = kept [line] := by
  have htrim : Text.trim (Text.withoutReturn line) = Text.trim line := by
    by_cases h : line.getLast? = some '\r'
    · obtain ⟨front, rfl⟩ := List.getLast?_eq_some_iff.1 h
      have hreturn : Blank ['\r'] := allBlank_iff.1 rfl
      rw [Text.withoutReturn, if_pos h, List.dropLast_concat, Text.trim_append_right hreturn]
    · rw [Text.withoutReturn_eq_self h]
  rw [kept_singleton, kept_singleton, htrim]

theorem kept_lines_oneLine (h : '\n' ∉ line) : kept (Text.lines line) = kept [line] := by
  rw [Text.lines_eq_of_oneLine h]
  by_cases hline : line = []
  · rw [if_pos hline, hline]
    rfl
  · rw [if_neg hline]

theorem kept_lines_append_newline (h : '\n' ∉ line) (text : List Char) :
    kept (Text.lines (line ++ '\n' :: text)) = kept [line] ++ kept (Text.lines text) := by
  rw [Text.lines_append_newline h, ← List.singleton_append, kept_append, kept_withoutReturn]

/-! ## Reading a list -/

theorem Holds.oneLine (h : Holds es line) (hes : ∀ e ∈ es, Listable e) : '\n' ∉ line := by
  cases h with
  | nothing h => exact h.oneLine
  | one e hleft hright =>
    exact hleft.append_not_mem hright (hes e List.mem_cons_self).oneLine

theorem Holds.kept_eq (h : Holds es line) (hes : ∀ e ∈ es, Listable e) : kept [line] = es := by
  rw [kept_singleton]
  cases h with
  | nothing h => rw [Text.trim_eq_nil h.blank, if_pos rfl]
  | one e hleft hright =>
    have he := hes e List.mem_cons_self
    have hne : e.toList ≠ [] := mt String.toList_eq_nil_iff.1 he.nonempty
    rw [Text.trim_append_right hright.blank, Text.trim_append_left hleft.blank,
      Text.trim_eq_self he.trimmed, if_neg hne, String.ofList_toList]

/-- Of a text that lists texts, these are kept. -/
theorem plainLines_of_lists (h : Lists es text) (hes : ∀ e ∈ es, Listable e) :
    plainLines (String.ofList text) = es := by
  rw [plainLines_eq_kept, String.toList_ofList]
  induction h with
  | last h => rw [kept_lines_oneLine (h.oneLine hes), h.kept_eq hes]
  | cons h htext ih =>
    obtain ⟨hline, hrest⟩ := List.forall_mem_append.1 hes
    rw [kept_lines_append_newline (h.oneLine hline), h.kept_eq hline, ih hrest]

/-- Each text that is kept can be listed. -/
theorem listable_of_mem_plainLines {content e : String} (h : e ∈ plainLines content) :
    Listable e := by
  obtain ⟨whole, hwhole, hne, rfl⟩ := mem_plainLines_iff.1 h
  constructor
  · exact mt String.ofList_eq_empty_iff.1 hne
  · rw [String.toList_ofList]
    exact fun hmem => (Text.of_mem_lines hwhole).1 (Text.trim_subset whole hmem)
  · rw [String.toList_ofList]
    exact Text.trimmed_trim whole

/-- Texts joined by `'\n'` list them. -/
theorem lists_intercalate (es : List String) : Lists es ("\n".intercalate es).toList := by
  rw [String.toList_intercalate]
  induction es with
  | nil => exact .last (.nothing padding_nil)
  | cons e es ih =>
    have hline : Holds [e] e.toList := by
      have h : Holds [e] ([] ++ e.toList ++ []) := .one e padding_nil padding_nil
      rwa [List.nil_append, List.append_nil] at h
    cases es with
    | nil => simpa [List.intercalate] using Lists.last hline
    | cons e' es => simpa [List.intercalate] using Lists.cons hline ih

/-- **Lists are read as they were written.** A file that lists texts is read to exactly these, in
their order, whatever white space is around them. What is read from any file can be listed, and a
file that holds it, joined by `'\n'`, is read to the same. -/
theorem linesOf_round_trip :
    (∀ (es : List String) (text : String), (∀ e ∈ es, Listable e) → Lists es text.toList →
        ∀ (d : Disk) (path : String), d.read path = .ok text.toUTF8 →
          linesOf (d.readTextIfAny path) = .ok es) ∧
      ∀ (d : Disk) (path : String) (es : List String), linesOf (d.readTextIfAny path) = .ok es →
        (∀ e ∈ es, Listable e) ∧
          ∀ (d' : Disk) (path' : String), d'.read path' = .ok ("\n".intercalate es).toUTF8 →
            linesOf (d'.readTextIfAny path') = .ok es := by
  have hlisted (es : List String) (text : String) (hes : ∀ e ∈ es, Listable e)
      (h : Lists es text.toList) (d : Disk) (path : String)
      (hread : d.read path = .ok text.toUTF8) : linesOf (d.readTextIfAny path) = .ok es := by
    rw [Disk.readTextIfAny_of_read hread]
    have hplain := plainLines_of_lists h hes
    rw [String.ofList_toList] at hplain
    exact congrArg Except.ok hplain
  refine ⟨hlisted, fun d path es h => ?_⟩
  cases hcontent : d.readTextIfAny path with
  | error f =>
    rw [hcontent] at h
    cases h
  | ok content =>
    rw [hcontent] at h
    cases h
    have hes : ∀ e ∈ plainLines content, Listable e := fun e => listable_of_mem_plainLines
    exact ⟨hes, hlisted _ _ hes (lists_intercalate _)⟩

/-- White space of many kinds, also a `'\r'` before a `'\n'`, stands around two texts and on lines
of its own. -/
theorem linesOf_round_trip_padded :
    let es := ["/a b", "/c"]
    let text := " /a b\t\r\n\r\n\u3000/c\u0085\n  "
    let disk : Disk := ⟨Dict.ofList [
      (["list"], .file text.toUTF8 false), (["again"], .file "/a b\n/c".toUTF8 false)]⟩
    (∀ e ∈ es, Listable e) ∧ Lists es text.toList ∧ disk.read "list" = .ok text.toUTF8 ∧
      linesOf (disk.readTextIfAny "list") = .ok es ∧
      disk.read "again" = .ok ("\n".intercalate es).toUTF8 ∧
      linesOf (disk.readTextIfAny "again") = .ok es := by
  intro es text disk
  have hes : ∀ e ∈ es, Listable e := by
    simp only [es, List.forall_mem_cons, List.not_mem_nil, false_imp_iff, implies_true, and_true]
    constructor
    · exact ⟨by decide, by decide, Text.trimmed_iff.2 (by decide +kernel)⟩
    · exact ⟨by decide, by decide, Text.trimmed_iff.2 (by decide +kernel)⟩
  have hlists : Lists es text.toList := by
    have hpad {pad : List Char} (hblank : Text.allBlank pad = true) (hone : '\n' ∉ pad) :
        Padding pad := ⟨allBlank_iff.1 hblank, hone⟩
    have hfirst : Holds ["/a b"] ([' '] ++ "/a b".toList ++ ['\t', '\r']) :=
      .one "/a b" (hpad rfl (by decide)) (hpad rfl (by decide))
    have hsecond : Holds ["/c"] (['\u3000'] ++ "/c".toList ++ ['\u0085']) :=
      .one "/c" (hpad rfl (by decide)) (hpad rfl (by decide))
    have hempty : Holds [] ['\r'] := .nothing (hpad rfl (by decide))
    have hend : Holds [] [' ', ' '] := .nothing (hpad rfl (by decide))
    have htext : text.toList = ([' '] ++ "/a b".toList ++ ['\t', '\r']) ++ '\n' ::
        (['\r'] ++ '\n' :: ((['\u3000'] ++ "/c".toList ++ ['\u0085']) ++ '\n' :: [' ', ' '])) := by
      decide +kernel
    rw [htext]
    exact .cons hfirst (.cons hempty (.cons hsecond (.last hend)))
  have hread : disk.read "list" = .ok text.toUTF8 := by decide +kernel
  have hagain : disk.read "again" = .ok ("\n".intercalate es).toUTF8 := by decide +kernel
  obtain ⟨hwritten, hback⟩ := linesOf_round_trip
  have hkept := hwritten es text hes hlists disk "list" hread
  exact ⟨hes, hlists, hread, hkept, hagain, (hback disk "list" es hkept).2 disk "again" hagain⟩

end WorkflowRuns.EnvironmentFile
