import WorkflowRuns.Proofs.Text.Blank
import WorkflowRuns.Proofs.Time.Calendar
import WorkflowRuns.Time.Instant

/-!
# Points in time are read as they were written

The text of a point in time is read back part by part, each with any rest behind it. A part with a
fixed number of digits needs nothing of the rest; the digits of a year and of a fraction end where
something else than a digit stands (`EndsDigits`).
-/

namespace WorkflowRuns.Instant

open Time

/-! ## Digits -/

/-- A text does not go on with a digit. -/
def EndsDigits (rest : List Char) : Prop := ∀ c ∈ rest.head?, c.isDigit = false

variable {most width n : Nat} {ds rest : List Char}

theorem readNumber?_append (hds : ∀ c ∈ ds, c.isDigit = true) (hne : ds ≠ [])
    (hle : ds.length ≤ most) (hend : ds.length = most ∨ EndsDigits rest) :
    readNumber? most (ds ++ rest) = some (Nat.ofDigitChars 10 ds 0, rest) := by
  have hrest : (rest.take (most - ds.length)).takeWhile Char.isDigit = [] := by
    rcases hend with hlength | hend
    · simp [hlength]
    · cases rest with
      | nil => simp
      | cons c cs =>
        have hc : c.isDigit = false := hend c rfl
        cases most - ds.length <;> simp [hc]
  have htake : ((ds ++ rest).take most).takeWhile Char.isDigit = ds := by
    rw [List.take_append, List.take_of_length_le hle, List.takeWhile_append_of_pos hds, hrest,
      List.append_nil]
  unfold readNumber?
  rw [htake]
  cases ds with
  | nil => exact absurd rfl hne
  | cons d ds => simp

theorem toList_padded (width n : Nat) : (padded width n).toList =
    List.replicate (width - (Nat.toDigits 10 n).length) '0' ++ Nat.toDigits 10 n := by
  simp [padded]

theorem isDigit_of_mem_padded {c : Char} (h : c ∈ (padded width n).toList) :
    c.isDigit = true := by
  rw [toList_padded, List.mem_append] at h
  rcases h with h | h
  · rw [List.eq_of_mem_replicate h]
    rfl
  · exact Nat.isDigit_of_mem_toDigits (by omega) (by omega) h

theorem padded_ne_nil (width n : Nat) : (padded width n).toList ≠ [] := by
  rw [toList_padded]
  exact List.append_ne_nil_of_right_ne_nil _ Nat.toDigits_ne_nil

theorem ofDigitChars_padded (width n : Nat) :
    Nat.ofDigitChars 10 (padded width n).toList 0 = n := by
  have hzeros (k : Nat) : Nat.ofDigitChars 10 (List.replicate k '0') 0 = 0 := by
    induction k with
    | zero => rfl
    | succ k ih => exact ih
  rw [toList_padded, Nat.ofDigitChars_append, hzeros]
  exact Nat.ofDigitChars_ten_toDigits

theorem length_padded (hwidth : 0 < width) (h : n < Nat.pow 10 width) :
    (padded width n).toList.length = width := by
  have hlength := (Nat.length_toDigits_le_iff (by omega) hwidth).2 h
  rw [toList_padded, List.length_append, List.length_replicate]
  omega

/-- Digits are no white space, so nothing is cut off before them. -/
theorem trimLeft_padded (width n : Nat) (rest : List Char) :
    Text.trimLeft ((padded width n).toList ++ rest) = (padded width n).toList ++ rest := by
  obtain ⟨c, cs, hpadded⟩ := List.exists_cons_of_ne_nil (padded_ne_nil width n)
  have hc : c.isDigit = true := isDigit_of_mem_padded (hpadded ▸ List.mem_cons_self)
  rw [hpadded]
  simp [Text.trimLeft, Text.isBlank_of_isDigit hc]

/-! ## Parts -/

theorem readNumber?_padded (hwidth : 0 < width) (h : n < Nat.pow 10 width) (rest : List Char) :
    readNumber? width ((padded width n).toList ++ rest) = some (n, rest) := by
  have hlength := length_padded hwidth h
  rw [readNumber?_append (fun _ => isDigit_of_mem_padded) (padded_ne_nil width n)
    (Nat.le_of_eq hlength) (.inl hlength), ofDigitChars_padded]

theorem readTwo?_padded (h : n < 100) (rest : List Char) :
    readTwo? ((padded 2 n).toList ++ rest) = some (n, rest) := by
  unfold readTwo?
  rw [trimLeft_padded]
  exact readNumber?_padded (by omega) h rest

/-- A number of any length is read up to what ends it. -/
theorem readNumber?_whole (width n : Nat) (h : EndsDigits rest) :
    readNumber? ((padded width n).toList ++ rest).length ((padded width n).toList ++ rest) =
      some (n, rest) := by
  rw [readNumber?_append (fun _ => isDigit_of_mem_padded) (padded_ne_nil width n)
    (by simp) (.inr h), ofDigitChars_padded]

theorem readYear?_minus (cs : List Char) :
    readYear? ('-' :: cs) = (readNumber? cs.length cs).map fun (n, cs) => (-n, cs) := rfl

theorem readYear?_plus (cs : List Char) :
    readYear? ('+' :: cs) = (readNumber? cs.length cs).map fun (n, cs) => (n, cs) := rfl

theorem readYear?_yearText (year : Int) (h : EndsDigits rest) :
    readYear? ((yearText year).toList ++ rest) = some (year, rest) := by
  have hnumber := readNumber?_whole 4 year.natAbs h
  unfold yearText
  by_cases hneg : year < 0
  · have htext : ("-" ++ padded 4 year.natAbs).toList ++ rest =
        '-' :: ((padded 4 year.natAbs).toList ++ rest) := by simp
    have hyear : -(year.natAbs : Int) = year := by omega
    rw [if_pos hneg, htext, readYear?_minus, hnumber]
    exact congrArg (fun y => some (y, rest)) hyear
  · have hyear : (year.natAbs : Int) = year := by omega
    rw [if_neg hneg]
    by_cases hfour : year ≤ 9999
    · -- no sign stands before four digits
      have hfirst (c : Char) (cs : List Char)
          (heq : (padded 4 year.natAbs).toList ++ rest = c :: cs) : c.isDigit = true := by
        obtain ⟨d, ds, hpadded⟩ := List.exists_cons_of_ne_nil (padded_ne_nil 4 year.natAbs)
        rw [hpadded] at heq
        obtain rfl : d = c := (List.cons.inj heq).1
        exact isDigit_of_mem_padded (hpadded ▸ List.mem_cons_self)
      rw [if_pos hfour, readYear?, trimLeft_padded]
      split
      · rename_i heq
        cases hfirst _ _ heq
      · rename_i heq
        cases hfirst _ _ heq
      · rw [readNumber?_padded (by omega) (show year.natAbs < 10000 by omega)]
        exact congrArg (fun y => some (y, rest)) hyear
    · have htext : ("+" ++ padded 4 year.natAbs).toList ++ rest =
          '+' :: ((padded 4 year.natAbs).toList ++ rest) := by simp
      rw [if_neg hfour, htext, readYear?_plus, hnumber]
      exact congrArg (fun y => some (y, rest)) hyear

theorem readMark?_cons {mark : Char} (h : Text.isBlank mark = false) (rest : List Char) :
    readMark? mark (mark :: rest) = some rest := by
  simp [readMark?, Text.trimLeft, h]

theorem readFraction?_padded (hwidth : 0 < width) (hle : width ≤ 9) (h : n < Nat.pow 10 width)
    (hrest : EndsDigits rest) :
    readFraction? ('.' :: ((padded width n).toList ++ rest)) =
      some (n * Nat.pow 10 (9 - width), rest) := by
  have hlength := length_padded hwidth h
  have hread : readNumber? 9 ((padded width n).toList ++ rest) = some (n, rest) := by
    rw [readNumber?_append (fun _ => isDigit_of_mem_padded) (padded_ne_nil width n)
      (by omega) (.inr hrest), ofDigitChars_padded]
  have hdrop : rest.dropWhile Char.isDigit = rest := by
    cases rest with
    | nil => rfl
    | cons c cs => exact List.dropWhile_cons_of_neg (by simp [hrest c rfl])
  rw [readFraction?, hread]
  simp [hlength, hdrop]

theorem readFraction?_fractionText {nanos : Nat} (h : nanos < nanosPerSecond) :
    readFraction? ((fractionText nanos).toList ++ ['Z']) = some (nanos, ['Z']) := by
  have hdots (width n : Nat) : ("." ++ padded width n).toList ++ ['Z'] =
      '.' :: ((padded width n).toList ++ ['Z']) := by simp
  have hend : EndsDigits ['Z'] := by
    rintro c ⟨⟩
    rfl
  unfold nanosPerSecond at h
  unfold fractionText
  split
  · rename_i hzero
    rw [hzero]
    rfl
  split
  · have hmillis : nanos / 1000000 * Nat.pow 10 6 = nanos := by
      show nanos / 1000000 * 1000000 = nanos
      omega
    rw [hdots, readFraction?_padded (by omega) (by omega)
      (show nanos / 1000000 < 1000 by omega) hend, hmillis]
  split
  · have hmicros : nanos / 1000 * Nat.pow 10 3 = nanos := by
      show nanos / 1000 * 1000 = nanos
      omega
    rw [hdots, readFraction?_padded (by omega) (by omega)
      (show nanos / 1000 < 1000000 by omega) hend, hmicros]
  · have hnanos : nanos * Nat.pow 10 0 = nanos := Nat.mul_one nanos
    rw [hdots, readFraction?_padded (by omega) (by omega)
      (show nanos < 1000000000 by omega) hend, hnanos]

/-! ## Days and times of the day -/

theorem readDate?_dateText {date : Date} (hdate : date.isReal = true) (rest : List Char) :
    readDate? ((dateText date).toList ++ rest) = some (date, rest) := by
  have hsmall : date.month < 100 ∧ date.day < 100 := by
    have hmost := daysInMonth_le date.year date.month
    simp only [Date.isReal, Bool.and_eq_true, decide_eq_true_eq] at hdate
    omega
  have htext : (dateText date).toList ++ rest = (yearText date.year).toList ++
      '-' :: ((padded 2 date.month).toList ++ '-' :: ((padded 2 date.day).toList ++ rest)) := by
    simp [dateText]
  have hend (cs : List Char) : EndsDigits ('-' :: cs) := by
    rintro c ⟨⟩
    rfl
  have hdash (cs : List Char) : readMark? '-' ('-' :: cs) = some cs := readMark?_cons rfl cs
  rw [htext, readDate?, readYear?_yearText _ (hend _)]
  simp only [Option.bind_eq_bind, Option.bind_some, hdash, readTwo?_padded hsmall.1,
    readTwo?_padded hsmall.2]
  rfl

theorem readClock?_clockText {clock : Clock} (hclock : clock.isReal = true)
    (hnanos : clock.nanos < nanosPerSecond) :
    readClock? ((clockText clock).toList ++ ['Z']) = some (clock, ['Z']) := by
  obtain ⟨hhour, hminute, hsecond⟩ :
      clock.hour < 100 ∧ clock.minute < 100 ∧ clock.second < 100 := by
    simp only [Clock.isReal, Bool.and_eq_true, decide_eq_true_eq] at hclock
    omega
  have htext : (clockText clock).toList ++ ['Z'] = (padded 2 clock.hour).toList ++
      ':' :: ((padded 2 clock.minute).toList ++ ':' :: ((padded 2 clock.second).toList ++
        ((fractionText clock.nanos).toList ++ ['Z']))) := by simp [clockText]
  have hcolon (cs : List Char) : readMark? ':' (':' :: cs) = some cs := readMark?_cons rfl cs
  rw [htext, readClock?, readTwo?_padded hhour]
  simp only [Option.bind_eq_bind, Option.bind_some, hcolon, readTwo?_padded hminute,
    readTwo?_padded hsecond, readFraction?_fractionText hnanos]
  rfl

/-! ## Points in time -/

variable (t : Instant)

theorem of?_eq_self : of? t.seconds t.nanos = some t := dif_pos ⟨t.inRange, t.inSecond⟩

/-- The year of a point in time is one of those in which times can be. -/
theorem year_mem : yearRange.1 ≤ t.date.year ∧ t.date.year ≤ yearRange.2 := by
  obtain ⟨hfirst, hlast⟩ := t.inRange
  unfold newYear at hfirst hlast
  have hlow : (Date.mk yearRange.1 1 1).toDays ≤ t.seconds / 86400 := by omega
  have hhigh : ¬ (Date.mk (yearRange.2 + 1) 1 1).toDays ≤ t.seconds / 86400 := by omega
  rw [Date.toDays_newYear_le_iff] at hlow hhigh
  unfold date
  omega

theorem clock_of_lt (h : t.nanos < nanosPerSecond) :
    t.clock = ⟨(t.seconds % 86400).toNat / 3600, (t.seconds % 86400).toNat / 60 % 60,
      (t.seconds % 86400).toNat % 60, t.nanos⟩ := by
  simp [clock, h]

/-- In a leap second the clock shows the second 60. -/
theorem clock_of_not_lt (h : ¬ t.nanos < nanosPerSecond) :
    t.clock = ⟨(t.seconds % 86400).toNat / 3600, (t.seconds % 86400).toNat / 60 % 60, 60,
      t.nanos - nanosPerSecond⟩ := by
  obtain ⟨-, hminute⟩ := t.inSecond.resolve_left h
  have hsixty : (t.seconds % 86400).toNat % 60 + 1 = 60 := by omega
  simp [clock, h, hsixty]

theorem isReal_clock : t.clock.isReal = true ∧ t.clock.nanos < nanosPerSecond := by
  by_cases h : t.nanos < nanosPerSecond
  · rw [clock_of_lt t h]
    simp only [Clock.isReal, Bool.and_eq_true, decide_eq_true_eq]
    omega
  · obtain ⟨hnanos, -⟩ := t.inSecond.resolve_left h
    rw [clock_of_not_lt t h]
    simp only [Clock.isReal, Bool.and_eq_true, decide_eq_true_eq]
    omega

/-- Day and time of the day are those of no other point in time. -/
theorem at?_date_clock : at? t.date t.clock 0 = some t := by
  have hdays : t.date.toDays = t.seconds / 86400 := Date.toDays_ofDays _
  unfold at?
  by_cases h : t.nanos < nanosPerSecond
  · have hsecond : (t.seconds % 86400).toNat % 60 ≠ 60 := by omega
    have hseconds : t.seconds / 86400 * 86400 + ((t.seconds % 86400).toNat / 3600 * 3600 +
        (t.seconds % 86400).toNat / 60 % 60 * 60 + (t.seconds % 86400).toNat % 60 : Nat) - 0 =
          t.seconds := by omega
    rw [clock_of_lt t h, hdays]
    simp only [if_neg hsecond, hseconds]
    exact of?_eq_self t
  · obtain ⟨hnanos, hminute⟩ := t.inSecond.resolve_left h
    have hseconds : t.seconds / 86400 * 86400 + ((t.seconds % 86400).toNat / 3600 * 3600 +
        (t.seconds % 86400).toNat / 60 % 60 * 60 + 59 : Nat) - 0 = t.seconds := by omega
    have hwithin : t.nanos - nanosPerSecond + nanosPerSecond = t.nanos := by omega
    rw [clock_of_not_lt t h, hdays]
    simp only [if_true, hseconds, hwithin]
    exact of?_eq_self t

/-- **Times are read as they were written.** -/
theorem ofText?_text : ofText? t.text = some t := by
  obtain ⟨hclock, hnanos⟩ := isReal_clock t
  have hdate : t.date.isReal = true := Date.isReal_ofDays _
  have htext : t.text.toList =
      (dateText t.date).toList ++ 'T' :: ((clockText t.clock).toList ++ ['Z']) := by simp [text]
  have hdivider (cs : List Char) : readDivider? ('T' :: cs) = some cs := rfl
  have hutc : readOffset? (Text.trimLeft ['Z']) = some (0, []) := by decide
  have hguard (p : Prop) [Decidable p] (h : p) : (guard p : Option Unit) = some () := if_pos h
  rw [ofText?, htext, readDate?_dateText hdate]
  dsimp only [Option.bind_eq_bind, Option.bind_some]
  rw [hdivider]
  dsimp only [Option.bind_some]
  rw [readClock?_clockText hclock hnanos]
  dsimp only [Option.bind_some]
  rw [hutc]
  dsimp only [Option.bind_some]
  rw [hguard (Text.allBlank [] = true) rfl, hguard _ (year_mem t), hguard _ ⟨hdate, hclock⟩,
    hguard _ (by decide)]
  exact at?_date_clock t

/-- Half a second into a leap second. -/
example : (Instant.mk 1483228799 1500000000 (by decide) (by decide)).text =
    "2016-12-31T23:59:60.500Z" := by decide +kernel

end WorkflowRuns.Instant
