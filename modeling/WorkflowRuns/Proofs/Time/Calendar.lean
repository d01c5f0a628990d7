import WorkflowRuns.Time.Calendar

/-!
# Days and their numbers

Every number is that of a day in the calendar (`isReal_ofDays`, `toDays_ofDays`), and the days of a
year are those from its first on and before the first of the next (`toDays_newYear_le_iff`).

A place among the days of 400 years is told by the year, from 0 to 399, and the day in the year
(`YearDay`). In a year that starts in March, the months other than the last begin at fixed days.
-/

namespace WorkflowRuns.Time

/-! ## Years of a cycle -/

/-- A place among the days of 400 years is this day of this year. The last day of a year that starts
in March is a leap day, and belongs to the next year of the calendar. -/
structure YearDay (place year day : Int) : Prop where
  inCycle : 0 ≤ year ∧ year < 400
  inYear : 0 ≤ day ∧ day ≤ 365
  eq : place = 365 * year + year / 4 - year / 100 + day
  leap : day = 365 → isLeap (year + 1) = true

section Cycle

variable {place year : Int}

/-- The year of a place, with the leap days before it taken out. The last day of the cycle is the
only one in a fifth century. -/
theorem century_eq (h0 : 0 ≤ place) (h1 : place < 146096)
    (hyear : year = (place - place / 1460 + place / 36524 - place / 146096) / 365) :
    year / 100 = place / 36524 := by
  have hcentury : place / 36524 = 0 ∨ place / 36524 = 1 ∨ place / 36524 = 2 ∨
      place / 36524 = 3 := by omega
  rcases hcentury with h | h | h | h <;> omega

theorem yearDay_of_lt (h0 : 0 ≤ place) (h1 : place < 146096)
    (hyear : year = (place - place / 1460 + place / 36524 - place / 146096) / 365) :
    YearDay place year (place - (365 * year + year / 4 - year / 100)) := by
  have hcentury := century_eq h0 h1 hyear
  have hcases : place / 36524 = 0 ∨ place / 36524 = 1 ∨ place / 36524 = 2 ∨
      place / 36524 = 3 := by omega
  -- the years of a century go by fours
  have hfour : year % 4 = 0 ∨ year % 4 = 1 ∨ year % 4 = 2 ∨ year % 4 = 3 := by omega
  have hfirst : 365 * year + year / 4 - year / 100 ≤ place := by
    rcases hcases with h | h | h | h <;> rcases hfour with h' | h' | h' | h' <;> omega
  have hlast : place - (365 * year + year / 4 - year / 100) < 365 ∨
      place - (365 * year + year / 4 - year / 100) = 365 ∧ year % 4 = 3 ∧ year % 100 ≠ 99 := by
    rcases hcases with h | h | h | h <;> rcases hfour with h' | h' | h' | h' <;> omega
  refine ⟨by omega, by omega, by omega, fun hday => ?_⟩
  obtain ⟨-, hquarter, hcenturies⟩ := hlast.resolve_left (by omega)
  have h4 : (year + 1) % 4 = 0 := by omega
  have h100 : (year + 1) % 100 ≠ 0 := by omega
  simp [isLeap, h4, h100]

theorem yearDay (h0 : 0 ≤ place) (h1 : place < cycle)
    (hyear : year = (place - place / 1460 + place / 36524 - place / 146096) / 365) :
    YearDay place year (place - (365 * year + year / 4 - year / 100)) := by
  unfold cycle at h1
  by_cases h : place < 146096
  · exact yearDay_of_lt h0 h hyear
  · obtain rfl : place = 146096 := by omega
    obtain rfl : year = 399 := by omega
    exact ⟨by decide, by decide, by decide, fun _ => rfl⟩

end Cycle

/-! ## Days -/

theorem isLeap_add_cycles (cycles year : Int) : isLeap (cycles * 400 + year) = isLeap year := by
  have h4 : (cycles * 400 + year) % 4 = year % 4 := by omega
  have h100 : (cycles * 400 + year) % 100 = year % 100 := by omega
  have h400 : (cycles * 400 + year) % 400 = year % 400 := by omega
  unfold isLeap
  rw [h4, h100, h400]

/-- The day of a place in a cycle, in the months that are counted from March on. -/
def Date.ofYearDay (cycles year day month : Int) : Date :=
  let dayInMonth := (day - (153 * month + 2) / 5 + 1).toNat
  if month < 10 then ⟨cycles * 400 + year, (month + 3).toNat, dayInMonth⟩
  else ⟨cycles * 400 + year + 1, (month - 9).toNat, dayInMonth⟩

theorem daysInMonth_le (year : Int) (month : Nat) : daysInMonth year month ≤ 31 := by
  unfold daysInMonth
  split
  · split <;> omega
  all_goals omega

namespace Date

theorem ofDays_eq (n : Int) : ∃ cycles place year day month,
    n + 719468 = cycles * cycle + place ∧ YearDay place year day ∧ month = (5 * day + 2) / 153 ∧
      ofDays n = ofYearDay cycles year day month := by
  have h0 : 0 ≤ (n + 719468) % cycle := Int.emod_nonneg _ (by decide)
  have h1 : (n + 719468) % cycle < cycle := Int.emod_lt_of_pos _ (by decide)
  exact ⟨(n + 719468) / cycle, (n + 719468) % cycle, _, _, _, (Int.ediv_mul_add_emod ..).symm,
    yearDay h0 h1 rfl, rfl, rfl⟩

variable {cycles place year day month : Int}

theorem isReal_ofYearDay (h : YearDay place year day) (hmonth : month = (5 * day + 2) / 153) :
    (ofYearDay cycles year day month).isReal = true := by
  obtain ⟨-, hday, -, hleap⟩ := h
  have hmonths : month = 0 ∨ month = 1 ∨ month = 2 ∨ month = 3 ∨ month = 4 ∨ month = 5 ∨
      month = 6 ∨ month = 7 ∨ month = 8 ∨ month = 9 ∨ month = 10 ∨ month = 11 := by omega
  rcases hmonths with rfl | rfl | rfl | rfl | rfl | rfl | rfl | rfl | rfl | rfl | rfl | rfl
  case inr.inr.inr.inr.inr.inr.inr.inr.inr.inr.inr =>
    -- February, at the end of the year
    have hyear : isLeap (cycles * 400 + year + 1) = isLeap (year + 1) := by
      rw [Int.add_assoc, isLeap_add_cycles]
    have hlast : day ≤ 364 ∨ isLeap (year + 1) = true := by
      by_cases hday' : day = 365
      · exact .inr (hleap hday')
      · exact .inl (by omega)
    have hdate : ofYearDay cycles year day 11 =
        ⟨cycles * 400 + year + 1, 2, (day - 337 + 1).toNat⟩ := rfl
    rw [hdate, isReal, daysInMonth, hyear]
    rcases hlast with hlast | hlast
    · have hleast : 28 ≤ if isLeap (year + 1) = true then 29 else 28 := by split <;> omega
      simp only [Bool.and_eq_true, decide_eq_true_eq]
      omega
    · simp only [hlast, if_true, Bool.and_eq_true, decide_eq_true_eq]
      omega
  all_goals
    simp [ofYearDay, isReal, daysInMonth]
    omega

theorem toDays_ofYearDay (h : YearDay place year day) (hmonth : month = (5 * day + 2) / 153) :
    (ofYearDay cycles year day month).toDays = cycles * cycle + place - 719468 := by
  obtain ⟨hyear, hday, heq, -⟩ := h
  unfold ofYearDay
  dsimp only
  by_cases hm : month < 10
  · rw [if_pos hm]
    unfold toDays cycle
    have : ¬ (month + 3).toNat ≤ 2 := by omega
    simp only [this, if_false]
    omega
  · rw [if_neg hm]
    unfold toDays cycle
    have : (month - 9).toNat ≤ 2 := by omega
    simp only [this, if_true]
    omega

theorem isReal_ofDays (n : Int) : (ofDays n).isReal = true := by
  obtain ⟨cycles, place, year, day, month, -, h, hmonth, heq⟩ := ofDays_eq n
  rw [heq]
  exact isReal_ofYearDay h hmonth

theorem toDays_ofDays (n : Int) : (ofDays n).toDays = n := by
  obtain ⟨cycles, place, year, day, month, hn, h, hmonth, heq⟩ := ofDays_eq n
  rw [heq, toDays_ofYearDay h hmonth]
  omega

/-- The days before a year, by the rule of the leap days. -/
theorem toDays_newYear (a : Int) : toDays ⟨a, 1, 1⟩ =
    365 * (a - 1) + (a - 1) / 4 - (a - 1) / 100 + (a - 1) / 400 - 719162 := by
  simp [toDays, cycle]
  omega

/-- A year begins with its first day. -/
theorem toDays_newYear_le_iff {a n : Int} : toDays ⟨a, 1, 1⟩ ≤ n ↔ a ≤ (ofDays n).year := by
  obtain ⟨cycles, place, year, day, month, hn, h, hmonth, heq⟩ := ofDays_eq n
  obtain ⟨hyear, hday, hplace, -⟩ := h
  rw [toDays_newYear, heq]
  unfold cycle at hn
  unfold ofYearDay
  by_cases hm : month < 10
  · simp only [hm, if_true]
    omega
  · simp only [hm, if_false]
    omega

end Date

end WorkflowRuns.Time
