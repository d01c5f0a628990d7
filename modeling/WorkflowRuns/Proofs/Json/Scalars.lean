import Mathlib.Tactic.SplitIfs
import WorkflowRuns.Json.Printer
import WorkflowRuns.Json.Reader

/-!
# Numerals and strings are read as they were written

The digits of an integer are read up to the first character that cannot continue a numeral
(`readNumeral?_intText`), and name the integer again as long as it fits into 64 bits. A string is
read up to its closing quote, whatever stands behind it (`readUnits?_foldr_escape`): every escape
names the character that it was written for.
-/

namespace WorkflowRuns.Json

/-! ## Digits -/

theorem isDigit_of_mem_toDigits {n : Nat} {c : Char} (h : c ∈ Nat.toDigits 10 n) :
    c.isDigit = true :=
  Nat.isDigit_of_mem_toDigits (by omega) (by omega) h

theorem head?_toDigits_append (n : Nat) (rest : List Char) :
    (Nat.toDigits 10 n ++ rest).head? = (Nat.toDigits 10 n).head? := by
  obtain ⟨c, cs, hdigits⟩ := List.exists_cons_of_ne_nil (Nat.toDigits_ne_nil (n := n) (b := 10))
  rw [hdigits]
  rfl

/-- The digits of a number start with a zero only if it is zero. -/
theorem head?_toDigits_ne_zero {n : Nat} (h : 0 < n) : (Nat.toDigits 10 n).head? ≠ some '0' := by
  induction n using Nat.strongRecOn with
  | ind n ih =>
    by_cases hsmall : n < 10
    · rw [Nat.toDigits_of_lt_base hsmall]
      intro hzero
      have hdigit : ∀ n < 10, 0 < n → [Nat.digitChar n].head? ≠ some '0' := by decide
      exact hdigit n hsmall h hzero
    · have hrest : 0 < n / 10 := by omega
      rw [Nat.toDigits_of_base_le (by omega) (by omega), head?_toDigits_append]
      exact ih (n / 10) (by omega) hrest

/-- A text that does not go on with a part of a numeral. -/
def EndsNumeral (rest : List Char) : Prop :=
  ∀ c ∈ rest.head?, c.isDigit = false ∧ c ≠ '.' ∧ c ≠ 'e' ∧ c ≠ 'E'

variable {rest : List Char}

theorem EndsNumeral.takeWhile_isDigit (h : EndsNumeral rest) :
    rest.takeWhile Char.isDigit = [] := by
  cases rest with
  | nil => rfl
  | cons c cs =>
    have hc := (h c rfl).1
    rw [List.takeWhile_cons_of_neg (by simp [hc])]

theorem EndsNumeral.dropWhile_isDigit (h : EndsNumeral rest) :
    rest.dropWhile Char.isDigit = rest := by
  cases rest with
  | nil => rfl
  | cons c cs =>
    have hc := (h c rfl).1
    rw [List.dropWhile_cons_of_neg (by simp [hc])]

theorem readDigits?_toDigits (n : Nat) (h : EndsNumeral rest) :
    readDigits? (Nat.toDigits 10 n ++ rest) = some (Nat.toDigits 10 n, rest) := by
  have hdigits : ∀ c ∈ Nat.toDigits 10 n, c.isDigit = true := fun c => isDigit_of_mem_toDigits
  have htake : (Nat.toDigits 10 n ++ rest).takeWhile Char.isDigit = Nat.toDigits 10 n := by
    rw [List.takeWhile_append_of_pos hdigits, h.takeWhile_isDigit, List.append_nil]
  have hdrop : (Nat.toDigits 10 n ++ rest).dropWhile Char.isDigit = rest := by
    rw [List.dropWhile_append_of_pos hdigits, h.dropWhile_isDigit]
  unfold readDigits?
  rw [htake, hdrop]
  split
  · rename_i hnil
    exact absurd hnil Nat.toDigits_ne_nil
  · rfl

theorem readWhole?_toDigits (n : Nat) (h : EndsNumeral rest) :
    readWhole? (Nat.toDigits 10 n ++ rest) = some (Nat.toDigits 10 n, rest) := by
  by_cases hzero : n = 0
  · subst hzero
    rfl
  · have hhead := head?_toDigits_ne_zero (Nat.pos_of_ne_zero hzero)
    unfold readWhole?
    split
    · rename_i rest' heq
      have hfirst := congrArg List.head? heq
      rw [head?_toDigits_append] at hfirst
      exact absurd hfirst hhead
    · exact readDigits?_toDigits n h

theorem EndsNumeral.readFraction? (h : EndsNumeral rest) :
    readFraction? rest = some ([], rest) := by
  unfold Json.readFraction?
  split
  · exact absurd rfl (h '.' rfl).2.1
  · rfl

theorem EndsNumeral.readExponent? (h : EndsNumeral rest) :
    readExponent? rest = some (none, rest) := by
  cases rest with
  | nil => rfl
  | cons c cs =>
    obtain ⟨-, -, hlower, hupper⟩ := h c rfl
    simp [Json.readExponent?, hlower, hupper]

/-! ## Integers -/

/-- An integer fits into 64 bits, with a sign or without. -/
def FitsWord (i : Int) : Prop := -(Numeral.wordEnd / 2 : Nat) ≤ i ∧ i < Numeral.wordEnd

instance (i : Int) : Decidable (FitsWord i) :=
  inferInstanceAs (Decidable (_ ∧ _))

/-- The numeral of an integer. -/
def intNumeral (i : Int) : Numeral := ⟨i < 0, Nat.toDigits 10 i.natAbs, [], none⟩

theorem readNumeral?_intText (i : Int) (h : EndsNumeral rest) :
    readNumeral? (Number.intText i ++ rest) = some (intNumeral i, rest) := by
  have hwhole := readWhole?_toDigits i.natAbs h
  unfold Number.intText intNumeral readNumeral?
  by_cases hneg : i < 0
  · simp [hneg, hwhole, h.readFraction?, h.readExponent?]
  · -- the first digit is no minus sign
    have hsign : (Nat.toDigits 10 i.natAbs ++ rest).head? ≠ some '-' := by
      rw [head?_toDigits_append]
      intro hhead
      exact absurd (isDigit_of_mem_toDigits (List.mem_of_mem_head? hhead)) (by decide)
    rw [if_neg hneg]
    split
    rename_i hmatch
    split at hmatch
    · rename_i heq
      rw [heq] at hsign
      exact absurd rfl hsign
    · cases hmatch
      simp [hneg, hwhole, h.readFraction?, h.readExponent?]

theorem int?_intNumeral {i : Int} (h : FitsWord i) : (intNumeral i).int? = some i := by
  obtain ⟨hlow, hhigh⟩ := h
  have hvalue : digitsValue (Nat.toDigits 10 i.natAbs) = i.natAbs := Nat.ofDigitChars_ten_toDigits
  unfold Numeral.int? intNumeral
  simp only [and_self, if_true, hvalue, decide_eq_true_eq]
  by_cases hneg : i < 0
  · have hfits : 0 < i.natAbs ∧ i.natAbs ≤ Numeral.wordEnd / 2 := by omega
    rw [if_pos hneg, if_pos hfits]
    congr 1
    omega
  · have hfits : i.natAbs < Numeral.wordEnd := by omega
    rw [if_neg hneg, if_pos hfits]
    congr 1
    omega

/-! ## Characters and strings -/

theorem hex4?_hexChar :
    ∀ n < 0x20, hex4? '0' '0' (hexChar (n / 16)) (hexChar (n % 16)) = some n := by decide

/-- A character that is written as it is. -/
theorem readUnits?_plain {c : Char} (hquote : c ≠ '"') (hbackslash : c ≠ '\\')
    (hcontrol : ¬ c.toNat < 0x20) (rest : List Char) :
    readUnits? (c :: rest) = (readUnits? rest).map fun (us, rest) => (c.toNat :: us, rest) := by
  rw [readUnits?]
  · rw [if_neg hcontrol]
  · exact hquote
  · rintro _ _ _ _ _ rfl
    exact absurd rfl hbackslash
  · rintro _ _ rfl
    exact absurd rfl hbackslash

/-- Every character is read as it was written. -/
theorem readUnits?_escape (c : Char) (rest : List Char) :
    readUnits? (escape c ++ rest) =
      (readUnits? rest).map fun (us, rest) => (c.toNat :: us, rest) := by
  unfold escape
  split_ifs with hquote hbackslash hbackspace htab hnewline hfeed hreturn hcontrol
  · subst hquote
    rfl
  · subst hbackslash
    rfl
  · subst hbackspace
    rfl
  · subst htab
    rfl
  · subst hnewline
    rfl
  · subst hfeed
    rfl
  · subst hreturn
    rfl
  · have hhex := hex4?_hexChar c.toNat hcontrol
    simp only [List.cons_append, List.nil_append, readUnits?, hhex, Option.bind_some]
  · exact readUnits?_plain hquote hbackslash hcontrol rest

theorem readUnits?_foldr_escape (cs rest : List Char) :
    readUnits? (cs.foldr (fun c rest => escape c ++ rest) ('"' :: rest)) =
      some (cs.map Char.toNat, rest) := by
  induction cs with
  | nil => rfl
  | cons c cs ih => rw [List.foldr_cons, readUnits?_escape, ih]; rfl

/-- A character is no half of a surrogate pair. -/
theorem isHalf_toNat (c : Char) : isHighHalf c.toNat = false ∧ isLowHalf c.toNat = false := by
  have hvalid := c.valid
  have hvalue : c.toNat = c.val.toNat := rfl
  unfold isHighHalf isLowHalf
  simp only [UInt32.isValidChar, Nat.isValidChar] at hvalid
  simp only [Bool.and_eq_false_iff, decide_eq_false_iff_not]
  omega

theorem ofUnits?_toNat (cs : List Char) : ofUnits? (cs.map Char.toNat) = some cs := by
  induction cs with
  | nil => rfl
  | cons c cs ih =>
    obtain ⟨hhigh, hlow⟩ := isHalf_toNat c
    rw [List.map_cons, ofUnits?.eq_def]
    simp [hhigh, hlow, ih, Char.ofNat_toNat]

/-- The code units of a string make the string again. -/
theorem stringOfUnits?_toNat (s : String) : stringOfUnits? (s.toList.map Char.toNat) = some s := by
  rw [stringOfUnits?, ofUnits?_toNat, Option.map_some, String.ofList_toList]

end WorkflowRuns.Json
