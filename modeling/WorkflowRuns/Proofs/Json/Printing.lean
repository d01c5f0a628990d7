import WorkflowRuns.Proofs.Json.Scalars

/-!
# Texts as they are written

What the readers need to know of a text: that a style only puts white space between the parts
(`Style.Blank`), where a value ends (`EndsValue`), with which characters it begins
(`write_eq_cons`), and that it is no shorter than what stands behind it (`length_le_write`).
-/

namespace WorkflowRuns.Json

mutual

/-- How deep containers are nested. -/
def depth : Json → Nat
  | array items => depthOfItems items + 1
  | object members => depthOfMembers members + 1
  | _ => 0

def depthOfItems : List Json → Nat
  | [] => 0
  | j :: js => max (depth j) (depthOfItems js)

def depthOfMembers : List (String × Json) → Nat
  | [] => 0
  | m :: ms => max (depth m.2) (depthOfMembers ms)

end

mutual

/-- Whether all numbers are integers that fit into 64 bits. -/
def isIntegral : Json → Bool
  | number (.int i) => decide (FitsWord i)
  | number (.float _) => false
  | array items => areIntegral items
  | object members => membersAreIntegral members
  | _ => true

def areIntegral : List Json → Bool
  | [] => true
  | j :: js => isIntegral j && areIntegral js

def membersAreIntegral : List (String × Json) → Bool
  | [] => true
  | m :: ms => isIntegral m.2 && membersAreIntegral ms

end

/-! ## Blanks -/

/-- Nothing but white space. -/
def Blank (cs : List Char) : Prop := ∀ c ∈ cs, isSpace c = true

/-- A style sets the parts of a text apart with white space only. -/
structure Style.Blank (style : Style) : Prop where
  newline : ∀ depth, Json.Blank (style.newline depth)
  colon : ∃ before after, style.colon = before ++ ':' :: after ∧ Json.Blank before ∧
    Json.Blank after

theorem Style.blank_indented : Style.indented.Blank := by
  refine ⟨fun depth c hc => ?_, [], [' '], rfl, by simp [Json.Blank], by simp [Json.Blank, isSpace]⟩
  rcases List.mem_cons.1 hc with rfl | hc
  · rfl
  · rw [List.eq_of_mem_replicate hc]
    rfl

theorem skipSpace_append {blank : List Char} (h : Blank blank) (cs : List Char) :
    skipSpace (blank ++ cs) = skipSpace cs := List.dropWhile_append_of_pos h

theorem isSpace_comma : isSpace ',' = false := rfl

theorem skipSpace_cons {c : Char} (h : isSpace c = false) (cs : List Char) :
    skipSpace (c :: cs) = c :: cs := List.dropWhile_cons_of_neg (by simp [h])

/-- A text before which a value ends: a comma, a bracket or a brace, maybe after blanks, or
nothing. -/
def EndsValue (rest : List Char) : Prop :=
  ∀ c ∈ rest.head?, isSpace c = true ∨ c = ',' ∨ c = ']' ∨ c = '}'

theorem EndsValue.endsNumeral {rest : List Char} (h : EndsValue rest) : EndsNumeral rest := by
  intro c hc
  rcases h c hc with hspace | rfl | rfl | rfl
  · simp only [isSpace, Bool.or_eq_true, decide_eq_true_eq] at hspace
    rcases hspace with ((rfl | rfl) | rfl) | rfl <;> decide
  all_goals decide

theorem endsValue_append {blank : List Char} (h : Blank blank) {rest : List Char}
    (hrest : EndsValue rest) : EndsValue (blank ++ rest) := by
  cases blank with
  | nil => exact hrest
  | cons b bs =>
    rintro c ⟨rfl⟩
    exact .inl (h _ List.mem_cons_self)

section

variable {style : Style} {depth : Nat} {rest : List Char}

theorem endsValue_writeItems (hrest : EndsValue rest) (js : List Json) :
    EndsValue (writeItems style depth js rest) := by
  cases js with
  | nil => exact hrest
  | cons j js =>
    rw [writeItems]
    rintro c ⟨rfl⟩
    exact .inr (.inl rfl)

theorem endsValue_writeMembers (hrest : EndsValue rest) (ms : List (String × Json)) :
    EndsValue (writeMembers style depth ms rest) := by
  cases ms with
  | nil => exact hrest
  | cons m ms =>
    rw [writeMembers]
    rintro c ⟨rfl⟩
    exact .inr (.inl rfl)

/-! ## How values begin -/

theorem intText_eq_cons (i : Int) :
    ∃ c cs, Number.intText i = c :: cs ∧ (c = '-' ∨ c.isDigit = true) := by
  unfold Number.intText
  split
  · exact ⟨'-', _, rfl, .inl rfl⟩
  · obtain ⟨c, cs, hdigits⟩ :=
      List.exists_cons_of_ne_nil (Nat.toDigits_ne_nil (n := i.natAbs) (b := 10))
    refine ⟨c, cs, hdigits, .inr (isDigit_of_mem_toDigits (n := i.natAbs) ?_)⟩
    rw [hdigits]
    exact List.mem_cons_self

/-- A numeral begins with a character that begins nothing else. -/
theorem of_numeral_start {c : Char} (h : c = '-' ∨ c.isDigit = true) :
    isSpace c = false ∧ c ∉ [']', 'n', 't', 'f', '"', '[', '{'] := by
  have hother : ∀ c' : Char, c' ≠ '-' ∧ c'.isDigit = false → c ≠ c' := by
    rintro c' ⟨hminus, hdigit⟩ rfl
    rcases h with h | h
    · exact hminus h
    · rw [hdigit] at h
      cases h
  have hspace : isSpace c = false := by
    simp [isSpace, hother ' ' (by decide), hother '\n' (by decide), hother '\t' (by decide),
      hother '\r' (by decide)]
  refine ⟨hspace, ?_⟩
  simp only [List.mem_cons, List.not_mem_nil, or_false, not_or]
  exact ⟨hother _ (by decide), hother _ (by decide), hother _ (by decide), hother _ (by decide),
    hother _ (by decide), hother _ (by decide), hother _ (by decide)⟩

/-- The text of a value begins with a character that neither sets parts apart nor ends an array. -/
theorem write_eq_cons {j : Json} (h : j.isIntegral = true) (style : Style) (depth : Nat)
    (rest : List Char) :
    ∃ c cs, write style depth j rest = c :: cs ∧ isSpace c = false ∧ c ≠ ']' := by
  match j with
  | null => exact ⟨'n', _, by rw [write], rfl, by decide⟩
  | bool true => exact ⟨'t', _, by rw [write], rfl, by decide⟩
  | bool false => exact ⟨'f', _, by rw [write], rfl, by decide⟩
  | number (.int i) =>
    obtain ⟨c, cs, htext, hc⟩ := intText_eq_cons i
    obtain ⟨hspace, hothers⟩ := of_numeral_start hc
    have hbracket : c ≠ ']' := List.ne_of_not_mem_cons hothers
    exact ⟨c, cs ++ rest, by rw [write, Number.text, htext, List.cons_append], hspace, hbracket⟩
  | number (.float x) => simp [isIntegral] at h
  | string s => exact ⟨'"', _, by rw [write, writeString], rfl, by decide⟩
  | array [] => exact ⟨'[', _, by rw [write], rfl, by decide⟩
  | array (j :: js) => exact ⟨'[', _, by rw [write], rfl, by decide⟩
  | object [] => exact ⟨'{', _, by rw [write], rfl, by decide⟩
  | object (m :: ms) => exact ⟨'{', _, by rw [write], rfl, by decide⟩
  | unreadable => exact ⟨'n', _, by rw [write], rfl, by decide⟩

/-! ## Lengths -/

theorem length_le_writeString (s : String) (rest : List Char) :
    rest.length ≤ (writeString s rest).length := by
  unfold writeString
  induction s.toList with
  | nil => simp; omega
  | cons c cs ih =>
    rw [List.foldr_cons]
    simp only [List.length_cons, List.length_append] at ih ⊢
    omega

mutual

theorem length_le_write (style : Style) (depth : Nat) (j : Json) (rest : List Char) :
    rest.length ≤ (write style depth j rest).length := by
  match j with
  | null | bool true | bool false | unreadable | array [] | object [] =>
    simp only [write, List.length_cons]
    omega
  | number n =>
    simp only [write, List.length_append]
    omega
  | string s =>
    rw [write]
    exact length_le_writeString s rest
  | array (j :: js) =>
    have hitems := length_le_writeItems style (depth + 1) js (style.newline depth ++ ']' :: rest)
    have hfirst := length_le_write style (depth + 1) j
      (writeItems style (depth + 1) js (style.newline depth ++ ']' :: rest))
    simp only [write, List.length_cons, List.length_append] at hitems hfirst ⊢
    omega
  | object (m :: ms) =>
    have hmembers := length_le_writeMembers style (depth + 1) ms
      (style.newline depth ++ '}' :: rest)
    have hfirst := length_le_write style (depth + 1) m.2
      (writeMembers style (depth + 1) ms (style.newline depth ++ '}' :: rest))
    have hname := length_le_writeString m.1 (style.colon ++ write style (depth + 1) m.2
      (writeMembers style (depth + 1) ms (style.newline depth ++ '}' :: rest)))
    simp only [write, List.length_cons, List.length_append] at hmembers hfirst hname ⊢
    omega

theorem length_le_writeItems (style : Style) (depth : Nat) (js : List Json) (rest : List Char) :
    rest.length ≤ (writeItems style depth js rest).length := by
  match js with
  | [] => exact Nat.le_of_eq (by rw [writeItems])
  | j :: js =>
    have hitems := length_le_writeItems style depth js rest
    have hfirst := length_le_write style depth j (writeItems style depth js rest)
    simp only [writeItems, List.length_cons, List.length_append] at hitems hfirst ⊢
    omega

theorem length_le_writeMembers (style : Style) (depth : Nat) (ms : List (String × Json))
    (rest : List Char) : rest.length ≤ (writeMembers style depth ms rest).length := by
  match ms with
  | [] => exact Nat.le_of_eq (by rw [writeMembers])
  | m :: ms =>
    have hmembers := length_le_writeMembers style depth ms rest
    have hfirst := length_le_write style depth m.2 (writeMembers style depth ms rest)
    have hname := length_le_writeString m.1
      (style.colon ++ write style depth m.2 (writeMembers style depth ms rest))
    simp only [writeMembers, List.length_cons, List.length_append] at hmembers hfirst hname ⊢
    omega

end

end

end WorkflowRuns.Json
