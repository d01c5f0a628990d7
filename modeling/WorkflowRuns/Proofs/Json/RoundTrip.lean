import WorkflowRuns.Proofs.Json.Printing

/-!
# Texts give back the values they were written for

A value is `Exact` if all its parts are readable, its numbers are integers that fit into 64 bits,
and its containers are not nested too deep. Such a value is read from its text, whatever blanks the
style puts between the parts (`parseWithin?_write`). One step of each reader is a lemma of its own;
the readers count fuel down, and the induction is on the fuel, of which there is enough for the
length of the text (`reads`).
-/

namespace WorkflowRuns.Json

/-- A value that its text gives back where there is room for so many nested containers. -/
structure Exact (room : Nat) (j : Json) : Prop where
  isDatum : j.IsDatum
  isIntegral : j.isIntegral = true
  depth : j.depth ≤ room

theorem Exact.of_mem_items {room : Nat} {items : List Json} (h : (array items).Exact room) :
    0 < room ∧ ∀ j ∈ items, j.Exact (room - 1) := by
  obtain ⟨hdatum, hintegral, hdepth⟩ := h
  simp only [IsDatum, Json.isIntegral, Json.depth] at hdatum hintegral hdepth
  refine ⟨by omega, ?_⟩
  have hroom : depthOfItems items ≤ room - 1 := by omega
  clear hdepth
  induction items with
  | nil => simp
  | cons j js ih =>
    simp only [areIntegral, Bool.and_eq_true] at hintegral
    simp only [depthOfItems] at hroom
    obtain ⟨hj, hjs⟩ := hdatum
    refine List.forall_mem_cons.2 ⟨⟨hj, hintegral.1, by omega⟩, ih hjs hintegral.2 (by omega)⟩

theorem Exact.of_mem_members {room : Nat} {members : List (String × Json)}
    (h : (object members).Exact room) : 0 < room ∧ ∀ m ∈ members, m.2.Exact (room - 1) := by
  obtain ⟨⟨-, hdatum⟩, hintegral, hdepth⟩ := h
  simp only [Json.isIntegral, Json.depth] at hintegral hdepth
  refine ⟨by omega, ?_⟩
  have hroom : depthOfMembers members ≤ room - 1 := by omega
  clear hdepth
  induction members with
  | nil => simp
  | cons m ms ih =>
    simp only [membersAreIntegral, Bool.and_eq_true] at hintegral
    simp only [depthOfMembers] at hroom
    obtain ⟨hm, hms⟩ := hdatum
    refine List.forall_mem_cons.2 ⟨⟨hm, hintegral.1, by omega⟩, ih hintegral.2 hms (by omega)⟩

/-! ## Steps of the readers -/

theorem readValue?_numeral {room fuel : Nat} {c : Char} {cs : List Char}
    (h : c = '-' ∨ c.isDigit = true) :
    readValue? room (fuel + 1) (c :: cs) =
      (readNumeral? (c :: cs)).map fun (n, rest) => (ofNumeral n, rest) := by
  obtain ⟨hspace, hothers⟩ := of_numeral_start h
  unfold readValue?
  rw [skipSpace_cons hspace]
  split
  all_goals first
    | rfl
    | -- the text would begin with what begins another value
      rename_i heq
      obtain ⟨rfl, -⟩ := List.cons.inj heq
      exact absurd (by decide) hothers

section

variable {style : Style} {fuel room : Nat}

theorem readValue?_append {blank : List Char} (h : Blank blank) (cs : List Char) :
    readValue? room (fuel + 1) (blank ++ cs) = readValue? room (fuel + 1) cs := by
  rw [readValue?, readValue?, skipSpace_append h]

theorem readValue?_string (cs : List Char) :
    readValue? room (fuel + 1) ('"' :: cs) =
      (readUnits? cs).map fun (us, rest) => (ofUnits us, rest) := rfl

theorem readValue?_items {blank cs : List Char} {c : Char} (hblank : Blank blank)
    (hspace : isSpace c = false) (hbracket : c ≠ ']') :
    readValue? room (fuel + 1) ('[' :: (blank ++ c :: cs)) =
      (readItems? (room - 1) fuel (c :: cs)).map fun (js, rest) => (ofItems room js, rest) := by
  have hskip : skipSpace (blank ++ c :: cs) = c :: cs := by
    rw [skipSpace_append hblank, skipSpace_cons hspace]
  have hopening : skipSpace ('[' :: (blank ++ c :: cs)) = '[' :: (blank ++ c :: cs) :=
    skipSpace_cons rfl _
  unfold readValue?
  simp only [hopening, hskip]
  split
  · rename_i heq
    exact absurd (List.cons.inj heq).1 hbracket
  · rfl

theorem readValue?_members {blank cs : List Char} (hblank : Blank blank) :
    readValue? room (fuel + 1) ('{' :: (blank ++ '"' :: cs)) =
      (readMembers? (room - 1) fuel ('"' :: cs)).map fun (ms, rest) =>
        (ofMembers room ms, rest) := by
  have hskip : skipSpace (blank ++ '"' :: cs) = '"' :: cs := by
    rw [skipSpace_append hblank, skipSpace_cons rfl]
  have hopening : skipSpace ('{' :: (blank ++ '"' :: cs)) = '{' :: (blank ++ '"' :: cs) :=
    skipSpace_cons rfl _
  unfold readValue?
  simp only [hopening, hskip]
  split
  · rename_i heq
    exact absurd (List.cons.inj heq).1 (by decide)
  · rfl

/-- The items of an array that has some. -/
def itemsText (style : Style) (depth : Nat) (j : Json) (js : List Json) (rest : List Char) :
    List Char :=
  write style depth j (writeItems style depth js rest)

/-- The members of an object that has some. -/
def membersText (style : Style) (depth : Nat) (m : String × Json) (ms : List (String × Json))
    (rest : List Char) : List Char :=
  writeString m.1 (style.colon ++ write style depth m.2 (writeMembers style depth ms rest))

/-- A member as it is read, with the code units of its name. -/
def namedUnits (m : String × Json) : List Nat × Json := (m.1.toList.map Char.toNat, m.2)

/-- Values are read with so much fuel. -/
def ReadsValue (style : Style) (fuel : Nat) : Prop :=
  ∀ (room depth : Nat) (j : Json) (blank rest : List Char), j.Exact room → Blank blank →
    EndsValue rest → 2 * (write style depth j rest).length + 1 ≤ fuel →
      readValue? room fuel (blank ++ write style depth j rest) = some (j, rest)

/-- The items of an array are read with so much fuel. -/
def ReadsItems (style : Style) (fuel : Nat) : Prop :=
  ∀ (room depth : Nat) (j : Json) (js : List Json) (blank closing rest : List Char),
    (∀ j' ∈ j :: js, j'.Exact room) → Blank blank → Blank closing →
    2 * (itemsText style depth j js (closing ++ ']' :: rest)).length + 2 ≤ fuel →
      readItems? room fuel (blank ++ itemsText style depth j js (closing ++ ']' :: rest)) =
        some (j :: js, rest)

/-- The members of an object are read with so much fuel. -/
def ReadsMembers (style : Style) (fuel : Nat) : Prop :=
  ∀ (room depth : Nat) (m : String × Json) (ms : List (String × Json))
    (blank closing rest : List Char), (∀ m' ∈ m :: ms, m'.2.Exact room) → Blank blank →
    Blank closing → 2 * (membersText style depth m ms (closing ++ '}' :: rest)).length + 2 ≤ fuel →
      readMembers? room fuel (blank ++ membersText style depth m ms (closing ++ '}' :: rest)) =
        some ((m :: ms).map namedUnits, rest)

theorem namedMembers?_toNat (ms : List (String × Json)) :
    namedMembers? (ms.map namedUnits) = some ms := by
  induction ms with
  | nil => rfl
  | cons m ms ih => simp [namedMembers?, namedUnits, stringOfUnits?_toNat, ih]

theorem readsValue_succ (hstyle : style.Blank) (hitems : ReadsItems style fuel)
    (hmembers : ReadsMembers style fuel) : ReadsValue style (fuel + 1) := by
  intro room depth j blank rest hexact hblank hrest hfuel
  rw [readValue?_append hblank]
  match j with
  | null =>
    rw [write]
    rfl
  | bool true =>
    rw [write]
    rfl
  | bool false =>
    rw [write]
    rfl
  | number (.int i) =>
    have hfits : FitsWord i := by simpa [isIntegral] using hexact.isIntegral
    obtain ⟨c, cs, htext, hc⟩ := intText_eq_cons i
    have hread := readNumeral?_intText i hrest.endsNumeral
    rw [htext, List.cons_append] at hread
    rw [write, Number.text, htext, List.cons_append, readValue?_numeral hc, hread]
    simp [ofNumeral, Numeral.number?, int?_intNumeral hfits]
  | number (.float x) => exact absurd hexact.isIntegral (by simp [isIntegral])
  | string s =>
    rw [write, writeString, readValue?_string, readUnits?_foldr_escape]
    simp [ofUnits, stringOfUnits?_toNat]
  | array [] =>
    have hroom := Nat.ne_of_gt hexact.of_mem_items.1
    rw [write]
    exact congrArg (fun j => some (j, rest)) (if_neg hroom)
  | array (j :: js) =>
    obtain ⟨hroom, hall⟩ := hexact.of_mem_items
    have hfirst := hall j List.mem_cons_self
    obtain ⟨c, cs, htext, hspace, hbracket⟩ := write_eq_cons hfirst.isIntegral style (depth + 1)
      (writeItems style (depth + 1) js (style.newline depth ++ ']' :: rest))
    have hread := hitems (room - 1) (depth + 1) j js [] (style.newline depth) rest hall
      (by simp [Blank]) (hstyle.newline depth)
    rw [write, htext] at hfuel ⊢
    rw [itemsText, htext] at hread
    rw [readValue?_items (hstyle.newline _) hspace hbracket]
    simp only [List.length_cons, List.length_append, List.nil_append] at hfuel hread
    rw [hread (by omega)]
    simp [ofItems, Nat.ne_of_gt hroom]
  | object [] =>
    have hroom := Nat.ne_of_gt hexact.of_mem_members.1
    rw [write]
    exact congrArg (fun j => some (j, rest)) (if_neg hroom)
  | object (m :: ms) =>
    obtain ⟨hroom, hall⟩ := hexact.of_mem_members
    have hread := hmembers (room - 1) (depth + 1) m ms [] (style.newline depth) rest hall
      (by simp [Blank]) (hstyle.newline depth)
    have hnames := namedMembers?_toNat (m :: ms)
    rw [write, writeString] at hfuel ⊢
    rw [membersText, writeString] at hread
    rw [readValue?_members (hstyle.newline _)]
    simp only [List.length_cons, List.length_append, List.nil_append] at hfuel hread
    rw [hread (by omega)]
    simp only [Option.map_some, ofMembers, Nat.ne_of_gt hroom, if_false, hnames]
  | unreadable => exact hexact.isDatum.elim

theorem readsItems_succ (hvalue : ReadsValue style fuel) (hitems : ReadsItems style fuel)
    (hstyle : style.Blank) : ReadsItems style (fuel + 1) := by
  intro room depth j js blank closing rest hexact hblank hclosing hfuel
  obtain ⟨hj, hjs⟩ := List.forall_mem_cons.1 hexact
  have hends : EndsValue (closing ++ ']' :: rest) :=
    endsValue_append hclosing (by rintro c ⟨rfl⟩; exact .inr (.inr (.inl rfl)))
  have hlength := length_le_write style depth j (writeItems style depth js (closing ++ ']' :: rest))
  unfold itemsText at hfuel ⊢
  have hmore : EndsValue (writeItems style depth js (closing ++ ']' :: rest)) :=
    endsValue_writeItems hends js
  have hfirst := hvalue room depth j blank _ hj hblank hmore (by omega)
  rw [readItems?, hfirst, Option.bind_some]
  cases js with
  | nil =>
    have hclose : skipSpace (closing ++ ']' :: rest) = ']' :: rest := by
      rw [skipSpace_append hclosing, skipSpace_cons rfl]
    simp only [writeItems, hclose]
  | cons j' js =>
    rw [writeItems] at hlength hfuel ⊢
    simp only [List.length_cons, List.length_append] at hlength
    have hread := hitems room depth j' js (style.newline depth) closing rest hjs
      (hstyle.newline depth) hclosing (by unfold itemsText; omega)
    unfold itemsText at hread
    simp only [skipSpace_cons isSpace_comma, hread, Option.map_some]

theorem readsMembers_succ (hvalue : ReadsValue style fuel) (hmembers : ReadsMembers style fuel)
    (hstyle : style.Blank) : ReadsMembers style (fuel + 1) := by
  intro room depth m ms blank closing rest hexact hblank hclosing hfuel
  obtain ⟨hm, hms⟩ := List.forall_mem_cons.1 hexact
  have hends : EndsValue (closing ++ '}' :: rest) :=
    endsValue_append hclosing (by rintro c ⟨rfl⟩; exact .inr (.inr (.inr rfl)))
  obtain ⟨before, after, hcolon, hbefore, hafter⟩ := hstyle.colon
  have hcolonLength := congrArg List.length hcolon
  generalize hmore : writeMembers style depth ms (closing ++ '}' :: rest) = more
  have hlength := length_le_write style depth m.2 more
  have hname := length_le_writeString m.1 (style.colon ++ write style depth m.2 more)
  rw [membersText, hmore] at hfuel ⊢
  simp only [List.length_cons, List.length_append] at hname hcolonLength
  have hfirst := hvalue room depth m.2 after more hm hafter
    (hmore ▸ endsValue_writeMembers hends ms) (by omega)
  have hquote (cs : List Char) : skipSpace (blank ++ '"' :: cs) = '"' :: cs := by
    rw [skipSpace_append hblank, skipSpace_cons rfl]
  have hcolonSkipped : skipSpace (style.colon ++ write style depth m.2 more) =
      ':' :: (after ++ write style depth m.2 more) := by
    rw [hcolon, List.append_assoc, skipSpace_append hbefore, List.cons_append, skipSpace_cons rfl]
  rw [readMembers?, writeString, hquote]
  simp only [readUnits?_foldr_escape, Option.bind_some, hcolonSkipped, hfirst]
  subst hmore
  cases ms with
  | nil =>
    have hclose : skipSpace (closing ++ '}' :: rest) = '}' :: rest := by
      rw [skipSpace_append hclosing, skipSpace_cons rfl]
    simp only [writeMembers, hclose]
    rfl
  | cons m' ms =>
    rw [writeMembers] at hlength hname hfuel ⊢
    simp only [List.length_cons, List.length_append] at hlength hname
    have hread := hmembers room depth m' ms (style.newline depth) closing rest hms
      (hstyle.newline depth) hclosing (by unfold membersText; omega)
    unfold membersText at hread
    simp only [skipSpace_cons isSpace_comma, hread, Option.map_some]
    rfl

/-! ## Whole texts -/

/-- Enough fuel for the length of a text is enough. -/
theorem reads (hstyle : style.Blank) (fuel : Nat) :
    ReadsValue style fuel ∧ ReadsItems style fuel ∧ ReadsMembers style fuel := by
  induction fuel with
  | zero =>
    refine ⟨?_, ?_, ?_⟩
    · intro room depth j blank rest hexact hblank hrest hfuel
      omega
    · intro room depth j js blank closing rest hexact hblank hclosing hfuel
      omega
    · intro room depth m ms blank closing rest hexact hblank hclosing hfuel
      omega
  | succ fuel ih =>
    obtain ⟨hvalue, hitems, hmembers⟩ := ih
    exact ⟨readsValue_succ hstyle hitems hmembers, readsItems_succ hvalue hitems hstyle,
      readsMembers_succ hvalue hmembers hstyle⟩

/-- A value is read from its text, in any style that sets the parts apart with white space. -/
theorem parseWithin?_write (hstyle : style.Blank) {j : Json} (h : j.Exact room) :
    parseWithin? room (String.ofList (j.write style 0 [])) = some j := by
  have hends : EndsValue [] := by rintro c ⟨⟩
  have hread := (reads hstyle (2 * (j.write style 0 []).length + 2)).1 room 0 j [] [] h
    (by simp [Blank]) hends (by omega)
  rw [List.nil_append] at hread
  unfold parseWithin?
  rw [String.toList_ofList]
  simp only [hread]
  rfl

theorem parse?_pretty {j : Json} (h : j.Exact deepest) : parse? j.pretty = some j :=
  parseWithin?_write Style.blank_indented h

end

end WorkflowRuns.Json
