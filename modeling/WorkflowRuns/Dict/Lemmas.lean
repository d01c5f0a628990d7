import WorkflowRuns.Dict.Basic

/-!
# Look-ups in finite maps

What each operation on a `Dict` does to its look-ups, and that the look-ups determine the map.
-/

namespace WorkflowRuns.Dict

variable {κ α β : Type} [DecidableEq κ]

section Entries

theorem find?_of_forall_ne {k : κ} {l : List (κ × α)} (h : ∀ e ∈ l, k ≠ e.1) :
    find? k l = none := by
  induction l with
  | nil => rfl
  | cons e l ih =>
    simp [find?, h e List.mem_cons_self, ih fun e he => h e (List.mem_cons_of_mem _ he)]

theorem mem_of_find? {k : κ} {v : α} {l : List (κ × α)} (h : find? k l = some v) :
    (k, v) ∈ l := by
  fun_induction find? k l with
  | case1 => simp at h
  | case2 => simp_all
  | case3 _ _ _ _ ih => exact List.mem_cons_of_mem _ (ih h)

theorem find?_map (f : α → β) (k : κ) (l : List (κ × α)) :
    find? k (l.map fun e => (e.1, f e.2)) = (find? k l).map f := by
  induction l with
  | nil => rfl
  | cons e l ih => by_cases h : k = e.1 <;> simp [find?, h, ih]

theorem find?_filter (p : κ → Bool) (k : κ) (l : List (κ × α)) :
    find? k (l.filter fun e => p e.1) = if p k then find? k l else none := by
  induction l with
  | nil => simp [find?]
  | cons e l ih =>
    by_cases hp : p e.1 <;> by_cases h : k = e.1 <;> simp_all [find?]

/-- Of entries with distinct keys, each is found under its key. -/
theorem find?_eq_some_iff_of_nodup {l : List (κ × α)} (h : (l.map Prod.fst).Nodup) {k : κ} {v : α} :
    find? k l = some v ↔ (k, v) ∈ l := by
  refine ⟨mem_of_find?, fun hmem => ?_⟩
  induction l with
  | nil => cases hmem
  | cons e l ih =>
    rw [List.map_cons, List.nodup_cons] at h
    obtain ⟨hhead, htail⟩ := h
    rcases List.mem_cons.1 hmem with rfl | hmem
    · simp [find?]
    · have hne : k ≠ e.1 := by
        rintro rfl
        exact hhead (List.mem_map.2 ⟨(e.1, v), hmem, rfl⟩)
      simpa [find?, hne] using ih htail hmem

theorem find?_eq_of_perm {l l' : List (κ × α)} (hperm : l.Perm l') (h : (l.map Prod.fst).Nodup)
    (k : κ) : find? k l = find? k l' := by
  have h' : (l'.map Prod.fst).Nodup := (hperm.map Prod.fst).nodup h
  ext v
  rw [find?_eq_some_iff_of_nodup h, find?_eq_some_iff_of_nodup h', hperm.mem_iff]

variable [LT κ] [DecidableLT κ] [KeyOrder κ]

theorem find?_place (k : κ) (v : α) (l : List (κ × α)) (k' : κ) :
    find? k' (place k v l) = if k' = k then some v else find? k' l := by
  fun_induction place k v l with
  | case1 => simp [find?]
  | case2 => simp [find?]
  | case3 a b l _ hgt ih =>
    by_cases h : k' = a
    · subst h
      have : k' ≠ k := fun h => KeyOrder.irrefl _ (h ▸ hgt)
      simp [find?, this]
    · simp [find?, h, ih]
  | case4 a b l hnlt hngt =>
    obtain rfl := KeyOrder.eq_of_not_lt hnlt hngt
    by_cases h : k' = k <;> simp [find?, h]

omit [DecidableLT κ] in
/-- Two sorted lists with the same look-ups are equal. -/
theorem ext_find? {l l' : List (κ × α)} (h : l.Pairwise fun a b => a.1 < b.1)
    (h' : l'.Pairwise fun a b => a.1 < b.1) (same : ∀ k, find? k l = find? k l') : l = l' := by
  induction l generalizing l' with
  | nil =>
    cases l' with
    | nil => rfl
    | cons e l' => simpa [find?] using same e.1
  | cons e l ih =>
    obtain ⟨k, v⟩ := e
    cases l' with
    | nil => simpa [find?] using same k
    | cons e' l' =>
      obtain ⟨k', v'⟩ := e'
      obtain ⟨hhead, htail⟩ := List.pairwise_cons.1 h
      obtain ⟨hhead', htail'⟩ := List.pairwise_cons.1 h'
      have hkk : k = k' := by
        refine Decidable.byContradiction fun hne => ?_
        have h₁ := mem_of_find? (same k ▸ (by simp [find?] : find? k ((k, v) :: l) = some v))
        have h₂ := mem_of_find?
          ((same k').symm ▸ (by simp [find?] : find? k' ((k', v') :: l') = some v'))
        have h₁ : (k, v) ∈ l' := by simpa [hne] using h₁
        have h₂ : (k', v') ∈ l := by simpa [Ne.symm hne] using h₂
        exact KeyOrder.irrefl _ (KeyOrder.trans (hhead _ h₂) (hhead' _ h₁))
      subst hkk
      obtain rfl : v = v' := by simpa [find?] using same k
      rw [ih htail htail' fun q => ?_]
      by_cases hq : q = k
      · subst hq
        rw [find?_of_forall_ne, find?_of_forall_ne]
        · exact fun e he heq => KeyOrder.irrefl _ (heq ▸ hhead' e he)
        · exact fun e he heq => KeyOrder.irrefl _ (heq ▸ hhead e he)
      · simpa [find?, hq] using same q

end Entries

variable [LT κ]

@[simp] theorem get?_empty (k : κ) : (empty : Dict κ α).get? k = none := rfl

@[simp] theorem get?_emptyCollection (k : κ) : (∅ : Dict κ α).get? k = none := rfl

@[simp] theorem get?_map (f : α → β) (d : Dict κ α) (k : κ) :
    (d.map f).get? k = (d.get? k).map f := find?_map f k d.entries

theorem get?_filterKeys (p : κ → Bool) (d : Dict κ α) (k : κ) :
    (d.filterKeys p).get? k = if p k then d.get? k else none := find?_filter p k d.entries

theorem get?_erase (d : Dict κ α) (k k' : κ) :
    (d.erase k).get? k' = if k' = k then none else d.get? k' := by
  rw [erase, get?_filterKeys]
  by_cases h : k' = k <;> simp [h]

theorem mem_of_get? {d : Dict κ α} {k : κ} {v : α} (h : d.get? k = some v) :
    (k, v) ∈ d.entries := mem_of_find? h

variable [DecidableLT κ] [KeyOrder κ]

omit [DecidableLT κ] in
/-- Maps with the same look-ups are equal. -/
theorem ext_get? {d d' : Dict κ α} (h : ∀ k, d.get? k = d'.get? k) : d = d' := by
  obtain ⟨l, hl⟩ := d
  obtain ⟨l', hl'⟩ := d'
  obtain rfl : l = l' := ext_find? hl hl' h
  rfl

omit [DecidableEq κ] [DecidableLT κ] in
theorem nodup_keys (d : Dict κ α) : (d.entries.map Prod.fst).Nodup := by
  refine List.pairwise_map.2 (d.sorted.imp ?_)
  intro e e' hlt heq
  exact KeyOrder.irrefl _ (heq ▸ hlt)

omit [DecidableLT κ] in
theorem get?_eq_some_iff {d : Dict κ α} {k : κ} {v : α} :
    d.get? k = some v ↔ (k, v) ∈ d.entries := find?_eq_some_iff_of_nodup d.nodup_keys

omit [DecidableLT κ] in
/-- Of a map, the last entry with a key is the only one. -/
theorem find?_reverse_entries (d : Dict κ α) (k : κ) : find? k d.entries.reverse = d.get? k :=
  (find?_eq_of_perm d.entries.reverse_perm.symm d.nodup_keys k).symm

theorem get?_insert (d : Dict κ α) (k : κ) (v : α) (k' : κ) :
    (d.insert k v).get? k' = if k' = k then some v else d.get? k' := find?_place k v d.entries k'

@[simp] theorem get?_insert_self (d : Dict κ α) (k : κ) (v : α) :
    (d.insert k v).get? k = some v := by simp [get?_insert]

theorem get?_insert_of_ne (d : Dict κ α) {k k' : κ} (v : α) (h : k' ≠ k) :
    (d.insert k v).get? k' = d.get? k' := by simp [get?_insert, h]

omit [DecidableEq κ] in
@[simp] theorem insertAll_nil (d : Dict κ α) : d.insertAll [] = d := rfl

omit [DecidableEq κ] in
@[simp] theorem insertAll_cons (d : Dict κ α) (e : κ × α) (l : List (κ × α)) :
    d.insertAll (e :: l) = (d.insert e.1 e.2).insertAll l := rfl

omit [DecidableEq κ] in
@[simp] theorem insertAll_append (d : Dict κ α) (l l' : List (κ × α)) :
    d.insertAll (l ++ l') = (d.insertAll l).insertAll l' := List.foldl_append

/-- After adding entries, a key has the value of the last of them with that key, and otherwise the
value that it had. -/
theorem get?_insertAll (d : Dict κ α) (l : List (κ × α)) (k : κ) :
    (d.insertAll l).get? k = (find? k l.reverse).or (d.get? k) := by
  induction l generalizing d with
  | nil => rfl
  | cons e l ih =>
    have hsnoc : ∀ l' : List (κ × α), find? k (l' ++ [e]) =
        (find? k l').or (if k = e.1 then some e.2 else none) := by
      intro l'
      induction l' with
      | nil => simp [find?]
      | cons a l' ih => by_cases h : k = a.1 <;> simp [find?, h, ih]
    rw [insertAll_cons, ih, List.reverse_cons, hsnoc, get?_insert]
    by_cases h : k = e.1 <;> cases find? k l.reverse <;> simp [h]

/-- In which order entries with distinct keys are added does not matter. -/
theorem insertAll_eq_of_perm (d : Dict κ α) {l l' : List (κ × α)} (hperm : l.Perm l')
    (h : (l.map Prod.fst).Nodup) : d.insertAll l = d.insertAll l' := by
  have hreverse : l.reverse.Perm l'.reverse :=
    l.reverse_perm.trans (hperm.trans l'.reverse_perm.symm)
  have hnodup : (l.reverse.map Prod.fst).Nodup :=
    (l.reverse_perm.symm.map Prod.fst).nodup h
  refine ext_get? fun k => ?_
  rw [get?_insertAll, get?_insertAll, find?_eq_of_perm hreverse hnodup]

/-- A map is the map of its entries. -/
@[simp] theorem ofList_entries (d : Dict κ α) : ofList d.entries = d := by
  refine ext_get? fun k => ?_
  rw [ofList, get?_insertAll, get?_empty, Option.or_none, find?_reverse_entries]

end WorkflowRuns.Dict
