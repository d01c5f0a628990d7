import WorkflowRuns.Proofs.Environment.Layers

/-!
# In which order layers are put over one another

A layer is put over another one entry by entry: the name that is set already gives way to the new
one. In which order the entries come, and in which order the names that are set are searched, is not
fixed (`LaidOver`), but it does not matter (`laidOver_iff`). The layers form a monoid in which the
one above wins, and putting them over one another is a homomorphism from lists (`layered_append`).
-/

namespace WorkflowRuns.Variables

/-- Sets a variable. The first of the names listed that names the same variable gives way to it. -/
def supplant (names : List String) (vars : Variables) (name value : String) : Variables :=
  match names.find? (sameName · name) with
  | some old => (vars.erase old).insert name value
  | none => vars.insert name value

/-- Entries are put over variables one by one. For each of them the names that are set are searched
in an order of their own. -/
inductive LaidOver : Variables → List (String × String) → Variables → Prop where
  | done (vars : Variables) : LaidOver vars [] vars
  | entry {vars result : Variables} {names : List String} {name value : String}
      {entries : List (String × String)} (hnames : names.Perm vars.keys)
      (hrest : LaidOver (supplant names vars name value) entries result) :
      LaidOver vars ((name, value) :: entries) result

/-- Layers are put over variables one by one, each with its entries in an order of its own. -/
inductive StackedOver : Variables → List Variables → Variables → Prop where
  | done (vars : Variables) : StackedOver vars [] vars
  | layer {vars covered result layer : Variables} {layers : List Variables}
      {entries : List (String × String)} (hentries : entries.Perm layer.entries)
      (hlayer : LaidOver vars entries covered) (hrest : StackedOver covered layers result) :
      StackedOver vars (layer :: layers) result

variable {vars result : Variables} {entries : List (String × String)}

/-! ## The order does not matter -/

/-- What gives way has the name that is set, so nothing else is lost. -/
theorem supplant_eq_insert (names : List String) (vars : Variables) (name value : String) :
    supplant names vars name value = vars.insert name value := by
  unfold supplant
  split
  · next old hold =>
    -- names are compared letter by letter, so whatever is found first is the name itself
    have hsame : old = name := by simpa [sameName] using List.find?_some hold
    refine Dict.ext_get? fun k => ?_
    rw [Dict.get?_insert, Dict.get?_insert, Dict.get?_erase, hsame]
    by_cases hk : k = name
    · rw [if_pos hk, if_pos hk]
    · rw [if_neg hk, if_neg hk, if_neg hk]
  · rfl

theorem laidOver_iff_insertAll : LaidOver vars entries result ↔ result = vars.insertAll entries := by
  induction entries generalizing vars with
  | nil =>
    constructor
    · intro h
      cases h
      rfl
    · rintro rfl
      exact .done _
  | cons e entries ih =>
    constructor
    · intro h
      cases h with
      | entry hnames hrest =>
        rw [supplant_eq_insert] at hrest
        exact ih.1 hrest
    · rintro rfl
      refine .entry (.refl vars.keys) (ih.2 ?_)
      rw [supplant_eq_insert]
      rfl

/-- **However a layer is put over another one, the outcome is the same.** -/
theorem laidOver_iff {below above : Variables} (h : entries.Perm above.entries) :
    LaidOver below entries result ↔ result = overlay below above := by
  have hnodup : (entries.map Prod.fst).Nodup :=
    (h.symm.map Prod.fst).nodup above.nodup_keys
  rw [laidOver_iff_insertAll, Dict.insertAll_eq_of_perm below h hnodup]
  rfl

theorem stackedOver_iff {layers : List Variables} :
    StackedOver vars layers result ↔ result = layers.foldl overlay vars := by
  induction layers generalizing vars with
  | nil =>
    constructor
    · intro h
      cases h
      rfl
    · rintro rfl
      exact .done _
  | cons layer layers ih =>
    constructor
    · intro h
      cases h with
      | layer hentries hlayer hrest =>
        obtain rfl := (laidOver_iff hentries).1 hlayer
        exact ih.1 hrest
    · rintro rfl
      have hlayer : LaidOver vars layer.entries (overlay vars layer) :=
        (laidOver_iff (.refl layer.entries)).2 rfl
      exact .layer (.refl layer.entries) hlayer (ih.2 rfl)

/-! ## The laws of layers -/

theorem overlay_assoc (a b c : Variables) : overlay (overlay a b) c = overlay a (overlay b c) := by
  refine Dict.ext_get? fun k => ?_
  rw [get?_overlay, get?_overlay, get?_overlay, get?_overlay, Option.or_assoc]

theorem overlay_self (a : Variables) : overlay a a = a := by
  refine Dict.ext_get? fun k => ?_
  rw [get?_overlay, Option.or_self]

theorem empty_overlay (a : Variables) : overlay ∅ a = a := by
  refine Dict.ext_get? fun k => ?_
  rw [get?_overlay, Dict.get?_emptyCollection, Option.or_none]

theorem overlay_empty (a : Variables) : overlay a ∅ = a := rfl

theorem layered_append (layers more : List Variables) :
    layered (layers ++ more) = overlay (layered layers) (layered more) := by
  refine Dict.ext_get? fun k => ?_
  rw [get?_overlay, get?_layered, get?_layered, get?_layered, List.reverse_append,
    List.findSome?_append]

/-- A name has the value of the last layer that has it. -/
theorem get?_layered_eq_some_iff {layers : List Variables} {k v : String} :
    (layered layers).get? k = some v ↔ ∃ below layer above, layers = below ++ layer :: above ∧
      layer.get? k = some v ∧ ∀ l ∈ above, l.get? k = none := by
  rw [get?_layered, List.findSome?_eq_some_iff]
  constructor
  · rintro ⟨above, layer, below, hlayers, hlayer, habove⟩
    refine ⟨below.reverse, layer, above.reverse, ?_, hlayer, fun l hl => ?_⟩
    · rw [← List.reverse_reverse layers, hlayers]
      simp
    · exact habove l (List.mem_reverse.1 hl)
  · rintro ⟨below, layer, above, rfl, hlayer, habove⟩
    refine ⟨above.reverse, layer, below.reverse, by simp, hlayer, fun l hl => ?_⟩
    exact habove l (List.mem_reverse.1 hl)

theorem get?_layered_eq_none_iff {layers : List Variables} {k : String} :
    (layered layers).get? k = none ↔ ∀ layer ∈ layers, layer.get? k = none := by
  rw [get?_layered, List.findSome?_eq_none_iff]
  simp only [List.mem_reverse]

/-- **Layers of variables are merged lawfully, the last one winning.** A name has the value of the
last layer that has it, and none if no layer has it. In which order entries are put over one another
and names are searched does not matter, for two layers and for any number of them. Merging is
associative and idempotent, with the empty layer as its unit, and layers may be merged in parts. -/
theorem lawful_layered (layers more : List Variables) (a b c result : Variables) (k : String) :
    (∀ v, (layered layers).get? k = some v ↔ ∃ below layer above,
      layers = below ++ layer :: above ∧ layer.get? k = some v ∧ ∀ l ∈ above, l.get? k = none) ∧
    ((layered layers).get? k = none ↔ ∀ layer ∈ layers, layer.get? k = none) ∧
    (∀ entries, entries.Perm b.entries →
      (LaidOver a entries result ↔ result = overlay a b)) ∧
    (StackedOver ∅ layers result ↔ result = layered layers) ∧
    overlay (overlay a b) c = overlay a (overlay b c) ∧
    overlay a a = a ∧ overlay ∅ a = a ∧ overlay a ∅ = a ∧
    layered (layers ++ more) = overlay (layered layers) (layered more) := by
  refine ⟨fun v => get?_layered_eq_some_iff, get?_layered_eq_none_iff, ?_, stackedOver_iff,
    overlay_assoc a b c, overlay_self a, empty_overlay a, overlay_empty a, layered_append layers more⟩
  intro entries hentries
  exact laidOver_iff hentries

/-- The entries of a layer come in reverse, and one of them takes the place of a variable. -/
theorem lawful_layered_reversed :
    let below : Variables := .ofList [("A", "1"), ("PATH", "/bin")]
    let above : Variables := .ofList [("A", "3"), ("B", "2")]
    let reversed := [("B", "2"), ("A", "3")]
    reversed.Perm above.entries ∧
      LaidOver below reversed (.ofList [("A", "3"), ("B", "2"), ("PATH", "/bin")]) := by
  intro below above reversed
  have hreversed : reversed.Perm above.entries := .swap ("A", "3") ("B", "2") []
  obtain ⟨-, -, hlaid, -⟩ := lawful_layered [] [] below above ∅
    (.ofList [("A", "3"), ("B", "2"), ("PATH", "/bin")]) "A"
  exact ⟨hreversed, (hlaid reversed hreversed).2 (by decide +kernel)⟩

end WorkflowRuns.Variables
