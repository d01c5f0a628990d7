import WorkflowRuns.Dict.Basic
import WorkflowRuns.Number.Binary64

/-!
# JSON values

A `Json` is what a JSON text says, with the members of an object in the order of the text and
repeated names kept. A text can be well formed and still name no value: a number may be too large
for a double, an escape may be half of a surrogate pair, a container may lie too deep. Such a part
is `unreadable`. It does no harm where nobody looks, as in an unknown member of a record, and every
reading that needs it fails.

A `Datum` is a value of its own: readable throughout, and every object listed once per name, in the
order of the names. `Json.datum?` reads one, of members with one name taking the last.
-/

namespace WorkflowRuns

/-- A JSON number. -/
inductive Json.Number where
  /-- A number written without fraction and exponent that fits into 64 bits. -/
  | int (i : Int)
  /-- Any other number. -/
  | float (x : Binary64)
deriving DecidableEq

/-- What a JSON text says. -/
inductive Json where
  | null
  | bool (b : Bool)
  | number (n : Json.Number)
  | string (s : String)
  | array (items : List Json)
  | object (members : List (String × Json))
  /-- A part of a well-formed text that names no value. -/
  | unreadable

namespace Json

mutual

/-- Whether a value is readable throughout and lists its members in the order of their names. -/
def IsDatum : Json → Prop
  | null | bool _ | number _ | string _ => True
  | array items => IsDatumList items
  | object members => (members.Pairwise fun a b => a.1 < b.1) ∧ IsDatumMembers members
  | unreadable => False

/-- The same of every item. -/
def IsDatumList : List Json → Prop
  | [] => True
  | j :: js => IsDatum j ∧ IsDatumList js

/-- The same of the value of every member. -/
def IsDatumMembers : List (String × Json) → Prop
  | [] => True
  | m :: ms => IsDatum m.2 ∧ IsDatumMembers ms

end

theorem isDatumMembers_iff {ms : List (String × Json)} :
    IsDatumMembers ms ↔ ∀ m ∈ ms, IsDatum m.2 := by
  induction ms with
  | nil => simp [IsDatumMembers]
  | cons m ms ih => simp [IsDatumMembers, ih]

mutual

/-- Puts the members of all objects in the order of their names, of members with one name keeping
the last. There is no result if a part is unreadable. -/
def canonical? : Json → Option Json
  | null => some .null
  | bool b => some (.bool b)
  | number n => some (.number n)
  | string s => some (.string s)
  | array items => (canonicalList? items).map .array
  | object members =>
    (canonicalMembers? members).map fun members => .object (Dict.ofList members).entries
  | unreadable => none

/-- The same for every item. -/
def canonicalList? : List Json → Option (List Json)
  | [] => some []
  | j :: js => (canonical? j).bind fun j => (canonicalList? js).map (j :: ·)

/-- The same for the value of every member. -/
def canonicalMembers? : List (String × Json) → Option (List (String × Json))
  | [] => some []
  | m :: ms => (canonical? m.2).bind fun j => (canonicalMembers? ms).map ((m.1, j) :: ·)

end

/-- Every entry of a map made from a list is in the list. -/
theorem mem_of_mem_insertAll {d : Dict String Json} {l : List (String × Json)} {e : String × Json}
    (h : e ∈ (d.insertAll l).entries) : e ∈ d.entries ∨ e ∈ l := by
  induction l generalizing d with
  | nil => exact .inl h
  | cons a l ih =>
    rcases ih (d := d.insert a.1 a.2) h with h | h
    · rcases Dict.mem_place h with rfl | h
      · exact .inr List.mem_cons_self
      · exact .inl h
    · exact .inr (List.mem_cons_of_mem _ h)

mutual

/-- What `canonical?` gives is a datum. -/
theorem isDatum_of_canonical? {j j' : Json} (h : j.canonical? = some j') : j'.IsDatum := by
  match j with
  | null | bool _ | number _ | string _ =>
    simp only [canonical?, Option.some.injEq] at h
    subst h
    trivial
  | array items =>
    simp only [canonical?, Option.map_eq_some_iff] at h
    obtain ⟨items', h, rfl⟩ := h
    exact isDatumList_of_canonicalList? h
  | object members =>
    simp only [canonical?, Option.map_eq_some_iff] at h
    obtain ⟨members', h, rfl⟩ := h
    refine ⟨(Dict.ofList members').sorted, isDatumMembers_iff.2 fun m hm => ?_⟩
    rcases mem_of_mem_insertAll hm with hm | hm
    · exact absurd hm List.not_mem_nil
    · exact isDatumMembers_iff.1 (isDatumMembers_of_canonicalMembers? h) m hm
  | unreadable => simp [canonical?] at h

theorem isDatumList_of_canonicalList? {js js' : List Json} (h : canonicalList? js = some js') :
    IsDatumList js' := by
  match js with
  | [] =>
    simp only [canonicalList?, Option.some.injEq] at h
    subst h
    trivial
  | j :: js =>
    simp only [canonicalList?, Option.bind_eq_some_iff, Option.map_eq_some_iff] at h
    obtain ⟨j', hj, js', hjs, rfl⟩ := h
    exact ⟨isDatum_of_canonical? hj, isDatumList_of_canonicalList? hjs⟩

theorem isDatumMembers_of_canonicalMembers? {ms ms' : List (String × Json)}
    (h : canonicalMembers? ms = some ms') : IsDatumMembers ms' := by
  match ms with
  | [] =>
    simp only [canonicalMembers?, Option.some.injEq] at h
    subst h
    trivial
  | m :: ms =>
    simp only [canonicalMembers?, Option.bind_eq_some_iff, Option.map_eq_some_iff] at h
    obtain ⟨j', hj, ms', hms, rfl⟩ := h
    exact ⟨isDatum_of_canonical? hj, isDatumMembers_of_canonicalMembers? hms⟩

end

end Json

/-- A JSON value: readable throughout, the members of each object in the order of their names. -/
structure Datum where
  /-- The value. -/
  json : Json
  /-- It is readable, and its members are in order. -/
  isDatum : json.IsDatum

namespace Datum

/-- The value `null`. -/
def null : Datum := ⟨.null, trivial⟩

/-- The object without members. -/
def emptyObject : Datum := ⟨.object [], List.Pairwise.nil, trivial⟩

instance : Inhabited Datum := ⟨null⟩

end Datum

/-- Reads a value that may be anything. -/
def Json.datum? (j : Json) : Option Datum :=
  match h : j.canonical? with
  | some j' => some ⟨j', Json.isDatum_of_canonical? h⟩
  | none => none

end WorkflowRuns
