import WorkflowRuns.Dict.Lemmas
import WorkflowRuns.Json.Numeral

/-!
# Records as JSON objects

A record is written as an object whose members are named fields, and read back field by field. A
field may be left out when it is written, and reading gives a field that is missing its default.
Members that are no field are ignored; a field that comes twice is an error. Reading also takes an
array with the values of the fields, in their order.
-/

namespace WorkflowRuns.Json

/-! ## Plain values -/

/-- Reads a string. -/
def asString? : Json → Option String
  | string s => some s
  | _ => none

/-- Reads a truth value. -/
def asBool? : Json → Option Bool
  | bool b => some b
  | _ => none

/-- Reads a natural number that fits into 32 bits. -/
def asUInt32? : Json → Option UInt32
  | number (.int i) => if 0 ≤ i ∧ i < 0x100000000 then some (.ofNat i.toNat) else none
  | _ => none

/-- Reads each item of a list; there is no result if one cannot be read. -/
def readAll? {α β : Type} (read : α → Option β) : List α → Option (List β)
  | [] => some []
  | a :: as => (read a).bind fun b => (readAll? read as).map (b :: ·)

/-- Reads an array, item by item. -/
def asList? {α : Type} (read : Json → Option α) : Json → Option (List α)
  | array items => readAll? read items
  | _ => none

/-- Reads an object as a map from names, of members with one name taking the last. -/
def asDict? {α : Type} (read : Json → Option α) : Json → Option (Dict String α)
  | object members =>
    (readAll? (fun m : String × Json => (read m.2).map (m.1, ·)) members).map Dict.ofList
  | _ => none

/-- Reads the word of a choice: a string, or an object with the word as the name of its one member
and nothing as its value. -/
def asWord? {α : Type} (ofWord : String → Option α) : Json → Option α
  | string s => ofWord s
  | object [(s, null)] => ofWord s
  | _ => none

/-- The number that a value is, as a double. -/
def asBinary64? : Json → Option Binary64
  | number n => n.toBinary64?
  | _ => none

/-- Writes a list as an array. -/
def ofList {α : Type} (write : α → Json) (l : List α) : Json := .array (l.map write)

/-- Writes a map as an object. -/
def ofDict {α : Type} (write : α → Json) (d : Dict String α) : Json :=
  .object (d.map write).entries

/-- Writes a map of texts as an object. -/
def ofTexts (d : Dict String String) : Json := ofDict .string d

/-- Reads an object with texts as values. -/
def asTexts? (j : Json) : Option (Dict String String) := j.asDict? asString?

/-- A value that may be missing. -/
def ofOption {α : Type} (write : α → Json) : Option α → Json
  | none => .null
  | some a => write a

/-! ## Records -/

/-- A field of a record as it is written: its name and value, or nothing if it is left out. -/
abbrev Field := Option (String × Json)

/-- A field that is always written. -/
def field (name : String) (value : Json) : Field := some (name, value)

/-- A field that is left out under a condition. -/
def fieldUnless (skip : Bool) (name : String) (value : Json) : Field :=
  if skip then none else some (name, value)

/-- The members of a record, from its fields. -/
def members : List Field → Dict String Json
  | [] => ∅
  | none :: fs => members fs
  | some (name, value) :: fs => (members fs).insert name value

/-- Writes a record. -/
def record (fs : List Field) : Json := .object (members fs).entries

/-- The fields of a record with their names: the members of an object, or the items of an array,
which has values for the fields in their order and may end early. -/
def fields? (names : List String) : Json → Option (List (String × Json))
  | object members => some members
  | array items => if items.length ≤ names.length then some (names.zip items) else none
  | _ => none

/-- Looks for a field: no answer if it comes twice, otherwise its value if it comes at all. -/
def lookUp? (name : String) : List (String × Json) → Option (Option Json)
  | [] => some none
  | (n, j) :: ms =>
    match lookUp? name ms with
    | none => none
    | some none => some (if n = name then some j else none)
    | some (some j') => if n = name then none else some (some j')

/-- Reads a field that has to be there. -/
def required? {α : Type} (ms : List (String × Json)) (name : String) (read : Json → Option α) :
    Option α :=
  (lookUp? name ms).bind fun j => j.bind read

/-- Reads a field that has a default. -/
def defaulted? {α : Type} (ms : List (String × Json)) (name : String) (read : Json → Option α)
    (default : α) : Option α :=
  (lookUp? name ms).bind fun j =>
    match j with
    | none => some default
    | some j => read j

/-- Reads a field that may be missing or `null`. -/
def optional? {α : Type} (ms : List (String × Json)) (name : String) (read : Json → Option α) :
    Option (Option α) :=
  (lookUp? name ms).bind fun j =>
    match j with
    | none | some null => some none
    | some j => (read j).map some

end WorkflowRuns.Json
