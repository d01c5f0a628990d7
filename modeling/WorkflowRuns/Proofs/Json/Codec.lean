import WorkflowRuns.Proofs.Expression.Objects

/-!
# Reading back what is written

A codec is lossless if everything that it writes is read back as it was (`Lossless`). Lists and maps
inherit this from their items. A record is read back field by field: each field has its own name,
so its value is found under the name (`get?_members_field`), and a field that is left out has the
default that reading gives it (`Lossless.defaulted_unless`).

Whatever is written is readable throughout, with the members of each object in the order of their
names, if this is so of its parts (`isDatum_record`). Both together make a codec `Faithful`.
-/

namespace WorkflowRuns.Json

variable {α : Type}

/-- What is written is read back. -/
def Lossless (write : α → Json) (read : Json → Option α) : Prop := ∀ a, read (write a) = some a

/-! ## Plain values -/

theorem lossless_string : Lossless .string asString? := fun _ => rfl

theorem lossless_bool : Lossless .bool asBool? := fun _ => rfl

theorem lossless_uint32 : Lossless (fun n => .number (.int n.toNat)) asUInt32? := by
  intro n
  have hlt : ((n.toNat : Nat) : Int) < 0x100000000 := by
    have := n.toNat_lt
    omega
  simp [asUInt32?, hlt]

theorem readAll?_map {β : Type} {write : α → β} {read : β → Option α}
    (h : ∀ a, read (write a) = some a) (l : List α) : readAll? read (l.map write) = some l := by
  induction l with
  | nil => rfl
  | cons a l ih => simp [readAll?, h, ih]

theorem Lossless.ofList {write : α → Json} {read : Json → Option α} (h : Lossless write read) :
    Lossless (ofList write) (asList? read) := readAll?_map h

theorem Lossless.ofDict {write : α → Json} {read : Json → Option α} (h : Lossless write read) :
    Lossless (ofDict write) (asDict? read) := by
  intro d
  have hread : readAll? (fun m : String × Json => (read m.2).map (m.1, ·))
      (d.map write).entries = some d.entries :=
    readAll?_map (fun e => by simp [h e.2]) d.entries
  show (readAll? _ (d.map write).entries).map Dict.ofList = some d
  rw [hread, Option.map_some, Dict.ofList_entries]

theorem lossless_texts : Lossless ofTexts asTexts? := lossless_string.ofDict

/-! ## Values of any kind -/

mutual

/-- A value that is a datum already stays as it is. -/
theorem canonical?_eq_self {j : Json} (h : j.IsDatum) : j.canonical? = some j := by
  match j with
  | null | bool _ | number _ | string _ => rfl
  | array items => rw [canonical?, canonicalList?_eq_self h, Option.map_some]
  | object members =>
    rw [canonical?, canonicalMembers?_eq_self h.2, Option.map_some]
    exact congrArg (fun d => some (object (Dict.entries d))) (Dict.ofList_entries ⟨members, h.1⟩)

theorem canonicalList?_eq_self {js : List Json} (h : IsDatumList js) :
    canonicalList? js = some js := by
  match js with
  | [] => rfl
  | j :: js =>
    rw [canonicalList?, canonical?_eq_self h.1, canonicalList?_eq_self h.2]
    rfl

theorem canonicalMembers?_eq_self {ms : List (String × Json)} (h : IsDatumMembers ms) :
    canonicalMembers? ms = some ms := by
  match ms with
  | [] => rfl
  | m :: ms =>
    rw [canonicalMembers?, canonical?_eq_self h.1, canonicalMembers?_eq_self h.2]
    rfl

end

theorem lossless_datum : Lossless Datum.json datum? := by
  intro d
  unfold datum?
  split
  · rename_i j h
    obtain rfl : d.json = j := by simpa [canonical?_eq_self d.isDatum] using h
    rfl
  · rename_i h
    simp [canonical?_eq_self d.isDatum] at h

/-! ## Records -/

section Record

variable {name : String} {value : Json} {skip : Bool} {fs : List Field}

@[simp] theorem get?_members_nil (name : String) : (members []).get? name = none := rfl

@[simp] theorem get?_members_field (name' : String) :
    (members (field name value :: fs)).get? name' =
      if name' = name then some value else (members fs).get? name' :=
  Dict.get?_insert ..

@[simp] theorem get?_members_fieldUnless (name' : String) :
    (members (fieldUnless skip name value :: fs)).get? name' =
      if name' = name ∧ skip = false then some value else (members fs).get? name' := by
  cases skip
  · simp only [and_true]
    exact get?_members_field name'
  · simp [fieldUnless, members]

@[simp] theorem fields?_record (names : List String) (fs : List Field) :
    fields? names (record fs) = some (members fs).entries := rfl

variable {write : α → Json} {read : Json → Option α}

theorem Lossless.required (h : Lossless write read) (a : α)
    (hname : (members fs).get? name = some (write a)) :
    required? (members fs).entries name read = some a := by
  rw [required?, lookUp?_entries, hname]
  exact h a

/-- Reading goes on with a field that has to be there. -/
theorem Lossless.required_bind {β : Type} (h : Lossless write read) {a : α} {next : α → Option β}
    {b : β} (hname : (members fs).get? name = some (write a)) (hnext : next a = some b) :
    (required? (members fs).entries name read >>= next) = some b := by
  rw [h.required a hname]
  exact hnext

theorem Lossless.defaulted (h : Lossless write read) (a : α) {default : α}
    (hname : (members fs).get? name = some (write a)) :
    defaulted? (members fs).entries name read default = some a := by
  rw [defaulted?, lookUp?_entries, hname]
  exact h a

/-- A field that is left out reads as its default, so only that value may be left out. -/
theorem Lossless.defaulted_unless (h : Lossless write read) (skip : Bool) (a : α) {default : α}
    (hname : (members fs).get? name = if skip = false then some (write a) else none)
    (hskip : skip = true → a = default) :
    defaulted? (members fs).entries name read default = some a := by
  cases skip
  · exact h.defaulted a hname
  · rw [defaulted?, lookUp?_entries, hname, hskip rfl]
    rfl

theorem Lossless.optional (h : Lossless write read) (hnull : ∀ a, write a ≠ null) (a? : Option α)
    (hname : (members fs).get? name =
      if a?.isNone = false then some (ofOption write a?) else none) :
    optional? (members fs).entries name read = some a? := by
  rw [optional?, lookUp?_entries, hname]
  cases a? with
  | none => rfl
  | some a =>
    have hread := h a
    have hwritten : ofOption write (some a) = write a := rfl
    rw [Option.isNone_some, if_pos rfl, Option.bind_some, hwritten]
    cases hwrite : write a with
    | null => exact absurd hwrite (hnull a)
    | _ =>
      rw [hwrite] at hread
      exact congrArg (Option.map some) hread

end Record

/-! ## What is written is a value -/

theorem isDatumList_iff {js : List Json} : IsDatumList js ↔ ∀ j ∈ js, j.IsDatum := by
  induction js with
  | nil => simp [IsDatumList]
  | cons j js ih => simp [IsDatumList, ih]

@[simp] theorem isDatum_string (s : String) : (string s).IsDatum := trivial

@[simp] theorem isDatum_bool (b : Bool) : (bool b).IsDatum := trivial

@[simp] theorem isDatum_number (n : Number) : (number n).IsDatum := trivial

section Written

variable {write : α → Json}

theorem isDatum_ofList (h : ∀ a, (write a).IsDatum) (l : List α) :
    (ofList write l).IsDatum := by
  refine isDatumList_iff.2 fun j hj => ?_
  obtain ⟨a, -, rfl⟩ := List.mem_map.1 hj
  exact h a

theorem isDatum_ofDict (h : ∀ a, (write a).IsDatum) (d : Dict String α) :
    (ofDict write d).IsDatum := by
  refine ⟨(d.map write).sorted, isDatumMembers_iff.2 fun m hm => ?_⟩
  obtain ⟨e, -, rfl⟩ := List.mem_map.1 hm
  exact h e.2

theorem isDatum_ofTexts (d : Dict String String) : (ofTexts d).IsDatum :=
  isDatum_ofDict isDatum_string d

theorem isDatum_ofOption (h : ∀ a, (write a).IsDatum) (a? : Option α) :
    (ofOption write a?).IsDatum := by
  cases a? with
  | none => trivial
  | some a => exact h a

end Written

/-- The values of fields are values. -/
def AllDatum (fs : List Field) : Prop := ∀ f ∈ fs, ∀ m ∈ f, m.2.IsDatum

@[simp] theorem allDatum_nil : AllDatum [] := by simp [AllDatum]

@[simp] theorem allDatum_field {name : String} {value : Json} {fs : List Field} :
    AllDatum (field name value :: fs) ↔ value.IsDatum ∧ AllDatum fs := by
  simp [AllDatum, field]

@[simp] theorem allDatum_fieldUnless {skip : Bool} {name : String} {value : Json}
    {fs : List Field} :
    AllDatum (fieldUnless skip name value :: fs) ↔
      (skip = false → value.IsDatum) ∧ AllDatum fs := by
  cases skip <;> simp [AllDatum, fieldUnless]

theorem mem_of_mem_members {fs : List Field} {m : String × Json}
    (h : m ∈ (members fs).entries) : some m ∈ fs := by
  induction fs with
  | nil => cases h
  | cons f fs ih =>
    cases f with
    | none => exact List.mem_cons_of_mem _ (ih h)
    | some f =>
      rcases Dict.mem_place h with rfl | h
      · exact List.mem_cons_self
      · exact List.mem_cons_of_mem _ (ih h)

/-- A record is a value if its fields are. -/
theorem isDatum_record {fs : List Field} (h : AllDatum fs) : (record fs).IsDatum :=
  ⟨(members fs).sorted, isDatumMembers_iff.2 fun m hm => h _ (mem_of_mem_members hm) m rfl⟩

/-! ## Faithful codecs -/

/-- Nothing is lost and nothing is confused. -/
structure Faithful (write : α → Json) (read : Json → Option α) : Prop where
  /-- What is written is a value, each object with every name once. -/
  isDatum : ∀ a, (write a).IsDatum
  /-- It is read back as it was. -/
  lossless : Lossless write read
  /-- What was read from any value, however it was spelled, is read again once it is written. -/
  settled : ∀ j a, read j = some a → read (write a) = some a
  /-- Different things are written differently. -/
  injective : Function.Injective write

theorem Lossless.faithful {write : α → Json} {read : Json → Option α} (h : Lossless write read)
    (hdatum : ∀ a, (write a).IsDatum) : Faithful write read where
  isDatum := hdatum
  lossless := h
  settled _ a _ := h a
  injective a b heq := by
    have hread := congrArg read heq
    rw [h a, h b] at hread
    exact Option.some.inj hread

end WorkflowRuns.Json
