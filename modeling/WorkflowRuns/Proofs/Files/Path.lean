import WorkflowRuns.Files.Disk

/-!
# Where paths lead

A path leads from a directory to a place, name by name: `.` stays and `..` goes up (`resolve`). A
name without a slash that is joined to a path leads one name further (`resolve_join`), and if it is
an ordinary name (`Component`), one directory down.
-/

namespace WorkflowRuns

namespace Path

/-- Where a name leads from a place. -/
def descend (here : Place) (name : String) : Place :=
  if name = "" ∨ name = "." then here
  else if name = ".." then here.dropLast
  else here ++ [name]

/-- Where names lead from a place, one after the other. -/
def descendAll (here : Place) (names : List String) : Place := names.foldl descend here

/-- Where a path leads from a directory, without a look at what is there. -/
def resolve (here : Place) (path : String) : Place :=
  descendAll (if isAbsolute path then [] else here) ((split path.toList).map String.ofList)

/-- An ordinary name: it names something in a directory, and not the directory or the one above. -/
structure Component (name : String) : Prop where
  nonempty : name ≠ ""
  noSlash : '/' ∉ name.toList
  noNul : '\x00' ∉ name.toList
  notHere : name ≠ "."
  notUp : name ≠ ".."

instance (name : String) : Decidable (Component name) :=
  decidable_of_iff
    (name ≠ "" ∧ '/' ∉ name.toList ∧ '\x00' ∉ name.toList ∧ name ≠ "." ∧ name ≠ "..")
    ⟨fun ⟨nonempty, noSlash, noNul, notHere, notUp⟩ => ⟨nonempty, noSlash, noNul, notHere, notUp⟩,
      fun h => ⟨h.nonempty, h.noSlash, h.noNul, h.notHere, h.notUp⟩⟩

theorem Component.descend {name : String} (h : Component name) (here : Place) :
    Path.descend here name = here ++ [name] := by
  simp [Path.descend, h.nonempty, h.notHere, h.notUp]

/-! ## Pieces of joined paths -/

theorem split_ne_nil (cs : List Char) : split cs ≠ [] := by
  induction cs with
  | nil => simp [split]
  | cons c cs ih =>
    unfold split
    split
    · simp
    · split <;> simp

theorem split_append_slash (cs ds : List Char) :
    split (cs ++ '/' :: ds) = split cs ++ split ds := by
  induction cs with
  | nil => simp [split]
  | cons c cs ih =>
    by_cases hc : c = '/'
    · simp [split, hc, ih]
    · obtain ⟨s, ss, hs⟩ := List.exists_cons_of_ne_nil (split_ne_nil cs)
      simp [split, hc, ih, hs]

theorem split_eq_singleton {cs : List Char} (h : '/' ∉ cs) : split cs = [cs] := by
  induction cs with
  | nil => rfl
  | cons c cs ih =>
    obtain ⟨hc, hcs⟩ := not_or.1 (mt List.mem_cons.2 h)
    simp [split, Ne.symm hc, ih hcs]

theorem isAbsolute_append {base : String} (h : base ≠ "") (rest : String) :
    isAbsolute (base ++ rest) = isAbsolute base := by
  have hne : base.toList ≠ [] := by
    intro hnil
    exact h (String.toList_eq_nil_iff.1 hnil)
  obtain ⟨c, cs, hbase⟩ := List.exists_cons_of_ne_nil hne
  simp [isAbsolute, hbase]

theorem not_isAbsolute_of_noSlash {name : String} (h : '/' ∉ name.toList) :
    isAbsolute name = false := by
  unfold isAbsolute
  rw [decide_eq_false_iff_not]
  intro hhead
  exact h (List.mem_of_mem_head? hhead)

variable {name : String} (h : '/' ∉ name.toList) (here : Place)
include h

theorem resolve_of_noSlash : resolve here name = descend here name := by
  unfold resolve
  rw [not_isAbsolute_of_noSlash h, split_eq_singleton h, List.map_singleton, String.ofList_toList]
  rfl

/-- A path leads where what stands before its last slash leads, and from there on to the rest. -/
theorem resolve_of_slash {path : String} {front : List Char}
    (hpath : path.toList = front ++ '/' :: name.toList) :
    resolve here path = descend (descendAll (if isAbsolute path then [] else here)
      ((split front).map String.ofList)) name := by
  unfold resolve
  rw [hpath, split_append_slash, split_eq_singleton h, List.map_append, descendAll,
    List.foldl_append, List.map_singleton, String.ofList_toList]
  rfl

/-- A name that is joined to a path leads on from where the path leads. -/
theorem resolve_join (base : String) :
    resolve here (join base name) = descend (resolve here base) name := by
  unfold join
  rw [not_isAbsolute_of_noSlash h, if_neg Bool.false_ne_true]
  by_cases hempty : base = ""
  · rw [if_pos (.inl hempty), hempty, String.empty_append, resolve_of_noSlash h]
    rfl
  by_cases hslash : base.toList.getLast? = some '/'
  · rw [if_pos (.inr hslash)]
    -- the path ends in a slash, and so leads to where it leads without
    obtain ⟨front, hfront⟩ := List.getLast?_eq_some_iff.1 hslash
    have hnothing : '/' ∉ "".toList := by simp
    have hbase : resolve here base = _ := resolve_of_slash hnothing here hfront
    have hjoined : (base ++ name).toList = front ++ '/' :: name.toList := by
      simp [hfront]
    rw [resolve_of_slash h here hjoined, hbase, isAbsolute_append hempty]
    rfl
  · rw [if_neg (not_or.2 ⟨hempty, hslash⟩)]
    have hjoined : (base ++ ("/" ++ name)).toList = base.toList ++ '/' :: name.toList := by
      simp
    rw [resolve_of_slash h here hjoined, isAbsolute_append hempty]
    rfl

end Path

namespace Disk

@[simp] theorem node?_root (d : Disk) : d.node? [] = some .directory := by
  simp [node?]

theorem node?_put {p : Place} (hp : p ≠ []) (d : Disk) (n : Node) (q : Place) :
    (d.put p n).node? q = if q = p then some n else d.node? q := by
  unfold node? put
  by_cases hq : q = []
  · rw [if_pos hq, if_pos hq, if_neg (by rw [hq]; exact Ne.symm hp)]
  · rw [if_neg hq, if_neg hq, Dict.get?_insert]

theorem node?_remove {p : Place} (hp : p ≠ []) (d : Disk) (q : Place) :
    (d.remove p).node? q = if q = p then none else d.node? q := by
  unfold node? remove
  by_cases hq : q = []
  · rw [if_pos hq, if_pos hq, if_neg (by rw [hq]; exact Ne.symm hp)]
  · rw [if_neg hq, if_neg hq, Dict.get?_erase]

theorem child_place {d : Disk} {here p : Place} {name : String} {n : Node}
    (h : d.child here name = .ok (p, n)) : p = here ++ [name] := by
  unfold child at h
  split at h
  · cases h
  split at h
  · cases h
  · cases h
    rfl

/-- Following names on a disk leads where the names lead, if it leads anywhere. -/
theorem enter_eq_descendAll {d : Disk} {here there : Place} {names : List String}
    (h : d.enter here names = .ok there) : there = Path.descendAll here names := by
  induction names generalizing here with
  | nil =>
    cases h
    rfl
  | cons name names ih =>
    show there = Path.descendAll (Path.descend here name) names
    unfold enter at h
    unfold Path.descend
    by_cases hstays : name = "" ∨ name = "."
    · rw [if_pos hstays] at h ⊢
      exact ih h
    by_cases hup : name = ".."
    · rw [if_neg hstays, if_pos hup] at h ⊢
      exact ih h
    rw [if_neg hstays, if_neg hup] at h ⊢
    split at h
    · cases h
    · rename_i hchild
      rw [child_place hchild] at h
      exact ih h
    · cases h

/-- There is a file at a place. -/
def HasFile (d : Disk) (p : Place) : Prop :=
  ∃ content isPrivate, d.node? p = some (.file content isPrivate)

theorem hasFile_put {p : Place} (hp : p ≠ []) (d : Disk) (content : ByteArray)
    (isPrivate : Bool) : (d.put p (.file content isPrivate)).HasFile p :=
  ⟨content, isPrivate, by rw [node?_put hp, if_pos rfl]⟩

end Disk

end WorkflowRuns
