import Mathlib.Data.List.Infix
import WorkflowRuns.Proofs.Files.Names

/-!
# Disks that grow

A disk grows if something is put where nothing was. Where names lead on the smaller disk they lead
on the larger one, and what refuses them there refuses them here, unless something was missing
(`GrowsTo.enter`).

A disk is a tree if all that is on it lies in directories (`IsTree`). On a tree, what is at a place
can be reached, as long as the path does not go up from a directory that is missing: there the
directory comes into being with others, and the path that was refused suddenly leads to what had
been there all the time (`Grounded.enter`).
-/

namespace WorkflowRuns

namespace Disk

open WorkflowRuns.Path

/-- What there is on a disk is on another one too, as it is. -/
def GrowsTo (d d' : Disk) : Prop := ∀ p n, d.node? p = some n → d'.node? p = some n

/-- Everything lies in a directory. -/
def IsTree (d : Disk) : Prop :=
  ∀ p name n, d.node? (p ++ [name]) = some n → d.node? p = some .directory

/-- A path does not go up from a directory that is missing. -/
def Grounded (d : Disk) (path : String) : Prop :=
  ∀ front back, names path = front ++ ".." :: back → d.enter [] front ≠ .error .notFound

/-! ## What is reached -/

theorem child_eq_ok_iff {d : Disk} {here p : Place} {name : String} {n : Node} :
    d.child here name = .ok (p, n) ↔ name.utf8ByteSize ≤ longestName ∧ p = here ++ [name] ∧
      d.node? (here ++ [name]) = some n := by
  unfold child
  by_cases hlong : longestName < name.utf8ByteSize
  · rw [if_pos hlong]
    simp [Nat.not_le.2 hlong]
  · rw [if_neg hlong]
    cases d.node? (here ++ [name]) with
    | none => simp
    | some n' =>
      simp only [Except.ok.injEq, Prod.mk.injEq, Option.some.injEq]
      exact ⟨fun ⟨hp, hn⟩ => ⟨Nat.not_lt.1 hlong, hp.symm, hn⟩, fun ⟨_, hp, hn⟩ => ⟨hp.symm, hn⟩⟩

theorem child_of_node?_none {d : Disk} {here : Place} {name : String}
    (hshort : name.utf8ByteSize ≤ longestName) (hnone : d.node? (here ++ [name]) = none) :
    d.child here name = .error .notFound := by
  rw [child, if_neg (Nat.not_lt.2 hshort), hnone]

theorem enter_concat {d : Disk} {here there : Place} {front : List String}
    (hfront : d.enter here front = .ok there) (name : String) :
    d.enter here (front ++ [name]) = d.enter there [name] := by
  rw [enter_append, hfront]
  rfl

theorem enter_name_of_error {d : Disk} {here : Place} {name : String} {e : OsError}
    (hstays : name ≠ "" ∧ name ≠ ".") (hup : name ≠ "..") (h : d.child here name = .error e) :
    d.enter here [name] = .error e := by
  simp only [enter, if_neg (not_or.2 hstays), if_neg hup, h]

theorem enter_name_of_file {d : Disk} {here p : Place} {name : String} {content : ByteArray}
    {isPrivate : Bool} (hstays : name ≠ "" ∧ name ≠ ".") (hup : name ≠ "..")
    (h : d.child here name = .ok (p, .file content isPrivate)) :
    d.enter here [name] = .error .notADirectory := by
  simp only [enter, if_neg (not_or.2 hstays), if_neg hup, h]

theorem enter_name_eq_ok_iff {d : Disk} {here there : Place} {name : String}
    (hstays : name ≠ "" ∧ name ≠ ".") (hup : name ≠ "..") :
    d.enter here [name] = .ok there ↔ name.utf8ByteSize ≤ longestName ∧ there = here ++ [name] ∧
      d.node? (here ++ [name]) = some .directory := by
  have hchild : d.child here name = .ok (there, .directory) ↔ _ := child_eq_ok_iff
  rw [← hchild]
  simp only [enter, if_neg (not_or.2 hstays), if_neg hup]
  cases d.child here name with
  | error e => simp
  | ok next =>
    obtain ⟨next, n⟩ := next
    cases n <;> simp

theorem enter_concat_eq_ok_iff {d : Disk} {here there : Place} {names : List String}
    {name : String} : d.enter here (names ++ [name]) = .ok there ↔
      ∃ next, d.enter here names = .ok next ∧ d.enter next [name] = .ok there := by
  rw [enter_append]
  cases d.enter here names with
  | error e => simp [Except.bind]
  | ok next => simp [Except.bind]

theorem enter_of_front {d : Disk} {here there : Place} {front names : List String}
    (hfront : front <+: names) (h : d.enter here names = .ok there) :
    ∃ next, d.enter here front = .ok next := by
  obtain ⟨rest, rfl⟩ := hfront
  rw [enter_append] at h
  cases hnext : d.enter here front with
  | error e =>
    rw [hnext] at h
    cases h
  | ok next => exact ⟨next, rfl⟩

/-- Names that do not lead on refuse everything behind them for the same reason. -/
theorem enter_error_of_front {d : Disk} {here : Place} {front names : List String} {e : OsError}
    (hfront : front <+: names) (h : d.enter here front = .error e) :
    d.enter here names = .error e := by
  obtain ⟨rest, rfl⟩ := hfront
  rw [enter_append, h]
  rfl

/-! ## Growing -/

theorem GrowsTo.refl (d : Disk) : d.GrowsTo d := fun _ _ h => h

theorem GrowsTo.trans {d d' d'' : Disk} (h : d.GrowsTo d') (h' : d'.GrowsTo d'') :
    d.GrowsTo d'' := fun p n hp => h' p n (h p n hp)

theorem growsTo_put {d : Disk} {p : Place} (h : d.node? p = none) (n : Node) :
    d.GrowsTo (d.put p n) := by
  intro q m hq
  have hp : p ≠ [] := by
    rintro rfl
    simp at h
  have hne : q ≠ p := by
    rintro rfl
    rw [h] at hq
    cases hq
  rw [node?_put hp, if_neg hne, hq]

theorem ok_ne_error {α : Type} (a : α) (e : OsError) : Except.ok a ≠ Except.error e := by
  simp

section

variable {d d' : Disk} (h : d.GrowsTo d')
include h

theorem GrowsTo.child {here : Place} {name : String} {r : Except OsError (Place × Node)}
    (hr : r ≠ .error .notFound) (hchild : d.child here name = r) : d'.child here name = r := by
  unfold Disk.child at hchild ⊢
  split at hchild
  · rename_i hlong
    rwa [if_pos hlong]
  · rename_i hshort
    rw [if_neg hshort]
    split at hchild
    · exact absurd hchild.symm hr
    · rename_i n hn
      rwa [h _ n hn]

theorem GrowsTo.enter {here : Place} {names : List String} {r : Except OsError Place}
    (hr : r ≠ .error .notFound) (henter : d.enter here names = r) : d'.enter here names = r := by
  -- along the names: what is met on the way is not missing, so it is met again
  induction names generalizing here with
  | nil => exact henter
  | cons name names ih =>
    unfold Disk.enter at henter ⊢
    by_cases hstays : name = "" ∨ name = "."
    · rw [if_pos hstays] at henter ⊢
      exact ih henter
    by_cases hup : name = ".."
    · rw [if_neg hstays, if_pos hup] at henter ⊢
      exact ih henter
    rw [if_neg hstays, if_neg hup] at henter ⊢
    cases hchild : d.child here name with
    | error e =>
      rw [hchild] at henter
      have hne : (.error e : Except OsError (Place × Node)) ≠ .error .notFound := by
        rintro heq
        cases heq
        exact hr henter.symm
      rw [h.child hne hchild]
      exact henter
    | ok next =>
      rw [hchild] at henter
      rw [h.child (ok_ne_error next _) hchild]
      obtain ⟨next, n⟩ := next
      cases n with
      | directory => exact ih henter
      | file content isPrivate => exact henter

theorem GrowsTo.grounded {path : String} (hground : d.Grounded path) : d'.Grounded path := by
  intro front back hnames hmissing
  have hne := hground front back hnames
  rw [h.enter hne rfl] at hmissing
  exact hne hmissing

end

/-! ## Trees -/

instance (d : Disk) : Decidable d.IsTree :=
  decidable_of_iff (∀ e ∈ d.nodes.entries, d.node? e.1.dropLast = some .directory) <| by
    constructor
    · intro h p name n hn
      have hmem : (p ++ [name], n) ∈ d.nodes.entries := by
        refine Dict.mem_of_get? ?_
        simpa [node?] using hn
      simpa using h _ hmem
    · intro h e he
      rcases List.eq_nil_or_concat' e.1 with hroot | ⟨p, name, hp⟩
      · simp [hroot]
      · have hn : d.node? (p ++ [name]) = some e.2 := by
          have hget : d.nodes.get? e.1 = some e.2 := Dict.get?_eq_some_iff.2 he
          simpa [node?, hp] using hget
        rw [hp, List.dropLast_concat]
        exact h p name e.2 hn

/-- Something can be put into a directory, and over what is not a directory itself. -/
theorem IsTree.put {d : Disk} (h : d.IsTree) {directory : Place} {name : String}
    (hdirectory : d.node? directory = some .directory)
    (hname : d.node? (directory ++ [name]) ≠ some .directory) (n : Node) :
    (d.put (directory ++ [name]) n).IsTree := by
  have hne : directory ++ [name] ≠ [] := by simp
  intro p s m hm
  rw [node?_put hne] at hm ⊢
  by_cases hplace : p ++ [s] = directory ++ [name]
  · obtain ⟨rfl, -⟩ := List.append_inj' hplace rfl
    rw [if_neg (by simp), hdirectory]
  · rw [if_neg hplace] at hm
    have hp := h p s m hm
    have hother : p ≠ directory ++ [name] := by
      rintro rfl
      exact hname hp
    rw [if_neg hother, hp]

/-- Names lead to directories only. -/
theorem IsTree.enter {d : Disk} (h : d.IsTree) {here there : Place} {names : List String}
    (hhere : d.node? here = some .directory) (henter : d.enter here names = .ok there) :
    d.node? there = some .directory := by
  induction names generalizing here with
  | nil =>
    cases henter
    exact hhere
  | cons name names ih =>
    unfold Disk.enter at henter
    by_cases hstays : name = "" ∨ name = "."
    · rw [if_pos hstays] at henter
      exact ih hhere henter
    by_cases hup : name = ".."
    · rw [if_neg hstays, if_pos hup] at henter
      rcases List.eq_nil_or_concat' here with rfl | ⟨p, s, rfl⟩
      · exact ih hhere henter
      · rw [List.dropLast_concat] at henter
        exact ih (h p s _ hhere) henter
    rw [if_neg hstays, if_neg hup] at henter
    split at henter
    · cases henter
    · rename_i next hchild
      obtain ⟨-, rfl, hnext⟩ := child_eq_ok_iff.1 hchild
      exact ih hnext henter
    · cases henter

/-! ## Paths that go up only from what is there -/

instance (d : Disk) (path : String) : Decidable (d.Grounded path) :=
  decidable_of_iff (∀ front ∈ (names path).inits, front ++ [".."] <+: names path →
      d.enter [] front ≠ .error .notFound) <| by
    constructor
    · intro h front back hnames
      have hshorter : front ++ [".."] <+: names path := ⟨back, by simp [hnames]⟩
      exact h front ((List.mem_inits _ _).2 ((List.prefix_append front [".."]).trans hshorter))
        hshorter
    · intro h front _ hshorter
      obtain ⟨back, hback⟩ := hshorter
      exact h front back (by simp [← hback])

theorem Grounded.above {d : Disk} {path above : String} (h : d.Grounded path)
    (habove : names above <+: names path) : d.Grounded above := by
  intro front back hnames
  obtain ⟨rest, hrest⟩ := habove
  exact h front (back ++ rest) (by simp [← hrest, hnames])

/-- A directory that names lead to when a disk has grown could be reached by them before, if it was
there. -/
theorem Grounded.enter {d d' : Disk} {path : String} (hground : d.Grounded path) (htree : d.IsTree)
    (hgrow : d.GrowsTo d') {front : List String} (hfront : front <+: names path) {there : Place}
    (henter : d'.enter [] front = .ok there) (hthere : d.node? there = some .directory) :
    d.enter [] front = .ok there := by
  induction front using List.reverseRecOn generalizing there with
  | nil => exact henter
  | append_singleton front name ih =>
    obtain ⟨next, hnext, hlast⟩ := enter_concat_eq_ok_iff.1 henter
    have hinit : front <+: names path := (List.prefix_append front [name]).trans hfront
    by_cases hup : name = ".."
    · -- the directory from which the path goes up was not missing, so it was the same
      obtain ⟨back, hback⟩ := hfront
      have hfound : d.enter [] front ≠ .error .notFound :=
        hground front back (by simp [← hback, hup])
      have hsame := hgrow.enter hfound rfl
      refine enter_concat_eq_ok_iff.2 ⟨next, hsame.symm.trans hnext, ?_⟩
      rw [hup] at hlast ⊢
      exact hlast
    · have hmem : name ∈ names path := hfront.subset (by simp)
      obtain ⟨hshort, rfl, -⟩ := (enter_name_eq_ok_iff (ne_of_mem_namesIn hmem) hup).1 hlast
      have hbefore := ih hinit hnext (htree next name _ hthere)
      refine enter_concat_eq_ok_iff.2 ⟨next, hbefore, ?_⟩
      exact (enter_name_eq_ok_iff (ne_of_mem_namesIn hmem) hup).2 ⟨hshort, rfl, hthere⟩

end Disk

end WorkflowRuns
