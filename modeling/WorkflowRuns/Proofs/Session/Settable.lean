import WorkflowRuns.Proofs.EnvironmentFile.Names
import WorkflowRuns.Proofs.Session.Exports
import WorkflowRuns.Proofs.Session.FileByFile

/-!
# Variables that an operating system takes

An operating system refuses some variables, and a call that sets one of them breaks off. What a step
writes is never refused, unless there is a NUL in it: the name of an entry is not empty and ends
before the first equals sign (`Entry.WellNamed`). So without a NUL nothing that is handed over is
refused (`settable_of_mem_assignments`), and taking over never breaks off (`takeOver_settable`).
-/

namespace WorkflowRuns

open EnvironmentFile

/-- A text without a NUL. -/
def NulFree (text : String) : Prop := '\x00' ∉ text.toList

/-- A variable that an operating system takes. -/
structure Settable (name value : String) : Prop where
  nonempty : name ≠ ""
  noEquals : '=' ∉ name.toList
  nulFreeName : NulFree name
  nulFreeValue : NulFree value

/-- An operating system takes these variables and no others. -/
theorem ProcessEnvironment.accepts_system_iff {vars : Variables} {name value : String} :
    (system vars).accepts name value = true ↔ Settable name value := by
  have haccepts : (system vars).accepts name value = true ↔
      ((name ≠ "" ∧ '=' ∉ name.toList) ∧ '\x00' ∉ name.toList) ∧ '\x00' ∉ value.toList := by
    simp [accepts, system, Variables.holdsName, Variables.holdsValue]
  rw [haccepts]
  constructor
  · rintro ⟨⟨⟨hnonempty, hequals⟩, hname⟩, hvalue⟩
    exact ⟨hnonempty, hequals, hname, hvalue⟩
  · intro h
    exact ⟨⟨⟨h.nonempty, h.noEquals⟩, h.nulFreeName⟩, h.nulFreeValue⟩

/-- Every store takes them. -/
theorem Settable.accepts {name value : String} (h : Settable name value) (p : ProcessEnvironment) :
    p.accepts name value = true := by
  obtain ⟨ofSystem, vars⟩ := p
  cases ofSystem with
  | false => rfl
  | true => exact ProcessEnvironment.accepts_system_iff.2 h

namespace PathList

/-- A search path consists of its parts and what stands between them. -/
theorem of_mem_append {c : Char} {path : String} {entries : List String}
    (h : c ∈ (append path entries).toList) :
    c = separator ∨ c ∈ path.toList ∨ ∃ entry ∈ entries, c ∈ entry.toList := by
  induction entries generalizing path with
  | nil => exact .inr (.inl h)
  | cons entry entries ih =>
    have hrest : c ∈ (append (add path entry) entries).toList := h
    rcases ih hrest with hsep | hpath | ⟨other, hother, hmem⟩
    · exact .inl hsep
    · have hadd : c ∈ (add path entry).toList →
          c = separator ∨ c ∈ path.toList ∨ c ∈ entry.toList := by
        unfold add
        split
        · exact fun h => .inr (.inl h)
        split
        · exact fun h => .inr (.inr h)
        · simp only [String.toList_append, List.mem_append, Char.toString, String.toList_singleton,
            List.mem_singleton]
          tauto
      rcases hadd hpath with hsep | hpath | hentry
      · exact .inl hsep
      · exact .inr (.inl hpath)
      · exact .inr (.inr ⟨entry, List.mem_cons_self, hentry⟩)
    · exact .inr (.inr ⟨other, List.mem_cons_of_mem _ hother, hmem⟩)

theorem nulFree_append {path : String} {entries : List String} (hpath : NulFree path)
    (hentries : ∀ entry ∈ entries, NulFree entry) : NulFree (append path entries) := by
  intro h
  rcases of_mem_append h with hsep | h | ⟨entry, hentry, h⟩
  · cases hsep
  · exact hpath h
  · exact hentries entry hentry h

end PathList

/-- Neither of the two files that set variables holds a NUL. -/
structure EnvironmentFiles.Contents.NulFree (c : EnvironmentFiles.Contents) : Prop where
  env : ∀ text, c.env = .ok text → WorkflowRuns.NulFree text
  path : ∀ text, c.path = .ok text → WorkflowRuns.NulFree text

namespace EnvironmentFile

variable {content : Except Failure String}

theorem entriesOf_eq_ok_iff {es : List Entry} :
    entriesOf content = .ok es ↔ ∃ text, content = .ok text ∧ entries text = .ok es := by
  cases content with
  | error => simp [entriesOf, Except.bind]
  | ok text => cases h : entries text <;> simp [entriesOf, Except.bind, Except.mapError, h]

theorem linesOf_eq_ok_iff {lines : List String} :
    linesOf content = .ok lines ↔ ∃ text, content = .ok text ∧ plainLines text = lines := by
  cases content <;> simp [linesOf, Except.map]

end EnvironmentFile

/-- The files alone never lead to a break. -/
theorem EnvironmentFiles.Contents.verdict_ne_aborted (c : EnvironmentFiles.Contents) :
    c.verdict ≠ .aborted := by
  rcases c.stopsAt_or_say with ⟨part, f, h⟩ | ⟨w, h⟩
  · rw [verdict_of_stopsAt h]
    exact Reply.noConfusion
  · rw [verdict_of_say h]
    exact Reply.noConfusion

namespace Session

variable {p : ProcessEnvironment} {c : EnvironmentFiles.Contents}

theorem settable_of_mem_entries {content : String} {es : List Entry}
    (h : entries content = .ok es) (hnul : NulFree content) :
    ∀ e ∈ es, Settable e.name e.value := by
  intro e he
  obtain ⟨hnamed, hfrom⟩ := wellNamed_of_mem_entries h he
  refine ⟨hnamed.nonempty, hnamed.noEquals, fun hname => hnul (hfrom.name hname), fun hvalue => ?_⟩
  rcases List.mem_cons.1 (hfrom.value hvalue) with hbreak | hvalue
  · cases hbreak
  · exact hnul hvalue

theorem settable_path {path : String} (h : NulFree path) : Settable pathName path where
  nonempty := by decide
  noEquals := by decide
  nulFreeName := by unfold NulFree; decide
  nulFreeValue := h

/-- What variables without a NUL leave of the search path holds none. -/
theorem nulFree_path_setAll {l : List (String × String)} (hl : ∀ e ∈ l, NulFree e.2)
    (hp : ∀ path, p.get? pathName = some path → NulFree path) {path : String}
    (h : (setAll p l).1.get? pathName = some path) : NulFree path := by
  rw [p.get?_setAll pathName_holdsName] at h
  rcases Option.or_eq_some_iff.1 h with hset | ⟨-, hbefore⟩
  · obtain ⟨e, he, hvalue⟩ := List.exists_of_findSome?_eq_some hset
    unfold assigned? at hvalue
    split at hvalue
    · cases hvalue
      exact hl e ((List.takeWhile_sublist _).subset (List.mem_reverse.1 he))
    · cases hvalue
  · exact hp path hbefore

/-- Contents without a NUL set variables that every operating system takes. -/
theorem settable_of_mem_assignments (hc : c.NulFree)
    (hp : ∀ path, p.get? pathName = some path → NulFree path) :
    ∀ e ∈ c.assignments p, Settable e.1 e.2 := by
  have hentries (es : List Entry) (hes : entriesOf c.env = .ok es) :
      ∀ e ∈ es, Settable e.name e.value := by
    obtain ⟨text, htext, hread⟩ := entriesOf_eq_ok_iff.1 hes
    exact settable_of_mem_entries hread (hc.env text htext)
  refine forall_mem_assignments (P := fun e => Settable e.1 e.2) hentries ?_
  intro es directories hes hdirectories
  refine settable_path (PathList.nulFree_append ?_ fun line hline hnul => ?_)
  · -- the search path as the entries leave it
    have hvalues : ∀ e ∈ pairs es, NulFree e.2 :=
      List.forall_mem_map.2 fun e he => (hentries es hes e he).nulFreeValue
    cases hget : (setAll p (pairs es)).1.get? pathName with
    | none => exact List.not_mem_nil
    | some path => exact nulFree_path_setAll hvalues hp hget
  · -- a directory
    obtain ⟨text, htext, rfl⟩ := linesOf_eq_ok_iff.1 hdirectories
    exact hc.path text htext ((subset_of_mem_plainLines hline).2 hnul)

/-- **What a step writes can be set.** A name of an entry is not empty and holds neither mark nor a
line break, and a NUL stands in an entry only if it stands in the file. So if neither the files nor
the search path hold a NUL, every variable that taking over sets is one that an operating system
takes, as opposed to all others. None is refused, whoever keeps the variables, and taking over does
not break off. -/
theorem takeOver_settable :
    (∀ content es, entries content = .ok es → ∀ e ∈ es, e.WellNamed ∧
        (¬ (NulFree e.name ∧ NulFree e.value) → ¬ NulFree content)) ∧
      ∀ (s : Session) (c : EnvironmentFiles.Contents), s.stepRun.isSome = true → c.NulFree →
        (∀ path, s.process.get? pathName = some path → NulFree path) →
        setAll s.process (c.assignments s.process) = ((s.takeOver c).session.process, true) ∧
          (∀ e ∈ c.assignments s.process, Settable e.1 e.2) ∧
          (∀ vars name value,
            (ProcessEnvironment.system vars).accepts name value = true ↔ Settable name value) ∧
          (s.takeOver c).reply ≠ .aborted := by
  refine ⟨fun content es h e he => ⟨(wellNamed_of_mem_entries h he).1, fun hnul hfree => ?_⟩,
    fun s c hs hc hp => ?_⟩
  · have he := settable_of_mem_entries h hfree e he
    exact hnul ⟨he.nulFreeName, he.nulFreeValue⟩
  · have hsettable := settable_of_mem_assignments hc hp
    have hall := setAll_of_accepts fun e he => (hsettable e he).accepts s.process
    have hprocess : (s.takeOver c).session.process =
        (setAll s.process (s.assignedBy (.takeOver c))).1 := process_perform s (.takeOver c)
    refine ⟨?_, hsettable, fun _ _ _ => ProcessEnvironment.accepts_system_iff, ?_⟩
    · rw [hprocess, assignedBy, if_pos hs, hall]
    · rw [takeOver_reply hs, hall]
      exact c.verdict_ne_aborted

/-- A value holds an equals sign and a name half of the other mark, in a process whose variables the
operating system keeps. -/
theorem takeOver_settable_angle_name :
    let s : Session := { start "/ghx" {} {} ∅ ∅ (.system (Dict.insert ∅ "PATH" "/bin")) with
      stepRun := some {} }
    let c : EnvironmentFiles.Contents :=
      ⟨.ok "A<=1\nB<<E\nx=y\nz\nE\n", .ok " /opt \n", .ok "", .ok ""⟩
    c.NulFree ∧ c.assignments s.process = [("A<", "1"), ("B", "x=y\nz"), ("PATH", "/bin:/opt")] ∧
      (∀ e ∈ c.assignments s.process, Settable e.1 e.2) ∧ (s.takeOver c).reply ≠ .aborted := by
  intro s c
  have hc : c.NulFree := by
    constructor <;> rintro text ⟨⟩ <;> unfold NulFree <;> decide
  have hp : ∀ path, s.process.get? pathName = some path → NulFree path := by
    have hget : s.process.get? pathName = some "/bin" := by decide +kernel
    intro path h
    obtain rfl := Option.some.inj (hget.symm.trans h)
    unfold NulFree
    decide
  obtain ⟨-, hsettable, -, hreply⟩ := takeOver_settable.2 s c rfl hc hp
  exact ⟨hc, by decide +kernel, hsettable, hreply⟩

end Session

end WorkflowRuns
