import WorkflowRuns.Proofs.Files.Names
import WorkflowRuns.Proofs.Json.Codec
import WorkflowRuns.Proofs.Json.RoundTrip

/-!
# What was saved is loaded

A file is written where there is a file or nothing, so no directory on the way to it changes, and
the path leads to it afterwards (`read_of_write`). Its bytes are those of a text, and the text is
that of a value, so what was saved is loaded as it was (`loadJson_of_saveJson`).
-/

namespace WorkflowRuns.Disk

/-- The directories of a disk are there on another one. -/
def KeepsDirectories (d d' : Disk) : Prop :=
  ∀ p, d.node? p = some .directory → d'.node? p = some .directory

/-- Directories stay when something is put where there is none. -/
theorem keepsDirectories_put {d : Disk} {p : Place} (hp : d.node? p ≠ some .directory) (n : Node) :
    d.KeepsDirectories (d.put p n) := by
  intro q hq
  have hroot : p ≠ [] := by
    rintro rfl
    exact hp d.node?_root
  have hne : q ≠ p := by
    rintro rfl
    exact hp hq
  rw [node?_put hroot, if_neg hne, hq]

/-- Directories stay when something else is taken away. -/
theorem keepsDirectories_remove {d : Disk} {p : Place} (hp : d.node? p ≠ some .directory) :
    d.KeepsDirectories (d.remove p) := by
  intro q hq
  have hroot : p ≠ [] := by
    rintro rfl
    exact hp d.node?_root
  have hne : q ≠ p := by
    rintro rfl
    exact hp hq
  rw [node?_remove hroot, if_neg hne, hq]

section

variable {d d' : Disk} (hkept : d.KeepsDirectories d')
include hkept

theorem KeepsDirectories.child {here next : Place} {name : String}
    (h : d.child here name = .ok (next, .directory)) :
    d'.child here name = .ok (next, .directory) := by
  unfold Disk.child at h ⊢
  split at h
  · cases h
  · rename_i hshort
    rw [if_neg hshort]
    split at h
    · cases h
    · rename_i hnode
      cases h
      rw [hkept _ hnode]

/-- Names that lead through directories lead there still. -/
theorem KeepsDirectories.enter {here there : Place} {names : List String}
    (h : d.enter here names = .ok there) : d'.enter here names = .ok there := by
  induction names generalizing here with
  | nil => exact h
  | cons name names ih =>
    unfold Disk.enter at h ⊢
    by_cases hstays : name = "" ∨ name = "."
    · rw [if_pos hstays] at h ⊢
      exact ih h
    by_cases hup : name = ".."
    · rw [if_neg hstays, if_pos hup] at h ⊢
      exact ih h
    rw [if_neg hstays, if_neg hup] at h ⊢
    split at h
    · cases h
    · rename_i next hchild
      rw [hkept.child hchild]
      exact ih h
    · cases h

theorem KeepsDirectories.map_enter {here : Place} {names : List String} {ending : Ending}
    {f : Place → Ending} (h : (d.enter here names).map f = .ok ending) :
    (d'.enter here names).map f = .ok ending := by
  cases hthere : d.enter here names with
  | error e =>
    rw [hthere] at h
    cases h
  | ok there =>
    rw [hkept.enter hthere]
    rwa [hthere] at h

theorem KeepsDirectories.follow {path : String} {ending : Ending}
    (h : d.follow path = .ok ending) : d'.follow path = .ok ending := by
  rcases follow_form path with ⟨e, hrefused⟩ | ⟨names, f, hform⟩
  · rw [hrefused] at h
    cases h
  · rw [hform] at h ⊢
    exact hkept.map_enter h

end

/-- Where a file can be written there is no directory, and the path leads to a name there. -/
theorem openToWrite_ok {d : Disk} {path : String} {p : Place} (h : d.openToWrite path = .ok p) :
    ∃ directory name, d.follow path = .ok (.name directory name false) ∧ p = directory ++ [name] ∧
      ¬ longestName < name.utf8ByteSize ∧ d.node? p ≠ some .directory := by
  unfold openToWrite at h
  split at h
  · cases h
  · cases h
  rename_i directory name slash hfollow
  cases slash with
  | true => cases h
  | false =>
    refine ⟨directory, name, hfollow, ?_⟩
    rw [if_neg Bool.false_ne_true] at h
    unfold child at h
    by_cases hlong : longestName < name.utf8ByteSize
    · rw [if_pos hlong] at h
      cases h
    · rw [if_neg hlong] at h
      cases hnode : d.node? (directory ++ [name]) with
      | none =>
        rw [hnode] at h
        cases h
        exact ⟨rfl, hlong, by rw [hnode]; exact nofun⟩
      | some n =>
        rw [hnode] at h
        cases n with
        | directory => cases h
        | file content isPrivate =>
          cases h
          exact ⟨rfl, hlong, by rw [hnode]; exact nofun⟩

/-- A file is written where its path leads. -/
theorem openToWrite_place {d : Disk} {path : String} {p : Place} (h : d.openToWrite path = .ok p) :
    p = Path.resolve [] path ∧ p ≠ [] := by
  obtain ⟨directory, name, hfollow, rfl, -, -⟩ := openToWrite_ok h
  rw [resolve_of_follow hfollow]
  simp

/-- A file is put where a path is opened for writing, whoever may read it. -/
theorem putOpened_ok {d d' : Disk} {path : String} {content : ByteArray}
    (isPrivate : Place → Bool)
    (h : (d.openToWrite path).map (fun p => d.put p (.file content (isPrivate p))) = .ok d') :
    d.openToWrite path = .ok (Path.resolve [] path) ∧
      d' = d.put (Path.resolve [] path) (.file content (isPrivate (Path.resolve [] path))) := by
  cases hopen : d.openToWrite path with
  | error e => simp [hopen, Except.map] at h
  | ok p =>
    obtain ⟨rfl, -⟩ := openToWrite_place hopen
    simp only [hopen, Except.map, Except.ok.injEq] at h
    exact ⟨rfl, h.symm⟩

/-- What was put where a path is opened for writing is read from it. -/
theorem read_of_put {d : Disk} {path : String} {p : Place} (hopen : d.openToWrite path = .ok p)
    (content : ByteArray) (isPrivate : Bool) :
    (d.put p (.file content isPrivate)).read path = .ok content := by
  obtain ⟨directory, name, hfollow, hp, hshort, hnode⟩ := openToWrite_ok hopen
  have hroot : p ≠ [] := by
    rw [hp]
    simp
  have hput : (d.put p (.file content isPrivate)).node? p = some (.file content isPrivate) := by
    rw [node?_put hroot, if_pos rfl]
  have hthere := (keepsDirectories_put hnode (.file content isPrivate)).follow hfollow
  have hchild : (d.put p (.file content isPrivate)).child directory name =
      .ok (p, .file content isPrivate) := by
    unfold child
    rw [if_neg hshort, ← hp, hput]
  simp [read, find, hthere, hchild]

/-- What was written to a file is read from it. -/
theorem read_of_write {d d' : Disk} {path : String} {content : ByteArray}
    (h : d.write path content = .ok d') : d'.read path = .ok content := by
  obtain ⟨hopen, rfl⟩ := putOpened_ok d.isPrivate h
  exact read_of_put hopen content _

/-- The bytes of a text are those of no other text. -/
theorem fromUTF8?_toUTF8 (text : String) : String.fromUTF8? text.toUTF8 = some text := by
  have hvalid : text.toUTF8.IsValidUTF8 := text.isValidUTF8
  rw [String.fromUTF8?, dif_pos hvalid]
  rfl

theorem readText_of_read {d : Disk} {path text : String} (h : d.read path = .ok text.toUTF8) :
    d.readText path = .ok text := by
  unfold readText
  rw [h]
  simp only [fromUTF8?_toUTF8]

theorem readTextIfAny_of_read {d : Disk} {path text : String}
    (h : d.read path = .ok text.toUTF8) : d.readTextIfAny path = .ok text := by
  unfold readTextIfAny
  rw [readText_of_read h]

theorem readText_of_write {d d' : Disk} {path text : String}
    (h : d.write path text.toUTF8 = .ok d') : d'.readText path = .ok text :=
  readText_of_read (read_of_write h)

theorem withParent_cases {d d' : Disk} {path : String} {r : Except Failure Unit}
    {act : Disk → Except Failure Unit × Disk} (h : d.withParent path act = (r, d')) :
    (∃ f, d.makeParent path = (.error f, d') ∧ r = .error f) ∨
      ∃ made, d.makeParent path = (.ok (), made) ∧ act made = (r, d') := by
  unfold withParent at h
  split at h
  · rename_i made hmade
    exact .inr ⟨made, hmade, h⟩
  · rename_i f made hmade
    cases h
    exact .inl ⟨f, hmade, rfl⟩

theorem attempt_cases {context : String} {d d' : Disk} {r : Except OsError Disk}
    {r' : Except Failure Unit} (h : attempt context d r = (r', d')) :
    (∃ e, r = .error e ∧ r' = .error ⟨[context], .os e⟩ ∧ d' = d) ∨
      r = .ok d' ∧ r' = .ok () := by
  unfold attempt at h
  split at h
  · cases h
    exact .inr ⟨rfl, rfl⟩
  · rename_i e
    cases h
    exact .inl ⟨e, rfl, rfl, rfl⟩

theorem attempt_ok {context : String} {d d' : Disk} {r : Except OsError Disk}
    (h : attempt context d r = (.ok (), d')) : r = .ok d' := by
  rcases attempt_cases h with ⟨e, -, hrefused, -⟩ | ⟨hr, -⟩
  · cases hrefused
  · exact hr

theorem withParent_ok {d d' : Disk} {path : String} {act : Disk → Except Failure Unit × Disk}
    (h : d.withParent path act = (.ok (), d')) : ∃ made, act made = (.ok (), d') := by
  rcases withParent_cases h with ⟨f, -, hrefused⟩ | ⟨made, -, hact⟩
  · cases hrefused
  · exact ⟨made, hact⟩

/-- A value that was saved in a lossless form is loaded as it was, if its text gives it back. -/
theorem loadJson_of_saveJson {α : Type} {write : α → Json} {read : Json → Option α}
    (hlossless : Json.Lossless write read) {a : α} (hexact : (write a).Exact Json.deepest)
    {d d' : Disk} {path : String} (h : d.saveJson path (write a) = (.ok (), d')) :
    d'.loadJson path read = .ok a := by
  obtain ⟨made, hmade⟩ := withParent_ok h
  have htext := readText_of_write (attempt_ok hmade)
  unfold loadJson
  rw [htext]
  simp only [Json.parse?_pretty hexact, Option.bind_some, hlossless a]

end WorkflowRuns.Disk
