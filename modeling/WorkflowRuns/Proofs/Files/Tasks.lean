import WorkflowRuns.Proofs.Files.Directories
import WorkflowRuns.Proofs.Files.Saved
import WorkflowRuns.Report.Artifact

/-!
# What is done to a file

Whatever is done to a file changes nothing but this file, apart from the directories above it, which
are made first. If it is refused, these directories are all there is
(`FileTask.perform_onlyTouches`). What is kept is in its place afterwards (`Disk.hasFile_keep`).

A file that is there is left as it is by the task that makes sure that there is one, if its path
leads to it. A path that goes up from a missing directory does not, until the directory has been
made: then the file is written over (`FileTask.not_kept_above_missing`). On other paths it is safe
(`Disk.node?_of_openToWrite`).
-/

namespace WorkflowRuns

open WorkflowRuns.Path

namespace Disk

/-! ## Copying and removing -/

theorem find_file {d : Disk} {path : String} {p : Place} {content : ByteArray} {isPrivate : Bool}
    (h : d.find path = .ok (p, .file content isPrivate)) :
    p = resolve [] path ∧ d.node? p = some (.file content isPrivate) := by
  unfold find at h
  split at h
  · cases h
  · cases h
  rename_i directory name slash hfollow
  rw [resolve_of_follow hfollow]
  split at h
  · cases h
  · cases h
  rename_i q n _ hchild
  split at h
  · cases h
  · cases h
    obtain ⟨-, rfl, hn⟩ := child_eq_ok_iff.1 hchild
    exact ⟨rfl, hn⟩

/-- A path to a file leads to the file that is in its place, if what was a directory still is one. -/
theorem KeepsDirectories.find {d d' : Disk} (hkept : d.KeepsDirectories d') {path : String}
    {p : Place} {content content' : ByteArray} {isPrivate isPrivate' : Bool}
    (h : d.find path = .ok (p, .file content isPrivate))
    (hfile : d'.node? p = some (.file content' isPrivate')) :
    d'.find path = .ok (p, .file content' isPrivate') := by
  unfold Disk.find at h ⊢
  cases hfollow : d.follow path with
  | error e => simp [hfollow] at h
  | ok ending =>
    rw [hkept.follow hfollow]
    cases ending with
    | here directory => simp [hfollow] at h
    | name directory name slash =>
      simp only [hfollow] at h ⊢
      cases hchild : d.child directory name with
      | error e => simp [hchild] at h
      | ok found =>
        obtain ⟨q, n⟩ := found
        obtain ⟨hshort, rfl, hn⟩ := child_eq_ok_iff.1 hchild
        cases n with
        | directory => simp [hchild] at h
        | file old oldPrivate =>
          cases slash with
          | true => simp [hchild] at h
          | false =>
            simp only [hchild, Bool.false_eq_true, if_false, Except.ok.injEq, Prod.mk.injEq] at h
            obtain ⟨rfl, -⟩ := h
            simp only [child_eq_ok_iff.2 ⟨hshort, rfl, hfile⟩, Bool.false_eq_true, if_false]

theorem read_eq_ok_iff {d : Disk} {path : String} {content : ByteArray} :
    d.read path = .ok content ↔ ∃ isPrivate,
      d.find path = .ok (resolve [] path, .file content isPrivate) := by
  constructor
  · intro h
    unfold Disk.read at h
    split at h
    · cases h
    · cases h
    · rename_i p old isPrivate hfind
      cases h
      obtain ⟨rfl, -⟩ := find_file hfind
      exact ⟨isPrivate, hfind⟩
  · rintro ⟨isPrivate, hfind⟩
    unfold Disk.read
    rw [hfind]

theorem put_put (d : Disk) (p : Place) (n n' : Node) : (d.put p n).put p n' = d.put p n' := by
  unfold put
  refine congrArg Disk.mk (Dict.ext_get? fun q => ?_)
  simp only [Dict.get?_insert]
  split <;> rfl

theorem isPrivate_put {p : Place} (hp : p ≠ []) (d : Disk) (content : ByteArray)
    (isPrivate : Bool) : (d.put p (.file content isPrivate)).isPrivate p = isPrivate := by
  unfold Disk.isPrivate
  rw [node?_put hp, if_pos rfl]

theorem Builds.isPrivate_eq {names : List String} {d d' : Disk} (h : d.Builds names d')
    (p : Place) : d'.isPrivate p = d.isPrivate p := by
  unfold Disk.isPrivate
  rcases h p with hsame | ⟨hnone, hmade, -⟩
  · rw [hsame]
  · rw [hnone, hmade]

/-- A copy has the content and the privacy of the source, and is empty if it is the source. -/
theorem copy_ok {d d' : Disk} {source target : String} (h : d.copy source target = .ok d') :
    d.openToWrite target = .ok (resolve [] target) ∧ ∃ content isPrivate,
      d.find source = .ok (resolve [] source, .file content isPrivate) ∧
        d' = d.put (resolve [] target)
          (.file (if resolve [] source = resolve [] target then .empty else content) isPrivate) := by
  unfold copy at h
  split at h
  · cases h
  · cases h
  rename_i p content isPrivate hfind
  obtain ⟨rfl, hsource⟩ := find_file hfind
  split at h
  · cases h
  rename_i q hopen
  obtain ⟨rfl, hroot⟩ := openToWrite_place hopen
  refine ⟨hopen, content, isPrivate, hfind, ?_⟩
  simp only [node?_put hroot] at h
  by_cases hsame : resolve [] source = resolve [] target
  · simp only [if_pos hsame, put_put, Except.ok.injEq] at h
    rw [if_pos hsame, ← h]
  · simp only [if_neg hsame, hsource, put_put, Except.ok.injEq] at h
    rw [if_neg hsame, ← h]

/-- A file is removed where its path leads, and the path leads nowhere afterwards. -/
theorem delete_ok {d d' : Disk} {path : String} (h : d.delete path = .ok d') :
    d' = d.remove (resolve [] path) ∧ resolve [] path ≠ [] ∧ d'.exists? path = false := by
  unfold delete at h
  split at h
  · cases h
  · cases h
  rename_i directory name slash hfollow
  rw [resolve_of_follow hfollow]
  split at h
  · cases h
  · cases h
  rename_i p content isPrivate hchild
  obtain ⟨hshort, rfl, hfile⟩ := child_eq_ok_iff.1 hchild
  cases slash with
  | true => cases h
  | false =>
    rw [if_neg Bool.false_ne_true] at h
    cases h
    have hroot : directory ++ [name] ≠ [] := by simp
    have hkept := keepsDirectories_remove (d := d) (p := directory ++ [name]) (by simp [hfile])
    have hgone : (d.remove (directory ++ [name])).node? (directory ++ [name]) = none := by
      rw [node?_remove hroot, if_pos rfl]
    have hchild' := child_of_node?_none hshort hgone
    refine ⟨rfl, hroot, ?_⟩
    unfold exists? find
    simp only [hkept.follow hfollow, hchild']
    rfl

/-! ## Where nothing was, nothing is overwritten -/

/-- Where a file is opened for writing after directories were made there is nothing, if the path led
to nothing before and does not go up from a directory that was missing. -/
theorem node?_of_openToWrite {d made : Disk} {path : String} {p : Place} (htree : d.IsTree)
    (hground : d.Grounded path) (hmade : d.Builds (names path).dropLast made)
    (habsent : d.exists? path = false) (hopen : made.openToWrite path = .ok p) :
    d.node? p = none ∧ made.node? p = none := by
  obtain ⟨directory, name, hfollow, rfl, hshort, hfile⟩ := openToWrite_ok hopen
  have hnone : d.node? (directory ++ [name]) = none := by
    cases hn : d.node? (directory ++ [name]) with
    | none => rfl
    | some n =>
      exfalso
      -- its directory is there as well, and the path led to it all the time
      obtain ⟨front, hnames, -, hfront, hname⟩ := enter_of_follow hfollow
      have hbefore := hground.enter htree hmade.growsTo ⟨[name], hnames.symm⟩ hfront
        (htree directory name n hn)
      have hchild := child_eq_ok_iff.2 ⟨Nat.not_lt.1 hshort, rfl, hn⟩
      have hexists : d.exists? path = true := by
        unfold exists? find
        rw [hname, hbefore]
        simp only [Except.map, hchild]
        cases n <;> rfl
      rw [habsent] at hexists
      cases hexists
  refine ⟨hnone, ?_⟩
  rcases hmade (directory ++ [name]) with hsame | ⟨-, hdirectory, -⟩
  · rw [hsame, hnone]
  · exact absurd hdirectory hfile

/-! ## Tasks -/

/-- A task on a file may end so: if it is refused, directories have been made at most, and if it is
done, the file differs as well, and nothing else. -/
structure OnlyTouches (d : Disk) (path : String) (done : Prop) (r : Except Failure Unit)
    (d' : Disk) : Prop where
  refused : ∀ f, r = .error f → d.Builds (names path).dropLast d'
  done : r = .ok () → done
  elsewhere : r = .ok () → ∃ made, d.Builds (names path).dropLast made ∧
    ∀ p, p ≠ resolve [] path → d'.node? p = made.node? p

theorem OnlyTouches.nothing {d : Disk} {path : String} {done : Prop} (h : done) :
    d.OnlyTouches path done (.ok ()) d where
  refused := nofun
  done _ := h
  elsewhere _ := ⟨d, .refl _ _, fun _ _ => rfl⟩

/-- What makes the directories above its target first touches only the target, if what comes then
does. -/
theorem onlyTouches_of_withParent {d d' : Disk} {path context : String} {r : Except Failure Unit}
    {act : Disk → Except OsError Disk} {done : Prop}
    (h : d.withParent path (fun d => attempt context d (act d)) = (r, d'))
    (hact : ∀ made, d.Builds (names path).dropLast made → act made = .ok d' →
      done ∧ ∀ p, p ≠ resolve [] path → d'.node? p = made.node? p) :
    d.OnlyTouches path done r d' := by
  rcases withParent_cases h with ⟨f, hrefused, rfl⟩ | ⟨made, hmade, hattempt⟩
  · obtain ⟨hbuilds, -⟩ := builds_makeParent hrefused
    exact ⟨fun _ _ => hbuilds, nofun, nofun⟩
  · obtain ⟨hbuilds, -⟩ := builds_makeParent hmade
    rcases attempt_cases hattempt with ⟨e, -, rfl, rfl⟩ | ⟨hdone, rfl⟩
    · exact ⟨fun _ _ => hbuilds, nofun, nofun⟩
    · obtain ⟨hend, helse⟩ := hact made hbuilds hdone
      exact ⟨nofun, fun _ => hend, fun _ => ⟨made, hbuilds, helse⟩⟩

theorem node?_put_elsewhere {d : Disk} {path : String} {q : Place}
    (hopen : d.openToWrite path = .ok q) (n : Node) {p : Place} (hp : p ≠ resolve [] path) :
    (d.put (resolve [] path) n).node? p = d.node? p := by
  obtain ⟨rfl, hroot⟩ := openToWrite_place hopen
  rw [node?_put hroot, if_neg hp]

variable {d d' : Disk} {path : String} {r : Except Failure Unit}

theorem onlyTouches_saveJson {value : Json} (h : d.saveJson path value = (r, d')) :
    d.OnlyTouches path (d'.read path = .ok value.pretty.toUTF8 ∧
      d'.isPrivate (resolve [] path) = d.isPrivate (resolve [] path)) r d' := by
  refine onlyTouches_of_withParent h fun made hmade hwrite => ?_
  obtain ⟨hopen, rfl⟩ := putOpened_ok made.isPrivate hwrite
  obtain ⟨-, hroot⟩ := openToWrite_place hopen
  refine ⟨⟨read_of_put hopen _ _, ?_⟩, fun p hp => node?_put_elsewhere hopen _ hp⟩
  rw [isPrivate_put hroot, hmade.isPrivate_eq]

theorem onlyTouches_writePrivate {content : ByteArray} (h : d.writePrivate path content = (r, d')) :
    d.OnlyTouches path (d'.read path = .ok content ∧ d'.isPrivate (resolve [] path) = true) r
      d' := by
  refine onlyTouches_of_withParent h fun made hmade hwrite => ?_
  obtain ⟨hopen, rfl⟩ := putOpened_ok (fun _ => true) hwrite
  obtain ⟨-, hroot⟩ := openToWrite_place hopen
  exact ⟨⟨read_of_put hopen _ _, isPrivate_put hroot ..⟩,
    fun p hp => node?_put_elsewhere hopen _ hp⟩

/-- A file that is copied onto itself is emptied. -/
theorem onlyTouches_copyFile {source : String} (h : d.copyFile source path = (r, d')) :
    d.OnlyTouches path (∃ content isPrivate,
      d.node? (resolve [] source) = some (.file content isPrivate) ∧
        d'.isPrivate (resolve [] path) = isPrivate ∧ d'.read source = d'.read path ∧
        d'.read path = .ok (if resolve [] source = resolve [] path then .empty else content)) r
      d' := by
  refine onlyTouches_of_withParent h fun made hmade hcopy => ?_
  obtain ⟨hopen, content, isPrivate, hfind, rfl⟩ := copy_ok hcopy
  obtain ⟨-, hroot⟩ := openToWrite_place hopen
  obtain ⟨-, -, -, -, -, hfile⟩ := openToWrite_ok hopen
  obtain ⟨-, hsource⟩ := find_file hfind
  have hcopied := read_of_put hopen
    (if resolve [] source = resolve [] path then .empty else content) isPrivate
  -- the source reads as the copy, whether it is the copy itself or has been left alone
  have hsource' : (made.put (resolve [] path) (.file
      (if resolve [] source = resolve [] path then .empty else content) isPrivate)).node?
        (resolve [] source) = some (.file
          (if resolve [] source = resolve [] path then .empty else content) isPrivate) := by
    rw [node?_put hroot]
    split
    · rfl
    · exact hsource
  have hread := read_eq_ok_iff.2 ⟨_, (keepsDirectories_put hfile _).find hfind hsource'⟩
  exact ⟨⟨content, isPrivate, hmade.file_iff.1 hsource, isPrivate_put hroot ..,
    hread.trans hcopied.symm, hcopied⟩, fun p hp => node?_put_elsewhere hopen _ hp⟩

theorem ensureFile_cases {content : String} (h : d.ensureFile path content = (r, d')) :
    (d.exists? path = true ∧ r = .ok () ∧ d' = d) ∨
      d.exists? path = false ∧ d.withParent path (fun d =>
        attempt s!"Failed to create file '{path}'" d (d.write path content.toUTF8)) = (r, d') := by
  unfold ensureFile at h
  by_cases hexists : d.exists? path = true
  · rw [if_pos hexists] at h
    cases h
    exact .inl ⟨hexists, rfl, rfl⟩
  · rw [if_neg hexists] at h
    exact .inr ⟨Bool.eq_false_iff.2 hexists, h⟩

theorem onlyTouches_ensureFile {content : String} (h : d.ensureFile path content = (r, d')) :
    d.OnlyTouches path
      ((if d.exists? path then d' = d else d'.read path = .ok content.toUTF8) ∧
        (d.IsTree → d.Grounded path → d.HasFile (resolve [] path) → d' = d)) r d' := by
  rcases ensureFile_cases h with ⟨hexists, rfl, rfl⟩ | ⟨habsent, h⟩
  · refine .nothing ⟨?_, fun _ _ _ => rfl⟩
    rw [if_pos hexists]
  · refine onlyTouches_of_withParent h fun made hmade hwrite => ?_
    obtain ⟨hopen, rfl⟩ := putOpened_ok made.isPrivate hwrite
    refine ⟨⟨?_, fun htree hground hfile => ?_⟩, fun p hp => node?_put_elsewhere hopen _ hp⟩
    · rw [habsent, if_neg Bool.false_ne_true]
      exact read_of_put hopen _ _
    · exfalso
      obtain ⟨old, isPrivate, hold⟩ := hfile
      obtain ⟨hnone, -⟩ := node?_of_openToWrite htree hground hmade habsent hopen
      rw [hnone] at hold
      cases hold

theorem onlyTouches_deleteFile (h : d.deleteFile path = (r, d')) :
    d.OnlyTouches path (d'.exists? path = false) r d' := by
  unfold deleteFile at h
  by_cases hexists : d.exists? path = true
  · rw [if_pos hexists] at h
    rcases attempt_cases h with ⟨e, -, rfl, rfl⟩ | ⟨hdelete, rfl⟩
    · exact ⟨fun _ _ => .refl _ _, nofun, nofun⟩
    · obtain ⟨rfl, hroot, hgone⟩ := delete_ok hdelete
      exact ⟨nofun, fun _ => hgone, fun _ =>
        ⟨d, .refl _ _, fun p hp => by rw [node?_remove hroot, if_neg hp]⟩⟩
  · rw [if_neg hexists] at h
    cases h
    exact .nothing (Bool.eq_false_iff.2 hexists)

/-- What is kept is in a file where its path leads. -/
theorem hasFile_keep {a : Artifact} (h : d.keep a = (.ok (), d')) :
    d'.HasFile (resolve [] a.target) := by
  cases a with
  | document path value =>
    obtain ⟨made, hmade⟩ := withParent_ok h
    obtain ⟨hopen, rfl⟩ := putOpened_ok made.isPrivate (attempt_ok hmade)
    exact hasFile_put (openToWrite_place hopen).2 ..
  | bytes path content =>
    obtain ⟨made, hmade⟩ := withParent_ok h
    obtain ⟨hopen, rfl⟩ := putOpened_ok (fun _ => true) (attempt_ok hmade)
    exact hasFile_put (openToWrite_place hopen).2 ..
  | copy source target =>
    obtain ⟨made, hmade⟩ := withParent_ok h
    obtain ⟨hopen, content, isPrivate, -, rfl⟩ := copy_ok (attempt_ok hmade)
    exact hasFile_put (openToWrite_place hopen).2 ..

end Disk

/-- Something to do to a file. -/
inductive FileTask where
  /-- Save a JSON value. -/
  | save (value : Json)
  /-- Write bytes that only the owner of the file may read and write. -/
  | writePrivate (content : ByteArray)
  /-- Copy another file. -/
  | copyOf (source : String)
  /-- Make sure that there is a file. -/
  | ensure (content : String)
  /-- Remove the file. -/
  | delete

namespace FileTask

open Disk

def perform (d : Disk) (path : String) : FileTask → Except Failure Unit × Disk
  | save value => d.saveJson path value
  | writePrivate content => d.writePrivate path content
  | copyOf source => d.copyFile source path
  | ensure content => d.ensureFile path content
  | delete => d.deleteFile path

/-- What the file is like when the task is done. -/
def Done (d : Disk) (path : String) (d' : Disk) : FileTask → Prop
  | save value =>
    d'.read path = .ok value.pretty.toUTF8 ∧
      d'.isPrivate (resolve [] path) = d.isPrivate (resolve [] path)
  | writePrivate content =>
    d'.read path = .ok content ∧ d'.isPrivate (resolve [] path) = true
  | copyOf source =>
    ∃ content isPrivate, d.node? (resolve [] source) = some (.file content isPrivate) ∧
      d'.isPrivate (resolve [] path) = isPrivate ∧ d'.read source = d'.read path ∧
      d'.read path = .ok (if resolve [] source = resolve [] path then .empty else content)
  | ensure content =>
    (if d.exists? path then d' = d else d'.read path = .ok content.toUTF8) ∧
      (d.IsTree → d.Grounded path → d.HasFile (resolve [] path) → d' = d)
  | delete => d'.exists? path = false

/-- **Only the target of a task changes, and nothing but directories come of one that fails.** -/
theorem perform_onlyTouches {task : FileTask} {d d' : Disk} {path : String}
    {r : Except Failure Unit} (h : task.perform d path = (r, d')) :
    d.OnlyTouches path (task.Done d path d') r d' := by
  cases task with
  | save value => exact onlyTouches_saveJson h
  | writePrivate content => exact onlyTouches_writePrivate h
  | copyOf source => exact onlyTouches_copyFile h
  | ensure content => exact onlyTouches_ensureFile h
  | delete => exact onlyTouches_deleteFile h

/-- A file whose path goes up from a directory is left as it is. -/
theorem perform_onlyTouches_kept :
    let d : Disk := ⟨.ofList [(["there"], .directory), (["f"], .file "old".toUTF8 false)]⟩
    d.IsTree ∧ d.Grounded "there/../f" ∧ (ensure "new").perform d "there/../f" = (.ok (), d) := by
  intro d
  have htree : d.IsTree := by decide
  have hground : d.Grounded "there/../f" := by decide
  have hfile : d.HasFile (resolve [] "there/../f") := ⟨"old".toUTF8, false, by decide⟩
  have hdone : ((ensure "new").perform d "there/../f").1 = .ok () := by decide
  have htouches : d.OnlyTouches "there/../f" ((ensure "new").Done d "there/../f" _) _ _ :=
    perform_onlyTouches rfl
  exact ⟨htree, hground, Prod.ext hdone ((htouches.done hdone).2 htree hground hfile)⟩

/-- If the directory is missing, the file is written over. -/
theorem not_kept_above_missing : ¬ ∀ (d d' : Disk) (path content : String),
    d.HasFile (resolve [] path) → (ensure content).perform d path = (.ok (), d') →
      d'.node? (resolve [] path) = d.node? (resolve [] path) := by
  intro hkept
  let d : Disk := ⟨.ofList [(["f"], .file "old".toUTF8 false)]⟩
  have hfile : d.HasFile (resolve [] "missing/../f") := ⟨"old".toUTF8, false, by decide⟩
  have hdone : ((ensure "new").perform d "missing/../f").1 = .ok () := by decide
  have hchanged : ((ensure "new").perform d "missing/../f").2.node? (resolve [] "missing/../f") ≠
      d.node? (resolve [] "missing/../f") := by decide
  exact hchanged (hkept d _ "missing/../f" "new" hfile (Prod.ext hdone rfl))

end FileTask

end WorkflowRuns
