import WorkflowRuns.Files.Operations
import WorkflowRuns.Proofs.Files.Growth

/-!
# Making directories

To make a directory with those above it puts directories where the way along its names ended in
nothing, and changes nothing else (`Builds`). How it can go is told by `Makes`, ending by ending:
if it works, the path leads to a directory (`Makes.isDirectory`), and if it is refused, it has made
what it could, and what was in the way is in the way of the last directory (`Makes.error`). So doing
it again changes nothing more (`makeDirectories_again`).
-/

namespace WorkflowRuns

namespace Disk

open WorkflowRuns.Path

/-- Directories were made, at places on the way along names, where something was missing. -/
def Builds (d : Disk) (names : List String) (d' : Disk) : Prop :=
  ∀ p, d'.node? p = d.node? p ∨ (d.node? p = none ∧ d'.node? p = some .directory ∧
    ∃ front, front <+: names ∧ p = descendAll [] front ∧ d.enter [] front = .error .notFound)

theorem Builds.refl (d : Disk) (names : List String) : d.Builds names d := fun _ => .inl rfl

theorem Builds.growsTo {names : List String} {d d' : Disk} (h : d.Builds names d') :
    d.GrowsTo d' := by
  intro p n hp
  rcases h p with hsame | ⟨hnone, -⟩
  · rw [hsame, hp]
  · rw [hnone] at hp
    cases hp

theorem Builds.mono {names names' : List String} (hnames : names <+: names') {d d' : Disk}
    (h : d.Builds names d') : d.Builds names' d' := by
  intro p
  rcases h p with hsame | ⟨hnone, hmade, front, hfront, hplace⟩
  · exact .inl hsame
  · exact .inr ⟨hnone, hmade, front, hfront.trans hnames, hplace⟩

theorem Builds.trans {names : List String} {d d' d'' : Disk} (h : d.Builds names d')
    (h' : d'.Builds names d'') : d.Builds names d'' := by
  intro p
  rcases h' p with hsame' | ⟨hnone', hmade', front, hfront, hplace, hmissing⟩
  · rw [hsame']
    exact h p
  · right
    -- what was found on the first disk would have been found on the second one as well
    have hmissing' : d.enter [] front = .error .notFound := by
      by_contra hfound
      exact hfound ((h.growsTo.enter hfound rfl).symm.trans hmissing)
    rcases h p with hsame | ⟨-, hmade, -⟩
    · exact ⟨hsame ▸ hnone', hmade', front, hfront, hplace, hmissing'⟩
    · rw [hmade] at hnone'
      cases hnone'

theorem Builds.file_iff {names : List String} {d d' : Disk} (h : d.Builds names d') {p : Place}
    {content : ByteArray} {isPrivate : Bool} :
    d'.node? p = some (.file content isPrivate) ↔ d.node? p = some (.file content isPrivate) := by
  rcases h p with hsame | ⟨hnone, hmade, -⟩
  · rw [hsame]
  · simp [hnone, hmade]

/-! ## What a path can be refused for -/

theorem isDirectory_iff {d : Disk} {path : String} :
    d.isDirectory path = true ↔ Valid path ∧ ∃ there, d.enter [] (names path) = .ok there := by
  by_cases hvalid : Valid path
  swap
  · obtain ⟨e, -, hrefused⟩ := follow_of_not_valid hvalid
    simp [isDirectory, find, hrefused, hvalid]
  rw [and_iff_right hvalid]
  rcases follow_cases hvalid with ⟨hhere, -⟩ | ⟨front, name, slash, hnames, hup, hname⟩
  · unfold isDirectory find
    rw [hhere]
    cases d.enter [] (names path) <;> simp [Except.map]
  · have hmem : name ∈ names path := by simp [hnames]
    have hlast {directory there : Place} : d.enter directory [name] = .ok there ↔ _ :=
      enter_name_eq_ok_iff (ne_of_mem_namesIn hmem) hup
    unfold isDirectory find
    rw [hname, hnames]
    constructor
    · intro h
      cases hfront : d.enter [] front with
      | error e => simp [hfront, Except.map] at h
      | ok directory =>
        cases hchild : d.child directory name with
        | error e => simp [hfront, hchild, Except.map] at h
        | ok found =>
          obtain ⟨p, n⟩ := found
          cases n with
          | directory =>
            refine ⟨p, enter_concat_eq_ok_iff.2 ⟨directory, hfront, ?_⟩⟩
            exact hlast.2 (child_eq_ok_iff.1 hchild)
          | file content isPrivate => cases slash <;> simp [hfront, hchild, Except.map] at h
    · rintro ⟨there, henter⟩
      obtain ⟨directory, hfront, hnext⟩ := enter_concat_eq_ok_iff.1 henter
      have hchild := child_eq_ok_iff.2 (hlast.1 hnext)
      simp [hfront, hchild, Except.map]

/-! ## One directory -/

theorem makeDirectory_ok {d d' : Disk} {path : String} (h : d.makeDirectory path = .ok d') :
    Valid path ∧ ∃ front name directory, names path = front ++ [name] ∧ name ≠ ".." ∧
      d.enter [] front = .ok directory ∧ name.utf8ByteSize ≤ longestName ∧
      d.node? (directory ++ [name]) = none ∧ d' = d.put (directory ++ [name]) .directory := by
  unfold makeDirectory at h
  split at h
  · cases h
  · cases h
  rename_i directory name slash hfollow
  obtain ⟨front, hnames, hup, hfront, -⟩ := enter_of_follow hfollow
  unfold child at h
  by_cases hlong : longestName < name.utf8ByteSize
  · simp [hlong] at h
  · rw [if_neg hlong] at h
    cases hnone : d.node? (directory ++ [name]) with
    | some n => simp [hnone] at h
    | none =>
      simp only [hnone, Except.ok.injEq] at h
      exact ⟨valid_of_follow hfollow, front, name, directory, hnames, hup, hfront,
        Nat.not_lt.1 hlong, hnone, h.symm⟩

/-- If a directory is neither there nor can be made, its names do not lead on, or there is a file in
its place. -/
theorem makeDirectoryIfAbsent_error {d : Disk} {path : String} {e : OsError} (hvalid : Valid path)
    (h : d.makeDirectoryIfAbsent path = .error e) : d.enter [] (names path) = .error e ∨
      e = .alreadyExists ∧ ∃ front name directory content isPrivate,
        names path = front ++ [name] ∧ name ≠ ".." ∧ d.enter [] front = .ok directory ∧
          d.child directory name = .ok (directory ++ [name], .file content isPrivate) := by
  unfold makeDirectoryIfAbsent at h
  cases hmake : d.makeDirectory path with
  | ok d' => simp [hmake] at h
  | error e' =>
    have hnot : ¬ d.isDirectory path = true := by
      intro hdirectory
      simp [hmake, hdirectory] at h
    have hnowhere : ∀ there, d.enter [] (names path) ≠ .ok there := fun there henter =>
      hnot (isDirectory_iff.2 ⟨hvalid, there, henter⟩)
    simp only [hmake, if_neg hnot, Except.error.injEq] at h
    subst h
    -- what is in the way is met on the way, unless it stands where the last name leads
    unfold makeDirectory at hmake
    rcases follow_cases hvalid with ⟨hhere, -⟩ | ⟨front, name, slash, hnames, hup, hname⟩
    · left
      rw [hhere] at hmake
      cases hthere : d.enter [] (names path) with
      | ok there => exact absurd hthere (hnowhere there)
      | error e => simpa [hthere, Except.map] using hmake
    have hmem : name ∈ names path := by simp [hnames]
    rw [hname] at hmake
    cases hfront : d.enter [] front with
    | error e =>
      left
      rw [enter_error_of_front ⟨[name], hnames.symm⟩ hfront]
      simpa [hfront, Except.map] using hmake
    | ok directory =>
      simp only [hfront, Except.map] at hmake
      cases hchild : d.child directory name with
      | ok found =>
        obtain ⟨p, n⟩ := found
        obtain ⟨hshort, rfl, hn⟩ := child_eq_ok_iff.1 hchild
        cases n with
        | directory =>
          refine absurd ?_ (hnowhere (directory ++ [name]))
          rw [hnames]
          exact enter_concat_eq_ok_iff.2 ⟨directory, hfront,
            (enter_name_eq_ok_iff (ne_of_mem_namesIn hmem) hup).2 ⟨hshort, rfl, hn⟩⟩
        | file content isPrivate =>
          right
          simp only [hchild, Except.error.injEq] at hmake
          exact ⟨hmake.symm, front, name, directory, content, isPrivate, hnames, hup, hfront, hchild⟩
      | error e =>
        left
        have hlast := enter_name_of_error (ne_of_mem_namesIn hmem) hup hchild
        rw [hnames, enter_concat hfront, hlast]
        cases e <;> simp_all

/-- A directory that is missing and cannot be made for want of another one above it is not reached
by its names. -/
theorem makeDirectoryIfAbsent_notFound {d : Disk} {path : String} (hne : path ≠ "")
    (h : d.makeDirectoryIfAbsent path = .error .notFound) :
    Valid path ∧ d.enter [] (names path) = .error .notFound := by
  have hvalid : Valid path := by
    by_contra hnot
    obtain ⟨e, hempty, hrefused⟩ := follow_of_not_valid hnot
    unfold makeDirectoryIfAbsent makeDirectory at h
    simp only [hrefused] at h
    split at h
    · cases h
    · cases h
      exact hne (hempty rfl)
  rcases makeDirectoryIfAbsent_error hvalid h with henter | ⟨heq, -⟩
  · exact ⟨hvalid, henter⟩
  · cases heq

/-- A directory cannot be made where the names above it do not lead on. -/
theorem makeDirectoryIfAbsent_of_enter {d : Disk} {path : String} (hvalid : Valid path)
    {front : List String} {name : String} {e : OsError} (hnames : names path = front ++ [name])
    (henter : d.enter [] front = .error e) : d.makeDirectoryIfAbsent path = .error e := by
  have hall : d.enter [] (names path) = .error e :=
    enter_error_of_front ⟨[name], hnames.symm⟩ henter
  have hnot : ¬ d.isDirectory path = true := by
    rw [isDirectory_iff, hall]
    simp
  have hmake : d.makeDirectory path = .error e := by
    unfold makeDirectory
    rcases follow_cases hvalid with ⟨hhere, -⟩ | ⟨front', name', slash, hnames', -, hname⟩
    · simp [hhere, hall, Except.map]
    · obtain ⟨rfl, -⟩ := List.append_inj' (hnames.symm.trans hnames') rfl
      simp [hname, henter, Except.map]
  unfold makeDirectoryIfAbsent
  simp [hmake, hnot]

/-- In a directory that is there, nothing is missing that a directory needs. -/
theorem makeDirectoryIfAbsent_ne_notFound {d : Disk} {path : String} (hempty : path ≠ "")
    (htidy : Tidy path) {front : List String} {name : String} {directory : Place}
    (hnames : names path = front ++ [name]) (hfront : d.enter [] front = .ok directory) :
    d.makeDirectoryIfAbsent path ≠ .error .notFound := by
  intro h
  obtain ⟨hvalid, hmissing⟩ := makeDirectoryIfAbsent_notFound hempty h
  rcases follow_cases hvalid with ⟨-, hlast⟩ | ⟨front', name', slash, hnames', hup, hname⟩
  · rcases hlast htidy with hnil | ⟨front', hnames'⟩
    · simp [hnil] at hnames
    · obtain ⟨rfl, -⟩ := List.append_inj' (hnames.symm.trans hnames') rfl
      rw [hnames', enter_append, hfront] at hmissing
      simp [Except.bind, enter] at hmissing
  · obtain ⟨rfl, -⟩ := List.append_inj' (hnames.symm.trans hnames') rfl
    unfold makeDirectoryIfAbsent makeDirectory at h
    simp only [hname, hfront, Except.map] at h
    split at h
    · cases h
    · rename_i e hmake
      split at h
      · cases h
      cases h
      split at hmake
      · cases hmake
      · cases hmake
      · rename_i hne hchild
        cases hmake
        exact hne rfl

/-- Where a directory is or was made, the path leads to it. -/
theorem makeDirectoryIfAbsent_ok {d d' : Disk} {path : String}
    (h : d.makeDirectoryIfAbsent path = .ok d') : d.Builds (names path) d' ∧
      d'.isDirectory path = true ∧ (d.IsTree → d'.IsTree) := by
  unfold makeDirectoryIfAbsent at h
  split at h
  · rename_i made hmade
    cases h
    obtain ⟨hvalid, front, name, directory, hnames, hup, hfront, hshort, hnone, rfl⟩ :=
      makeDirectory_ok hmade
    have hmem : name ∈ names path := by simp [hnames]
    have hne : directory ++ [name] ≠ [] := by simp
    have hgrow := growsTo_put hnone .directory
    have hmade' : (d.put (directory ++ [name]) .directory).node? (directory ++ [name]) =
        some .directory := by rw [node?_put hne, if_pos rfl]
    refine ⟨fun p => ?_, ?_, fun htree => ?_⟩
    · by_cases hp : p = directory ++ [name]
      · right
        subst hp
        refine ⟨hnone, hmade', names path, List.prefix_refl _, ?_, ?_⟩
        · rw [hnames, descendAll_concat, ← enter_eq_descendAll hfront,
            descend_name (ne_of_mem_namesIn hmem) hup]
        · rw [hnames, enter_concat hfront]
          exact enter_name_of_error (ne_of_mem_namesIn hmem) hup
            (child_of_node?_none hshort hnone)
      · left
        rw [node?_put hne, if_neg hp]
    · refine isDirectory_iff.2 ⟨hvalid, directory ++ [name], ?_⟩
      rw [hnames]
      refine enter_concat_eq_ok_iff.2 ⟨directory, hgrow.enter (ok_ne_error _ _) hfront, ?_⟩
      exact (enter_name_eq_ok_iff (ne_of_mem_namesIn hmem) hup).2 ⟨hshort, rfl, hmade'⟩
    · have hdirectory := htree.enter d.node?_root hfront
      exact htree.put hdirectory (by simp [hnone]) .directory
  · split at h
    · rename_i hdirectory
      cases h
      exact ⟨.refl _ _, hdirectory, id⟩
    · cases h

theorem makeDirectoryIfAbsent_of_isDirectory {d : Disk} {path : String}
    (h : d.isDirectory path = true) : d.makeDirectoryIfAbsent path = .ok d := by
  unfold makeDirectoryIfAbsent
  cases hmake : d.makeDirectory path with
  | error e => simp [h]
  | ok made =>
    -- nothing can be made where something is
    obtain ⟨-, front, name, directory, hnames, hup, hfront, -, hnone, -⟩ := makeDirectory_ok hmake
    obtain ⟨-, there, hthere⟩ := isDirectory_iff.1 h
    have hmem : name ∈ names path := by simp [hnames]
    rw [hnames] at hthere
    obtain ⟨directory', hfront', hlast⟩ := enter_concat_eq_ok_iff.1 hthere
    obtain ⟨-, -, hnode⟩ := (enter_name_eq_ok_iff (ne_of_mem_namesIn hmem) hup).1 hlast
    rw [hfront] at hfront'
    cases hfront'
    rw [hnone] at hnode
    cases hnode

/-! ## A directory with those above it -/

theorem front_of_parent? {path above : String} (h : parent? path = some above) :
    names above <+: names path := by
  obtain ⟨-, -, -, hnames, -⟩ := parent?_front h
  rw [hnames]
  exact List.dropLast_prefix _

/-- A path that does not lead on has a name more than the one above it. -/
theorem names_of_parent? {d : Disk} {path above : String} (h : parent? path = some above)
    {e : OsError} (henter : d.enter [] (names path) = .error e) :
    ∃ name, names path = names above ++ [name] := by
  obtain ⟨-, -, -, hnames, -⟩ := parent?_front h
  rcases List.eq_nil_or_concat' (names path) with hnil | ⟨front, name, hconcat⟩
  · rw [hnil] at henter
    cases henter
  · exact ⟨name, by rw [hnames, hconcat, List.dropLast_concat]⟩

/-- How it can go to make a directory with those above it. -/
inductive Makes (d : Disk) : String → Except OsError Unit → Disk → Prop where
  | nothing : Makes d "" (.ok ()) d
  | made {path : String} {d' : Disk} (hmake : d.makeDirectoryIfAbsent path = .ok d') :
    Makes d path (.ok ()) d'
  | refused {path : String} {e : OsError} (hempty : path ≠ "")
    (hmake : d.makeDirectoryIfAbsent path = .error e) (hne : e ≠ .notFound) :
    Makes d path (.error e) d
  | refusedAbove {path above : String} {e : OsError} {d' : Disk} (hempty : path ≠ "")
    (hmissing : d.makeDirectoryIfAbsent path = .error .notFound)
    (habove : parent? path = some above) (hrefused : Makes d above (.error e) d') :
    Makes d path (.error e) d'
  | madeBelow {path above : String} {between d' : Disk} (hempty : path ≠ "")
    (hmissing : d.makeDirectoryIfAbsent path = .error .notFound)
    (habove : parent? path = some above) (hmade : Makes d above (.ok ()) between)
    (hmake : between.makeDirectoryIfAbsent path = .ok d') : Makes d path (.ok ()) d'
  | refusedBelow {path above : String} {e : OsError} {between : Disk} (hempty : path ≠ "")
    (hmissing : d.makeDirectoryIfAbsent path = .error .notFound)
    (habove : parent? path = some above) (hmade : Makes d above (.ok ()) between)
    (hmake : between.makeDirectoryIfAbsent path = .error e) : Makes d path (.error e) between

theorem length_lt_of_front {path above : String} {rest : List Char}
    (h : path.toList = above.toList ++ rest) (hrest : rest ≠ []) :
    above.length < path.length := by
  have hlength := congrArg List.length h
  have hpos : 0 < rest.length := List.length_pos_iff.2 hrest
  simp only [List.length_append, String.length_toList] at hlength
  omega

/-- The fuel is enough for all directories above. -/
theorem makes_of_makeDirectories {d d' : Disk} {path : String} {fuel : Nat}
    {r : Except OsError Unit} (hfuel : path.length < fuel)
    (h : d.makeDirectories path fuel = (r, d')) : Makes d path r d' := by
  induction fuel generalizing d' path r with
  | zero => omega
  | succ fuel ih =>
    unfold makeDirectories at h
    split at h
    · rename_i hempty
      cases h
      rw [hempty]
      exact .nothing
    rename_i hempty
    split at h
    · rename_i made hmake
      cases h
      exact .made hmake
    · rename_i hmissing
      obtain ⟨-, henter⟩ := makeDirectoryIfAbsent_notFound hempty hmissing
      split at h
      · -- without a directory above there is no name in the path that could be missing
        rename_i hnone
        rw [names_of_parent?_none hnone] at henter
        cases henter
      rename_i above habove
      obtain ⟨rest, htext, hrest, -, -⟩ := parent?_front habove
      have hfuel' : above.length < fuel := by
        have hlength := length_lt_of_front htext hrest
        omega
      split at h
      · rename_i hrefused
        cases h
        exact .refusedAbove hempty hmissing habove (ih hfuel' hrefused)
      · rename_i between hmade
        split at h
        · rename_i made hmake
          cases h
          exact .madeBelow hempty hmissing habove (ih hfuel' hmade) hmake
        · rename_i e hmake
          cases h
          exact .refusedBelow hempty hmissing habove (ih hfuel' hmade) hmake
    · rename_i e hne hmake
      cases h
      exact .refused hempty hmake hne

variable {d d' : Disk} {path : String} {r : Except OsError Unit}

theorem Makes.builds (h : Makes d path r d') :
    d.Builds (names path) d' ∧ (d.IsTree → d'.IsTree) := by
  induction h with
  | nothing => exact ⟨.refl _ _, id⟩
  | made hmake =>
    obtain ⟨hbuilds, -, htree⟩ := makeDirectoryIfAbsent_ok hmake
    exact ⟨hbuilds, htree⟩
  | refused => exact ⟨.refl _ _, id⟩
  | refusedAbove _ _ habove _ ih =>
    obtain ⟨hbuilds, htree⟩ := ih
    exact ⟨hbuilds.mono (front_of_parent? habove), htree⟩
  | madeBelow _ _ habove _ hmake ih =>
    obtain ⟨hbuilds, htree⟩ := ih
    obtain ⟨hbuilds', -, htree'⟩ := makeDirectoryIfAbsent_ok hmake
    exact ⟨(hbuilds.mono (front_of_parent? habove)).trans hbuilds', fun h => htree' (htree h)⟩
  | refusedBelow _ _ habove _ _ ih =>
    obtain ⟨hbuilds, htree⟩ := ih
    exact ⟨hbuilds.mono (front_of_parent? habove), htree⟩

theorem Makes.isDirectory (h : Makes d path (.ok ()) d') :
    path = "" ∨ d'.isDirectory path = true := by
  cases h with
  | nothing => exact .inl rfl
  | made hmake => exact .inr (makeDirectoryIfAbsent_ok hmake).2.1
  | madeBelow _ _ _ _ hmake => exact .inr (makeDirectoryIfAbsent_ok hmake).2.1

theorem Makes.enter (h : Makes d path (.ok ()) d') :
    ∃ there, d'.enter [] (names path) = .ok there := by
  rcases h.isDirectory with rfl | hdirectory
  · exact ⟨[], rfl⟩
  · exact (isDirectory_iff.1 hdirectory).2

/-- A file in which names end after directories were made was there before, and so the names did not
lead on for its sake, and not for want of a directory. -/
theorem enter_of_file {names : List String} (htree : d.IsTree) (hground : d.Grounded path)
    (hbuilds : d.Builds names d') {front : List String} {name : String}
    (hfront : front ++ [name] <+: Path.names path) (hup : name ≠ "..") {directory : Place}
    (hthere : d'.enter [] front = .ok directory) {content : ByteArray} {isPrivate : Bool}
    (hchild : d'.child directory name = .ok (directory ++ [name], .file content isPrivate)) :
    d.enter [] (Path.names path) = .error .notADirectory := by
  obtain ⟨hshort, -, hfile⟩ := child_eq_ok_iff.1 hchild
  have hbefore := hbuilds.file_iff.1 hfile
  have hthere' := hground.enter htree hbuilds.growsTo
    ((List.prefix_append front [name]).trans hfront) hthere (htree directory name _ hbefore)
  have hmem : name ∈ Path.names path := hfront.subset (by simp)
  have hblocked : d.enter [] (front ++ [name]) = .error .notADirectory := by
    rw [enter_concat hthere']
    exact enter_name_of_file (ne_of_mem_namesIn hmem) hup
      (child_eq_ok_iff.2 ⟨hshort, rfl, hbefore⟩)
  exact enter_error_of_front hfront hblocked

/-- What is in the way of directories that cannot all be made is in the way of the last one, as soon
as the others have been made. -/
theorem Makes.error {e : OsError} (h : Makes d path (.error e) d') (htree : d.IsTree)
    (hground : d.Grounded path) (htidy : Tidy path) :
    d'.makeDirectoryIfAbsent path = .error e ∧ e ≠ .notFound ∧ path ≠ "" := by
  generalize hr : (Except.error e : Except OsError Unit) = r at h
  induction h with
  | nothing | made | madeBelow => cases hr
  | refused hempty hmake hne =>
    cases hr
    exact ⟨hmake, hne, hempty⟩
  | refusedAbove hempty hmissing habove hrefused ih =>
    cases hr
    obtain ⟨hvalid, henter⟩ := makeDirectoryIfAbsent_notFound hempty hmissing
    obtain ⟨rest, htext, -, -, htidy'⟩ := parent?_front habove
    have hfront := front_of_parent? habove
    obtain ⟨hmake, hne, hempty'⟩ := ih (hground.above hfront) htidy' rfl
    refine ⟨?_, hne, hempty⟩
    -- what is in the way above is in the way here too; a file was there from the start, and then
    -- the path would not have been refused for want of a directory
    rcases makeDirectoryIfAbsent_error (hvalid.of_front htext hempty') hmake with
      hnowhere | ⟨-, front, name, directory, content, isPrivate, hnames, hup, hthere, hchild⟩
    · obtain ⟨name, hnames⟩ := names_of_parent? habove henter
      exact makeDirectoryIfAbsent_of_enter hvalid hnames hnowhere
    · have hblocked := enter_of_file htree hground hrefused.builds.1 (hnames ▸ hfront) hup hthere
        hchild
      rw [hblocked] at henter
      cases henter
  | refusedBelow hempty hmissing habove hmade hmake _ =>
    cases hr
    -- nothing is missing any more, as all directories above have been made
    refine ⟨hmake, ?_, hempty⟩
    rintro rfl
    obtain ⟨-, henter⟩ := makeDirectoryIfAbsent_notFound hempty hmissing
    obtain ⟨name, hnames⟩ := names_of_parent? habove henter
    obtain ⟨there, hthere⟩ := hmade.enter
    exact makeDirectoryIfAbsent_ne_notFound hempty htidy hnames hthere hmake

/-- **Making directories again changes nothing more.** -/
theorem makeDirectories_again {fuel : Nat} (htree : d.IsTree) (hground : d.Grounded path)
    (htidy : Tidy path) (hfuel : path.length < fuel) (h : d.makeDirectories path fuel = (r, d')) :
    d'.makeDirectories path fuel = (r, d') := by
  have hmakes := makes_of_makeDirectories hfuel h
  obtain ⟨fuel, rfl⟩ : ∃ k, fuel = k + 1 := ⟨fuel - 1, by omega⟩
  unfold makeDirectories
  cases r with
  | ok =>
    rcases hmakes.isDirectory with rfl | hdirectory
    · rw [if_pos rfl]
    · have hempty : path ≠ "" := (isDirectory_iff.1 hdirectory).1.nonempty
      rw [if_neg hempty, makeDirectoryIfAbsent_of_isDirectory hdirectory]
  | error e =>
    obtain ⟨hmake, hne, hempty⟩ := hmakes.error htree hground htidy
    rw [if_neg hempty, hmake]
    cases e <;> first | rfl | exact absurd rfl hne

/-! ## The directories above a path -/

/-- Where there is something, the names above it lead to a directory. -/
theorem enter_of_exists {d : Disk} {path : String} (h : d.exists? path = true) :
    Valid path ∧ ∃ there, d.enter [] (names path).dropLast = .ok there := by
  unfold exists? find at h
  cases hfollow : d.follow path with
  | error e =>
    rw [hfollow] at h
    cases h
  | ok ending =>
    have hvalid := valid_of_follow hfollow
    refine ⟨hvalid, ?_⟩
    rcases follow_cases hvalid with ⟨hhere, -⟩ | ⟨front, name, slash, hnames, -, hname⟩
    · rw [hhere] at hfollow
      cases hthere : d.enter [] (names path) with
      | error e => simp [hthere, Except.map] at hfollow
      | ok there =>
        have hfront : (names path).dropLast <+: names path := List.dropLast_prefix _
        exact enter_of_front hfront hthere
    · rw [hname] at hfollow
      rw [hnames, List.dropLast_concat]
      cases hfront : d.enter [] front with
      | error e => simp [hfront, Except.map] at hfollow
      | ok directory => exact ⟨directory, rfl⟩

theorem makeParent_cases {d d' : Disk} {path : String} {r : Except Failure Unit}
    (h : d.makeParent path = (r, d')) : (parent? path = none ∧ r = .ok () ∧ d' = d) ∨
      ∃ above, parent? path = some above ∧
        ((Makes d above (.ok ()) d' ∧ r = .ok ()) ∨ ∃ e f, Makes d above (.error e) d' ∧ r = .error f) := by
  unfold makeParent at h
  split at h
  · rename_i hnone
    cases h
    exact .inl ⟨hnone, rfl, rfl⟩
  · rename_i above habove
    right
    refine ⟨above, habove, ?_⟩
    split at h
    · rename_i made hmade
      cases h
      exact .inl ⟨makes_of_makeDirectories (Nat.lt_succ_self _) hmade, rfl⟩
    · rename_i e made hmade
      cases h
      exact .inr ⟨e, _, makes_of_makeDirectories (Nat.lt_succ_self _) hmade, rfl⟩

theorem builds_makeParent {d d' : Disk} {path : String} {r : Except Failure Unit}
    (h : d.makeParent path = (r, d')) :
    d.Builds (names path).dropLast d' ∧ (d.IsTree → d'.IsTree) := by
  rcases makeParent_cases h with ⟨-, -, rfl⟩ | ⟨above, habove, hmakes⟩
  · exact ⟨.refl _ _, id⟩
  · obtain ⟨-, -, -, hnames, -⟩ := parent?_front habove
    rw [← hnames]
    rcases hmakes with ⟨hmade, -⟩ | ⟨e, f, hmade, -⟩
    · exact hmade.builds
    · exact hmade.builds

/-- The directories above a path are as they should be, or are refused as they were. -/
theorem makeParent_again {d d' : Disk} {path : String} {r : Except Failure Unit}
    (htree : d.IsTree) (hground : d.Grounded path) (h : d.makeParent path = (r, d')) :
    d'.makeParent path = (r, d') := by
  unfold makeParent at h ⊢
  split at h
  · cases h
    rfl
  · rename_i above habove
    obtain ⟨-, -, -, -, htidy⟩ := parent?_front habove
    have hground' := hground.above (front_of_parent? habove)
    split at h
    · rename_i made hmade
      cases h
      rw [makeDirectories_again htree hground' htidy (Nat.lt_succ_self _) hmade]
    · rename_i e made hmade
      cases h
      rw [makeDirectories_again htree hground' htidy (Nat.lt_succ_self _) hmade]

/-- Where the directories above a path are refused, the path still leads to nothing. -/
theorem exists?_of_makeParent_error {d d' : Disk} {path : String} {f : Failure}
    (htree : d.IsTree) (hground : d.Grounded path) (h : d.makeParent path = (.error f, d')) :
    d'.exists? path = false := by
  rw [Bool.eq_false_iff]
  intro hexists
  rcases makeParent_cases h with ⟨-, hr, -⟩ | ⟨above, habove, ⟨-, hr⟩ | ⟨e, -, hmade, -⟩⟩
  · cases hr
  · cases hr
  obtain ⟨rest, htext, -, hnames, htidy⟩ := parent?_front habove
  obtain ⟨hmake, -, hempty⟩ :=
    hmade.error htree (hground.above (front_of_parent? habove)) htidy
  obtain ⟨hvalid, hthere⟩ := enter_of_exists hexists
  have hdirectory : d'.isDirectory above = true :=
    isDirectory_iff.2 ⟨hvalid.of_front htext hempty, hnames ▸ hthere⟩
  rw [makeDirectoryIfAbsent_of_isDirectory hdirectory] at hmake
  cases hmake

end Disk

end WorkflowRuns
