import WorkflowRuns.Proofs.Files.Tasks

/-!
# Making sure that a file is there

On a tree, and for a path that does not go up from a missing directory, making sure that a file is
there only ever adds to a disk, and doing so again changes nothing and ends in the same way
(`ensureFile_again`).
-/

namespace WorkflowRuns.Disk

open WorkflowRuns.Path

/-! ## What is put where -/

/-- Directories were made where nothing was, and files with a content were put at some of the given
places, each as private as the one that was there before. -/
def PutsFiles (d : Disk) (content : ByteArray) (places : List Place) (d' : Disk) : Prop :=
  ∀ p, d'.node? p = d.node? p ∨ d.node? p = none ∧ d'.node? p = some .directory ∨
    p ∈ places ∧ d.node? p ≠ some .directory ∧
      d'.node? p = some (.file content (d.isPrivate p))

theorem PutsFiles.refl (d : Disk) (content : ByteArray) (places : List Place) :
    d.PutsFiles content places d := fun _ => .inl rfl

theorem Builds.putsFiles {names : List String} {d d' : Disk} (h : d.Builds names d')
    (content : ByteArray) (places : List Place) : d.PutsFiles content places d' := by
  intro p
  rcases h p with hsame | ⟨hnone, hmade, -⟩
  · exact .inl hsame
  · exact .inr (.inl ⟨hnone, hmade⟩)

section

variable {content : ByteArray} {places : List Place} {d d' d'' : Disk}

theorem PutsFiles.mono {places' : List Place} (h : d.PutsFiles content places d')
    (hplaces : places ⊆ places') : d.PutsFiles content places' d' := by
  intro p
  rcases h p with hsame | hmade | ⟨hp, hput⟩
  · exact .inl hsame
  · exact .inr (.inl hmade)
  · exact .inr (.inr ⟨hplaces hp, hput⟩)

theorem PutsFiles.isPrivate_eq (h : d.PutsFiles content places d') (p : Place) :
    d'.isPrivate p = d.isPrivate p := by
  unfold Disk.isPrivate
  rcases h p with hsame | ⟨hnone, hmade⟩ | ⟨-, -, hput⟩
  · rw [hsame]
  · rw [hnone, hmade]
  · rw [hput]
    rfl

theorem PutsFiles.trans (h : d.PutsFiles content places d')
    (h' : d'.PutsFiles content places d'') : d.PutsFiles content places d'' := by
  intro p
  rcases h' p with hsame' | ⟨hnone', hmade'⟩ | ⟨hp, hfile', hput'⟩
  · rw [hsame']
    exact h p
  · rcases h p with hsame | ⟨-, hmade⟩ | ⟨-, -, hput⟩
    · exact .inr (.inl ⟨hsame ▸ hnone', hmade'⟩)
    · simp [hmade] at hnone'
    · simp [hput] at hnone'
  · rw [h.isPrivate_eq] at hput'
    rcases h p with hsame | ⟨-, hmade⟩ | ⟨-, hfile, -⟩
    · exact .inr (.inr ⟨hp, hsame ▸ hfile', hput'⟩)
    · exact absurd hmade hfile'
    · exact .inr (.inr ⟨hp, hfile, hput'⟩)

theorem PutsFiles.keepsDirectories (h : d.PutsFiles content places d') :
    d.KeepsDirectories d' := by
  intro p hp
  rcases h p with hsame | ⟨hnone, -⟩ | ⟨-, hfile, -⟩
  · rw [hsame, hp]
  · rw [hnone] at hp
    cases hp
  · exact absurd hp hfile

theorem PutsFiles.file_eq (h : d.PutsFiles content places d') {p : Place} (hp : p ∉ places)
    (hfile : d.HasFile p) : d'.node? p = d.node? p := by
  obtain ⟨old, isPrivate, hold⟩ := hfile
  rcases h p with hsame | ⟨hnone, -⟩ | ⟨hmem, -⟩
  · exact hsame
  · rw [hnone] at hold
    cases hold
  · exact absurd hmem hp

end

/-- A file is read as before if it is the same, and what was a directory still is one. -/
theorem KeepsDirectories.read {d d' : Disk} (hkept : d.KeepsDirectories d') {path : String}
    {content : ByteArray} (h : d.read path = .ok content)
    (hsame : d.HasFile (resolve [] path) → d'.node? (resolve [] path) = d.node? (resolve [] path)) :
    d'.read path = .ok content := by
  obtain ⟨isPrivate, hfind⟩ := read_eq_ok_iff.1 h
  obtain ⟨-, hfile⟩ := find_file hfind
  have hfile' := (hsame ⟨content, isPrivate, hfile⟩).trans hfile
  exact read_eq_ok_iff.2 ⟨isPrivate, hkept.find hfind hfile'⟩

theorem GrowsTo.read {d d' : Disk} (h : d.GrowsTo d') {path : String} {content : ByteArray}
    (hread : d.read path = .ok content) : d'.read path = .ok content := by
  have hkept : d.KeepsDirectories d' := fun p hp => h p _ hp
  refine hkept.read hread ?_
  rintro ⟨old, isPrivate, hold⟩
  rw [hold, h _ _ hold]

/-! ## Again -/

/-- Where names lead down only, a place is the longer for each of them. -/
theorem descendAll_of_down {names : List String}
    (h : ∀ name ∈ names, (name ≠ "" ∧ name ≠ ".") ∧ name ≠ "..") (here : Place) :
    descendAll here names = here ++ names := by
  induction names generalizing here with
  | nil => simp [descendAll]
  | cons name names ih =>
    obtain ⟨hstays, hup⟩ := h name List.mem_cons_self
    show descendAll (descend here name) names = _
    rw [descend_name hstays hup, ih fun name' hmem => h name' (List.mem_cons_of_mem _ hmem),
      List.append_assoc, List.singleton_append]

/-- Behind a missing directory a path does not go up. -/
theorem Grounded.down {d : Disk} {path : String} (h : d.Grounded path) {front rest : List String}
    (hnames : names path = front ++ rest) (hmissing : d.enter [] front = .error .notFound) :
    ".." ∉ rest := by
  intro hmem
  obtain ⟨between, back, rfl⟩ := List.append_of_mem hmem
  have hmissing' : d.enter [] (front ++ between) = .error .notFound :=
    enter_error_of_front (List.prefix_append _ _) hmissing
  exact h (front ++ between) back (by simp [hnames]) hmissing'

/-- The place where a path leads is not among those where directories are made for it. -/
theorem Builds.node?_target {d made : Disk} {path : String} (hground : d.Grounded path)
    (h : d.Builds (names path).dropLast made) :
    made.node? (resolve [] path) = d.node? (resolve [] path) := by
  rcases h (resolve [] path) with hsame | ⟨-, -, front, hfront, hplace, hmissing⟩
  · exact hsame
  exfalso
  rcases List.eq_nil_or_concat' (names path) with hnil | ⟨init, last, hlast⟩
  · rw [hnil] at hfront
    obtain rfl := List.prefix_nil.1 hfront
    cases hmissing
  rw [hlast, List.dropLast_concat] at hfront
  obtain ⟨between, rfl⟩ := hfront
  have hnames : names path = front ++ (between ++ [last]) := by rw [hlast, List.append_assoc]
  have hup := hground.down hnames hmissing
  have hdown : ∀ name ∈ between ++ [last], (name ≠ "" ∧ name ≠ ".") ∧ name ≠ ".." := by
    intro name hmem
    have hmem' : name ∈ names path := by
      rw [hnames]
      exact List.mem_append_right _ hmem
    exact ⟨ne_of_mem_namesIn hmem', fun heq => hup (heq ▸ hmem)⟩
  -- behind the missing directory the path leads down, to a place that is longer
  rw [resolve_eq_descendAll, hnames, descendAll, List.foldl_append] at hplace
  have hlonger := congrArg List.length ((descendAll_of_down hdown _).symm.trans hplace)
  simp [descendAll] at hlonger

/-- Where something is after directories were made for a path, something was before. -/
theorem exists?_of_builds {d made : Disk} {path : String} (htree : d.IsTree)
    (hground : d.Grounded path) (hmade : d.Builds (names path).dropLast made)
    (htree' : made.IsTree) (h : made.exists? path = true) : d.exists? path = true := by
  -- what the path leads to was there, and the way to it too, as nothing lies in a missing directory
  have hsame := hmade.node?_target hground
  unfold exists? find at h ⊢
  cases hfollow : made.follow path with
  | error e =>
    rw [hfollow] at h
    cases h
  | ok ending =>
    cases ending with
    | here directory =>
      rcases follow_cases (valid_of_follow hfollow) with ⟨hhere, -⟩ | ⟨front, name, slash, -, -, hname⟩
      · rw [hhere] at hfollow
        cases hthere : made.enter [] (names path) with
        | error e => simp [hthere, Except.map] at hfollow
        | ok there =>
          have hplace : there = resolve [] path := by
            rw [resolve_eq_descendAll, enter_eq_descendAll hthere]
          have hdirectory := htree'.enter made.node?_root hthere
          rw [hplace, hsame, ← hplace] at hdirectory
          rw [hhere, hground.enter htree hmade.growsTo (List.prefix_refl _) hthere hdirectory]
          rfl
      · rw [hname] at hfollow
        cases hfront : made.enter [] front <;> simp [hfront, Except.map] at hfollow
    | name directory name slash =>
      obtain ⟨front, hnames, -, hfront, hname⟩ := enter_of_follow hfollow
      rw [resolve_of_follow hfollow] at hsame
      simp only [hfollow] at h
      cases hchild : made.child directory name with
      | error e => simp [hchild, Except.isOk, Except.toBool] at h
      | ok found =>
        obtain ⟨p, n⟩ := found
        obtain ⟨hshort, rfl, hn⟩ := child_eq_ok_iff.1 hchild
        rw [hsame] at hn
        have hbefore := hground.enter htree hmade.growsTo ⟨[name], hnames.symm⟩ hfront
          (htree directory name n hn)
        rw [hname, hbefore]
        simp only [Except.map, child_eq_ok_iff.2 ⟨hshort, rfl, hn⟩]
        simpa [hchild] using h

theorem exists?_of_read {d : Disk} {path : String} {content : ByteArray}
    (h : d.read path = .ok content) : d.exists? path = true := by
  obtain ⟨isPrivate, hfind⟩ := read_eq_ok_iff.1 h
  unfold exists?
  rw [hfind]
  rfl

/-- Nothing is put anywhere but where the path leads. -/
theorem putsFiles_ensureFile {d d' : Disk} {path content : String} {r : Except Failure Unit}
    (h : d.ensureFile path content = (r, d')) :
    d.PutsFiles content.toUTF8 [resolve [] path] d' := by
  rcases ensureFile_cases h with ⟨-, -, rfl⟩ | ⟨-, h⟩
  · exact .refl _ _ _
  rcases withParent_cases h with ⟨f, hrefused, -⟩ | ⟨made, hmade, hattempt⟩
  · obtain ⟨hbuilds, -⟩ := builds_makeParent hrefused
    exact hbuilds.putsFiles _ _
  obtain ⟨hbuilds, -⟩ := builds_makeParent hmade
  rcases attempt_cases hattempt with ⟨e, -, -, rfl⟩ | ⟨hwrite, -⟩
  · exact hbuilds.putsFiles _ _
  obtain ⟨hopen, rfl⟩ := putOpened_ok made.isPrivate hwrite
  obtain ⟨-, -, -, -, -, hfile⟩ := openToWrite_ok hopen
  obtain ⟨-, hroot⟩ := openToWrite_place hopen
  refine (hbuilds.putsFiles _ _).trans fun p => ?_
  by_cases hp : p = resolve [] path
  · subst hp
    rw [node?_put hroot, if_pos rfl]
    exact .inr (.inr ⟨List.mem_singleton_self _, hfile, rfl⟩)
  · rw [node?_put hroot, if_neg hp]
    exact .inl rfl

/-- **Making sure again that a file is there changes nothing more**, and what was there all along
was never changed. -/
theorem ensureFile_again {d d' : Disk} {path content : String} {r : Except Failure Unit}
    (htree : d.IsTree) (hground : d.Grounded path) (h : d.ensureFile path content = (r, d')) :
    d.GrowsTo d' ∧ d'.IsTree ∧ d'.ensureFile path content = (r, d') := by
  rcases ensureFile_cases h with ⟨hexists, rfl, rfl⟩ | ⟨habsent, hact⟩
  · exact ⟨.refl _, htree, h⟩
  rcases withParent_cases hact with ⟨f, hrefused, rfl⟩ | ⟨made, hmade, hattempt⟩
  · -- the directories above are refused, and are refused again
    obtain ⟨hbuilds, htree'⟩ := builds_makeParent hrefused
    refine ⟨hbuilds.growsTo, htree' htree, ?_⟩
    have habsent' := exists?_of_makeParent_error htree hground hrefused
    unfold ensureFile withParent
    rw [habsent', if_neg Bool.false_ne_true, makeParent_again htree hground hrefused]
  obtain ⟨hbuilds, htree'⟩ := builds_makeParent hmade
  rcases attempt_cases hattempt with ⟨e, -, -, rfl⟩ | ⟨hwrite, rfl⟩
  · -- the directories above are there now, and the file is refused again
    refine ⟨hbuilds.growsTo, htree' htree, ?_⟩
    have habsent' : d'.exists? path = false := by
      rw [Bool.eq_false_iff]
      intro hexists
      have hexists' := exists?_of_builds htree hground hbuilds (htree' htree) hexists
      rw [habsent] at hexists'
      cases hexists'
    unfold ensureFile withParent
    rw [habsent', if_neg Bool.false_ne_true, makeParent_again htree hground hmade]
    exact hattempt
  · -- the file is there now
    obtain ⟨hopen, hd'⟩ := putOpened_ok made.isPrivate hwrite
    obtain ⟨-, hnone⟩ := node?_of_openToWrite htree hground hbuilds habsent hopen
    obtain ⟨directory, name, hfollow, hplace, -, hfile⟩ := openToWrite_ok hopen
    obtain ⟨front, -, -, hfront, -⟩ := enter_of_follow hfollow
    have hdirectory := (htree' htree).enter made.node?_root hfront
    have hgrows : made.GrowsTo d' := by
      rw [hd']
      exact growsTo_put hnone _
    have htree'' : d'.IsTree := by
      rw [hd', hplace]
      rw [hplace] at hfile
      exact (htree' htree).put hdirectory hfile _
    refine ⟨hbuilds.growsTo.trans hgrows, htree'', ?_⟩
    unfold ensureFile
    rw [exists?_of_read (read_of_write hwrite), if_pos rfl]

end WorkflowRuns.Disk
