import WorkflowRuns.Proofs.Files.Ensured
import WorkflowRuns.Session.Load

/-!
# Loading

Loading reads, and puts empty files where there are none for the secrets or the inputs. How it can
go is told by `Loads`, ending by ending. It touches no other file, and on a tree with a home that
does not go up from a missing directory no file at all that was there, so that loading once more
gives the same (`load_repeatable`). Otherwise secrets can get lost (`not_kept_by_load`).
-/

namespace WorkflowRuns

open WorkflowRuns.Path

/-! ## Values in files -/

namespace Disk

theorem loadJson_ok {α : Type} {d : Disk} {path : String} {read : Json → Option α} {a : α}
    (h : d.loadJson path read = .ok a) : ∃ content, d.read path = .ok content := by
  unfold loadJson readText at h
  cases hread : d.read path with
  | error e =>
    rw [hread] at h
    cases h
  | ok content => exact ⟨content, rfl⟩

/-- What is loaded from a file is in its bytes. -/
theorem loadJson_congr {α : Type} {d d' : Disk} {path : String}
    (h : d'.read path = d.read path) (read : Json → Option α) :
    d'.loadJson path read = d.loadJson path read := by
  unfold loadJson readText
  rw [h]

theorem GrowsTo.loadJson {α : Type} {d d' : Disk} (hgrow : d.GrowsTo d') {path : String}
    {read : Json → Option α} {a : α} (h : d.loadJson path read = .ok a) :
    d'.loadJson path read = .ok a := by
  obtain ⟨content, hread⟩ := loadJson_ok h
  rw [loadJson_congr ((hgrow.read hread).trans hread.symm) read, h]

theorem Grounded.join {d : Disk} {base name : String} (h : d.Grounded base)
    (hname : Component name) : d.Grounded (join base name) := by
  intro front back hnames
  rw [names_join hname] at hnames
  rcases List.eq_nil_or_concat' back with rfl | ⟨init, last, rfl⟩
  · have hlast := List.append_inj_right' hnames rfl
    exact absurd (List.singleton_inj.1 hlast) hname.notUp
  · have hbase : names base = front ++ ".." :: init := by
      have hboth : names base ++ [name] = (front ++ ".." :: init) ++ [last] := by
        simpa using hnames
      exact List.append_inj_left' hboth rfl
    exact h front init hbase

end Disk

theorem Failure.whileDoing_eq_ok_iff {α : Type} {context : String} {r : Except Failure α} {a : α} :
    Failure.whileDoing context r = .ok a ↔ r = .ok a := by
  cases r <;> simp [Failure.whileDoing, Except.mapError]

/-! ## Texts by name -/

namespace Context

/-- What a new file for texts holds. -/
def noTexts : String := "\x7b\x7d"

/-- Texts are loaded from what is there once there is a file. -/
theorem loadTexts_cases {d d' : Disk} {what path : String} {r : Except Failure Variables}
    (h : loadTexts d what path = (r, d')) : ∃ made, d.ensureFile path noTexts = (made, d') ∧
      r = match made with
        | .error f => .error (f.during s!"Failed to ensure {what} file '{path}' exists")
        | .ok () => Failure.whileDoing s!"Failed to read {what} file '{path}'"
            (d'.loadJson path Json.asTexts?) := by
  unfold loadTexts at h
  split at h
  · rename_i f made hmade
    cases h
    exact ⟨_, hmade, rfl⟩
  · rename_i made hmade
    cases h
    exact ⟨_, hmade, rfl⟩

variable {d d' : Disk} {what path : String} {r : Except Failure Variables} {texts : Variables}

theorem loadTexts_ok (h : loadTexts d what path = (.ok texts, d')) :
    d'.loadJson path Json.asTexts? = .ok texts := by
  obtain ⟨made, -, hr⟩ := loadTexts_cases h
  cases made with
  | error f => cases hr
  | ok => exact Failure.whileDoing_eq_ok_iff.1 hr.symm

/-- Where texts can be loaded, nothing has to be made for it. -/
theorem loadTexts_of_loadJson (h : d.loadJson path Json.asTexts? = .ok texts) :
    loadTexts d what path = (.ok texts, d) := by
  obtain ⟨content, hread⟩ := Disk.loadJson_ok h
  unfold loadTexts Disk.ensureFile
  rw [Disk.exists?_of_read hread, if_pos rfl]
  simp only [Failure.whileDoing_eq_ok_iff.2 h]

theorem putsFiles_loadTexts (h : loadTexts d what path = (r, d')) :
    d.PutsFiles noTexts.toUTF8 [resolve [] path] d' := by
  obtain ⟨made, hmade, -⟩ := loadTexts_cases h
  exact Disk.putsFiles_ensureFile hmade

theorem loadTexts_again (htree : d.IsTree) (hground : d.Grounded path)
    (h : loadTexts d what path = (r, d')) :
    d.GrowsTo d' ∧ d'.IsTree ∧ loadTexts d' what path = (r, d') := by
  obtain ⟨made, hmade, rfl⟩ := loadTexts_cases h
  obtain ⟨hgrow, htree', hagain⟩ := Disk.ensureFile_again htree hground hmade
  refine ⟨hgrow, htree', ?_⟩
  have hagain' : d'.ensureFile path "\x7b\x7d" = (made, d') := hagain
  unfold loadTexts
  rw [hagain']
  cases made <;> rfl

namespace Github

/-- What is loaded with an event is loaded so for ever. -/
theorem ofLookup_of_growsTo {d d' : Disk} (hgrow : d.GrowsTo d') {lookup : Lookup} {github : Github}
    (h : ofLookup d lookup = .ok github) : ofLookup d' lookup = .ok github := by
  have hevent : ∀ path event, readEvent d path = .ok event → readEvent d' path = .ok event := by
    intro path event hread
    unfold readEvent at hread ⊢
    by_cases hnone : path = ""
    · rwa [if_pos hnone] at hread ⊢
    · rw [if_neg hnone, Failure.whileDoing_eq_ok_iff] at hread ⊢
      exact hgrow.loadJson hread
  unfold ofLookup at h ⊢
  dsimp only at h ⊢
  cases hread : readEvent d ((lookup "GITHUB_EVENT_PATH").getD "") with
  | error f =>
    rw [hread] at h
    cases h
  | ok event =>
    rw [hread] at h
    rw [hevent _ _ hread]
    exact h

theorem token_ofLookup {d : Disk} {lookup : Lookup} {github : Github}
    (h : ofLookup d lookup = .ok github) : github.token = (lookup "GITHUB_TOKEN").getD "" := by
  unfold ofLookup at h
  dsimp only at h
  cases hread : readEvent d ((lookup "GITHUB_EVENT_PATH").getD "") with
  | error f =>
    rw [hread] at h
    cases h
  | ok event =>
    rw [hread] at h
    cases h
    rfl

end Github

end Context

/-! ## Loading a session -/

namespace Session

/-- How loading can go: something cannot be loaded, or all is. -/
inductive Loads (d : Disk) (host : Host) (settings : Settings) (lookup : Lookup)
    (process : ProcessEnvironment) : Except Failure (Session × List LogEvent) → Disk → Prop where
  | noGithub {f : Failure}
    (hgithub : Failure.whileDoing "Failed to load github context"
      (Context.Github.ofLookup d lookup) = .error f) :
    Loads d host settings lookup process (.error f) d
  | noSecrets {github : Context.Github} {f : Failure} {d' : Disk}
    (hgithub : Context.Github.ofLookup d lookup = .ok github)
    (hsecrets : Context.Secrets.load d (Layout.secretsFile settings.home) = (.error f, d')) :
    Loads d host settings lookup process (.error f) d'
  | noInputs {github : Context.Github} {secrets : Context.Secrets} {f : Failure} {between d' : Disk}
    (hgithub : Context.Github.ofLookup d lookup = .ok github)
    (hsecrets : Context.Secrets.load d (Layout.secretsFile settings.home) = (.ok secrets, between))
    (hinputs : Context.Inputs.load between (Layout.inputsFile settings.home) = (.error f, d')) :
    Loads d host settings lookup process (.error f) d'
  | all {github : Context.Github} {secrets : Context.Secrets} {inputs : Context.Inputs}
    {between d' : Disk} (hgithub : Context.Github.ofLookup d lookup = .ok github)
    (hsecrets : Context.Secrets.load d (Layout.secretsFile settings.home) = (.ok secrets, between))
    (hinputs : Context.Inputs.load between (Layout.inputsFile settings.home) = (.ok inputs, d')) :
    Loads d host settings lookup process
      (.ok (start settings.home (withToken github).1 (loadRunner host settings lookup)
        (secrets.setToken (withToken github).1.token) inputs process, (withToken github).2)) d'

variable {d d' : Disk} {host : Host} {settings : Settings} {lookup : Lookup}
  {process : ProcessEnvironment} {r : Except Failure (Session × List LogEvent)}

theorem loads_of_load (h : load d host settings lookup process = (r, d')) :
    Loads d host settings lookup process r d' := by
  unfold load at h
  split at h
  · rename_i f hgithub
    cases h
    exact .noGithub hgithub
  rename_i github hgithub
  have hgithub := Failure.whileDoing_eq_ok_iff.1 hgithub
  split at h
  · rename_i f between hsecrets
    cases h
    exact .noSecrets hgithub hsecrets
  rename_i secrets between hsecrets
  split at h
  · rename_i f after hinputs
    cases h
    exact .noInputs hgithub hsecrets hinputs
  · rename_i inputs after hinputs
    cases h
    exact .all hgithub hsecrets hinputs

theorem load_of_loads (h : Loads d host settings lookup process r d') :
    load d host settings lookup process = (r, d') := by
  have hwhile {github : Context.Github} (hgithub : Context.Github.ofLookup d lookup = .ok github) :
      Failure.whileDoing "Failed to load github context" (Context.Github.ofLookup d lookup) =
        .ok github :=
    Failure.whileDoing_eq_ok_iff.2 hgithub
  unfold load
  cases h with
  | noGithub hgithub => rw [hgithub]
  | noSecrets hgithub hsecrets =>
    rw [hwhile hgithub]
    simp only [hsecrets]
  | noInputs hgithub hsecrets hinputs =>
    rw [hwhile hgithub]
    simp only [hsecrets, hinputs]
  | all hgithub hsecrets hinputs =>
    rw [hwhile hgithub]
    simp only [hsecrets, hinputs]

/-- The places of the files that may be made. -/
def loadedPlaces (home : String) : List Place :=
  [resolve [] (Layout.secretsFile home), resolve [] (Layout.inputsFile home)]

theorem secretsFile_ne_inputsFile (home : String) :
    resolve [] (Layout.secretsFile home) ≠ resolve [] (Layout.inputsFile home) := by
  have hsecrets : Component "secrets.json" := by decide
  have hinputs : Component "inputs.json" := by decide
  unfold Layout.secretsFile Layout.inputsFile
  rw [resolve_join hsecrets.noSlash, resolve_join hinputs.noSlash, hsecrets.descend,
    hinputs.descend]
  intro h
  have hlast := List.append_inj_right' h rfl
  simp at hlast

theorem grounded_secretsFile (h : d.Grounded settings.home) :
    d.Grounded (Layout.secretsFile settings.home) :=
  (h.join (by decide)).join (by decide)

theorem grounded_inputsFile (h : d.Grounded settings.home) :
    d.Grounded (Layout.inputsFile settings.home) :=
  (h.join (by decide)).join (by decide)

theorem Loads.putsFiles (h : Loads d host settings lookup process r d') :
    d.PutsFiles Context.noTexts.toUTF8 (loadedPlaces settings.home) d' := by
  have hfirst {d d' : Disk} {r : Except Failure Context.Secrets}
      (h : Context.Secrets.load d (Layout.secretsFile settings.home) = (r, d')) :
      d.PutsFiles Context.noTexts.toUTF8 (loadedPlaces settings.home) d' :=
    (Context.putsFiles_loadTexts h).mono (by simp [loadedPlaces])
  have hsecond {d d' : Disk} {r : Except Failure Context.Inputs}
      (h : Context.Inputs.load d (Layout.inputsFile settings.home) = (r, d')) :
      d.PutsFiles Context.noTexts.toUTF8 (loadedPlaces settings.home) d' :=
    (Context.putsFiles_loadTexts h).mono (by simp [loadedPlaces])
  cases h with
  | noGithub => exact .refl _ _ _
  | noSecrets _ hsecrets => exact hfirst hsecrets
  | noInputs _ hsecrets hinputs => exact (hfirst hsecrets).trans (hsecond hinputs)
  | all _ hsecrets hinputs => exact (hfirst hsecrets).trans (hsecond hinputs)

theorem Loads.again (htree : d.IsTree) (hground : d.Grounded settings.home)
    (h : Loads d host settings lookup process r d') :
    d.GrowsTo d' ∧ Loads d' host settings lookup process r d' := by
  have hground₁ := grounded_secretsFile hground
  have hground₂ := grounded_inputsFile hground
  cases h with
  | noGithub hgithub => exact ⟨.refl _, .noGithub hgithub⟩
  | noSecrets hgithub hsecrets =>
    obtain ⟨hgrow, -, hagain⟩ := Context.loadTexts_again htree hground₁ hsecrets
    exact ⟨hgrow, .noSecrets (Context.Github.ofLookup_of_growsTo hgrow hgithub) hagain⟩
  | noInputs hgithub hsecrets hinputs =>
    -- the second run starts where the first one ended, with the secrets already there
    obtain ⟨hgrow, htree', -⟩ := Context.loadTexts_again htree hground₁ hsecrets
    obtain ⟨hgrow', -, hagain⟩ := Context.loadTexts_again htree' (hgrow.grounded hground₂) hinputs
    have hsecrets' := hgrow'.loadJson (Context.loadTexts_ok hsecrets)
    have hgithub' := Context.Github.ofLookup_of_growsTo (hgrow.trans hgrow') hgithub
    exact ⟨hgrow.trans hgrow',
      .noInputs hgithub' (Context.loadTexts_of_loadJson hsecrets') hagain⟩
  | all hgithub hsecrets hinputs =>
    obtain ⟨hgrow, htree', -⟩ := Context.loadTexts_again htree hground₁ hsecrets
    obtain ⟨hgrow', -, hagain⟩ := Context.loadTexts_again htree' (hgrow.grounded hground₂) hinputs
    have hsecrets' := hgrow'.loadJson (Context.loadTexts_ok hsecrets)
    have hgithub' := Context.Github.ofLookup_of_growsTo (hgrow.trans hgrow') hgithub
    exact ⟨hgrow.trans hgrow', .all hgithub' (Context.loadTexts_of_loadJson hsecrets') hagain⟩

/-- A session has what the variables and the files below a home say, and an access token. -/
structure LoadedFrom (d : Disk) (home : String) (lookup : Lookup) (s : Session) : Prop where
  token_nonempty : s.github.token ≠ ""
  token : ∀ token, lookup "GITHUB_TOKEN" = some token → token ≠ "" → s.github.token = token
  tokenSecret : s.secrets.get? "GITHUB_TOKEN" = some s.github.token
  secrets : ∃ secrets, d.loadJson (Layout.secretsFile home) Json.asTexts? = .ok secrets ∧
    ∀ name, name ≠ "GITHUB_TOKEN" → s.secrets.get? name = secrets.get? name
  inputs : d.loadJson (Layout.inputsFile home) Json.asTexts? = .ok s.inputs

theorem token_withToken_ne (github : Context.Github) : (withToken github).1.token ≠ "" := by
  unfold withToken
  by_cases hnone : github.token = ""
  · rw [if_pos hnone]
    have hstandIn : standInToken ≠ "" := by decide
    exact hstandIn
  · rwa [if_neg hnone]

theorem Loads.loadedFrom {s : Session} {events : List LogEvent}
    (h : Loads d host settings lookup process (.ok (s, events)) d') :
    s.LoadedFrom d' settings.home lookup := by
  cases h with
  | @all github secrets inputs between _ hgithub hsecrets hinputs =>
    have htoken := Context.Github.token_ofLookup hgithub
    have hputs := Context.putsFiles_loadTexts hinputs
    have hloaded := Context.loadTexts_ok hsecrets
    obtain ⟨content, hread⟩ := Disk.loadJson_ok hloaded
    -- the file for the inputs is another one
    have hread' := hputs.keepsDirectories.read hread
      (hputs.file_eq (by simp [secretsFile_ne_inputsFile]))
    refine ⟨token_withToken_ne github, fun token hlookup hne => ?_, Dict.get?_insert_self _ _ _,
      ⟨secrets, ?_, fun name hname => Dict.get?_insert_of_ne _ _ hname⟩,
      Context.loadTexts_ok hinputs⟩
    · have hgiven : github.token = token := by rw [htoken, hlookup, Option.getD_some]
      rw [← hgiven] at hne ⊢
      show (withToken github).1.token = _
      rw [withToken, if_neg hne]
    · rw [Disk.loadJson_congr (hread'.trans hread.symm), hloaded]

/-- **Loading a session** puts files without texts where secrets and inputs are kept, and nothing
else. On a tree, with a home that does not go up from a missing directory, it changes nothing that
is there, and loading again gives the same and leaves everything as it is. A session that was loaded
has what the files hold. -/
theorem load_repeatable (h : load d host settings lookup process = (r, d')) :
    d.PutsFiles Context.noTexts.toUTF8 (loadedPlaces settings.home) d' ∧
      (d.IsTree → d.Grounded settings.home →
        d.GrowsTo d' ∧ load d' host settings lookup process = (r, d')) ∧
      ∀ s events, r = .ok (s, events) → s.LoadedFrom d' settings.home lookup := by
  have hloads := loads_of_load h
  refine ⟨hloads.putsFiles, fun htree hground => ?_, fun s events hr => ?_⟩
  · obtain ⟨hgrow, hagain⟩ := hloads.again htree hground
    exact ⟨hgrow, load_of_loads hagain⟩
  · subst hr
    exact hloads.loadedFrom

/-- A disk with a home in which there is a secret, and a directory beside it. -/
def oneSecret : Disk := ⟨.ofList [(["there"], .directory), (["h"], .directory),
  (["h", "secrets"], .directory), (["h", "secrets", "secrets.json"],
    .file "\x7b\"NPM_TOKEN\": \"s3cr3t\"\x7d".toUTF8 true)]⟩

/-- A secret is kept when the home is found by way of a directory that is there. -/
theorem load_repeatable_oneSecret :
    let settings : Settings := { home := "there/../h" }
    oneSecret.IsTree ∧ oneSecret.Grounded settings.home ∧ ∃ s events d',
      load oneSecret ⟨"", "", ""⟩ settings (fun _ => none) (.inMemory ∅) = (.ok (s, events), d') ∧
        oneSecret.GrowsTo d' ∧
        load d' ⟨"", "", ""⟩ settings (fun _ => none) (.inMemory ∅) = (.ok (s, events), d') ∧
        s.LoadedFrom d' settings.home (fun _ => none) ∧
        s.secrets.get? "NPM_TOKEN" = some "s3cr3t" := by
  intro settings
  have htree : oneSecret.IsTree := by decide
  have hground : oneSecret.Grounded settings.home := by decide
  have hsecret : ((load oneSecret ⟨"", "", ""⟩ settings (fun _ => none) (.inMemory ∅)).1.map
      fun loaded => loaded.1.secrets.get? "NPM_TOKEN") = .ok (some "s3cr3t") := by decide +kernel
  refine ⟨htree, hground, ?_⟩
  cases hload : load oneSecret ⟨"", "", ""⟩ settings (fun _ => none) (.inMemory ∅) with
  | mk r d' =>
    rw [hload] at hsecret
    cases r with
    | error f => cases hsecret
    | ok loaded =>
      obtain ⟨-, hrepeatable, hfrom⟩ := load_repeatable hload
      obtain ⟨hgrow, hagain⟩ := hrepeatable htree hground
      refine ⟨loaded.1, loaded.2, d', rfl, hgrow, hagain, hfrom _ _ rfl, ?_⟩
      simpa [Except.map] using hsecret

/-- It is lost when the directory is missing. -/
theorem not_kept_by_load : ¬ ∀ (d : Disk) (host : Host) (settings : Settings) (lookup : Lookup)
    (process : ProcessEnvironment) (p : Place) (content : ByteArray) (isPrivate : Bool),
    d.node? p = some (.file content isPrivate) →
      (load d host settings lookup process).2.node? p = some (.file content isPrivate) := by
  intro hkept
  have hsecret := hkept oneSecret ⟨"", "", ""⟩ { home := "missing/../h" } (fun _ => none)
    (.inMemory ∅) ["h", "secrets", "secrets.json"] _ _ rfl
  revert hsecret
  decide +kernel

end Session

end WorkflowRuns
