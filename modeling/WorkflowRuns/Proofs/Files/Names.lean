import Mathlib.Data.List.DropRight
import WorkflowRuns.Proofs.Files.Path

/-!
# The names in a path

Of the pieces of a path, those that are empty and `.` name nothing, and a disk follows the others
one by one (`Disk.enter_pieces`). How a path ends is a matter of its text, whatever there is on the
disk (`Disk.follow_cases`). The directory above a path is at the front of its text
(`parent?_front`), and its names are those of the path without the last one (`names_of_parent?`).
-/

namespace WorkflowRuns

namespace Path

/-- Whether a piece of a path names nothing. -/
def isIdle (s : List Char) : Bool := s = [] || s = ['.']

/-- The names among the pieces of a path. -/
def namesIn (segments : List (List Char)) : List String :=
  (segments.filter fun s => !isIdle s).map String.ofList

/-- The names in a path. -/
def names (path : String) : List String := namesIn (split path.toList)

/-- The pieces of a path up to the last one that is not empty. -/
def pieces (path : String) : List (List Char) := (split path.toList).rdropWhile (· = [])

/-- A text that the system takes as a path. -/
structure Valid (path : String) : Prop where
  noNul : '\x00' ∉ path.toList
  nonempty : path ≠ ""
  short : path.utf8ByteSize ≤ Disk.longestPath

/-- The last piece of a path is a name, unless there is none in it. -/
def Tidy (path : String) : Prop :=
  names path = [] ∨ ∀ s ∈ (split path.toList).getLast?, isIdle s = false

/-! ## Pieces that name nothing -/

theorem isIdle_iff {s : List Char} :
    isIdle s = true ↔ String.ofList s = "" ∨ String.ofList s = "." := by
  have hempty : String.ofList s = "" ↔ s = [] := by simp
  have hpoint : String.ofList s = "." ↔ s = ['.'] := by
    refine ⟨fun h => ?_, fun h => by rw [h]⟩
    simpa using congrArg String.toList h
  rw [hempty, hpoint, isIdle]
  simp

@[simp] theorem namesIn_append (segments segments' : List (List Char)) :
    namesIn (segments ++ segments') = namesIn segments ++ namesIn segments' := by
  simp [namesIn]

theorem namesIn_singleton {s : List Char} (h : isIdle s = false) :
    namesIn [s] = [String.ofList s] := by
  simp [namesIn, h]

theorem namesIn_singleton_idle {s : List Char} (h : isIdle s = true) : namesIn [s] = [] := by
  simp [namesIn, h]

theorem namesIn_cons_idle {s : List Char} (h : isIdle s = true) (segments : List (List Char)) :
    namesIn (s :: segments) = namesIn segments := by
  simp [namesIn, h]

theorem ne_of_mem_namesIn {segments : List (List Char)} {name : String}
    (h : name ∈ namesIn segments) : name ≠ "" ∧ name ≠ "." := by
  obtain ⟨s, hs, rfl⟩ := List.mem_map.1 h
  have hidle : ¬ isIdle s = true := by simpa using (List.mem_filter.1 hs).2
  rwa [isIdle_iff, not_or] at hidle

/-- Idle pieces at the end make no difference to the names. -/
theorem namesIn_rdropWhile {p : List Char → Bool} (hp : ∀ s, p s = true → isIdle s = true)
    (segments : List (List Char)) : namesIn (segments.rdropWhile p) = namesIn segments := by
  induction segments using List.reverseRecOn with
  | nil => simp
  | append_singleton segments s ih =>
    rw [List.rdropWhile_concat]
    split
    · rename_i hs
      rw [ih, namesIn_append, namesIn_singleton_idle (hp s hs), List.append_nil]
    · rfl

theorem namesIn_pieces (path : String) : namesIn (pieces path) = names path :=
  namesIn_rdropWhile (fun s hs => by simp_all [isIdle]) _

theorem dropIdle_front (segments : List (List Char)) : dropIdle segments <+: segments :=
  List.rdropWhile_prefix isIdle segments

/-- What is left after idle pieces are dropped at the end does not end in one. -/
theorem isIdle_of_dropIdle {segments init : List (List Char)} {last : List Char}
    (h : dropIdle segments = init ++ [last]) : isIdle last = false := by
  have hne : segments.rdropWhile isIdle ≠ [] := by
    intro hnil
    have hdrop : dropIdle segments = [] := hnil
    simp [hdrop] at h
  have hlast := List.rdropWhile_last_not isIdle segments hne
  have heq : (segments.rdropWhile isIdle).getLast hne = last := by
    have hdrop : segments.rdropWhile isIdle = init ++ [last] := h
    simp [hdrop]
  rw [heq] at hlast
  simpa using hlast

theorem namesIn_dropIdle (segments : List (List Char)) :
    namesIn (dropIdle segments) = namesIn segments :=
  namesIn_rdropWhile (p := isIdle) (fun _ h => h) segments

/-! ## Splitting and its inverse -/

theorem split_eq_splitOn (cs : List Char) : split cs = cs.splitOn '/' := by
  induction cs with
  | nil => rfl
  | cons c cs ih =>
    obtain ⟨s, ss, hs⟩ := List.exists_cons_of_ne_nil (split_ne_nil cs)
    rw [List.splitOn, List.splitOnP_cons_eq_if_modifyHead, ← List.splitOn, ← ih, hs]
    by_cases hc : c = '/' <;> simp [split, hc, hs]

theorem unsplit_split (cs : List Char) : unsplit (split cs) = cs := by
  rw [split_eq_splitOn, unsplit, List.intercalate_splitOn]

theorem noSlash_of_mem_split {cs s : List Char} (h : s ∈ split cs) : '/' ∉ s := by
  induction cs generalizing s with
  | nil => simp_all [split]
  | cons c cs ih =>
    obtain ⟨s', ss, hs⟩ := List.exists_cons_of_ne_nil (split_ne_nil cs)
    rw [hs] at ih
    by_cases hc : c = '/'
    · simp only [split, hc, if_true, hs] at h
      rcases List.mem_cons.1 h with rfl | h
      · simp
      · exact ih h
    · simp only [split, if_neg hc, hs] at h
      rcases List.mem_cons.1 h with rfl | h
      · have hs' : '/' ∉ s' := ih List.mem_cons_self
        simp [Ne.symm hc, hs']
      · exact ih (List.mem_cons_of_mem _ h)

theorem split_unsplit {segments : List (List Char)} (h : ∀ s ∈ segments, '/' ∉ s)
    (hnil : segments ≠ []) : split (unsplit segments) = segments := by
  rw [split_eq_splitOn, unsplit, List.splitOn_intercalate '/' h hnil]

/-- The names among pieces are those in the path that is made of them. -/
theorem namesIn_split_unsplit {segments : List (List Char)} (h : ∀ s ∈ segments, '/' ∉ s) :
    namesIn (split (unsplit segments)) = namesIn segments := by
  by_cases hnil : segments = []
  · rw [hnil]
    rfl
  · rw [split_unsplit h hnil]

theorem unsplit_mono {segments segments' : List (List Char)} (h : segments <+: segments') :
    unsplit segments <+: unsplit segments' := by
  obtain ⟨rest, rfl⟩ := h
  induction segments with
  | nil => exact List.nil_prefix
  | cons s segments ih =>
    cases segments with
    | nil =>
      cases rest with
      | nil => exact List.prefix_refl _
      | cons s' rest => simp [unsplit]
    | cons s' segments =>
      simp only [unsplit, List.cons_append, List.intercalate_cons_cons] at ih ⊢
      exact (List.prefix_append_right_inj _).2 ih

/-! ## The directory above -/

/-- What is taken off the start of a path before its directory is looked for: a slash, or a point
that no name follows. -/
inductive Front : List Char → List Char → Prop where
  | nothing (body : List Char) : Front [] body
  | root (body : List Char) : Front ['/'] body
  | point : Front ['.'] []
  | pointSlash (body : List Char) : Front ['.'] ('/' :: body)

theorem Front.shorten {front body body' : List Char} (h : Front front body)
    (hbody : body' <+: body) : Front front body' := by
  cases h with
  | nothing => exact .nothing body'
  | root => exact .root body'
  | point =>
    obtain rfl := List.prefix_nil.1 hbody
    exact .point
  | pointSlash =>
    rcases List.prefix_cons_iff.1 hbody with rfl | ⟨rest, rfl, -⟩
    · exact .point
    · exact .pointSlash rest

theorem Front.namesIn_split {front body : List Char} (h : Front front body) :
    namesIn (split (front ++ body)) = namesIn (split body) := by
  cases h with
  | nothing => rfl
  | root => exact namesIn_cons_idle (s := []) rfl (split body)
  | point => rfl
  | pointSlash body =>
    have hpoint : split (['.'] ++ '/' :: body) = ['.'] :: split body := by
      rw [split_append_slash, split_eq_singleton (by simp), List.singleton_append]
    have hroot : split ('/' :: body) = [] :: split body := rfl
    rw [hpoint, hroot, namesIn_cons_idle rfl, namesIn_cons_idle rfl]

theorem Front.getLast?_split {front body : List Char} (h : Front front body) (hbody : body ≠ []) :
    (split (front ++ body)).getLast? = (split body).getLast? := by
  cases h with
  | nothing => rfl
  | root =>
    have hroot : split (['/'] ++ body) = [] :: split body := rfl
    rw [hroot, List.getLast?_cons_of_ne_nil (split_ne_nil body)]
  | point => exact absurd rfl hbody
  | pointSlash body =>
    have hpoint : split (['.'] ++ '/' :: body) = ['.'] :: split body := by
      rw [split_append_slash, split_eq_singleton (by simp), List.singleton_append]
    have hroot : split ('/' :: body) = [] :: split body := rfl
    rw [hpoint, hroot, List.getLast?_cons_of_ne_nil (split_ne_nil body),
      List.getLast?_cons_of_ne_nil (split_ne_nil body)]

/-- How the directory above a path is found. -/
theorem parent?_cases (path : String) : ∃ front body, path.toList = front ++ body ∧
    Front front body ∧ parent? path = match dropIdle (split body) with
      | [] => if front = ['.'] then some "" else none
      | segments => some (String.ofList (front ++ unsplit (dropIdle segments.dropLast))) := by
  unfold parent?
  split
  rename_i front body hcut
  split at hcut
  · rename_i htext
    cases hcut
    exact ⟨['/'], _, htext, .root _, rfl⟩
  · rename_i htext
    cases hcut
    exact ⟨['.'], [], htext, .point, rfl⟩
  · rename_i htext
    cases hcut
    exact ⟨['.'], _, htext, .pointSlash _, rfl⟩
  · cases hcut
    exact ⟨[], path.toList, rfl, .nothing _, rfl⟩

/-- Pieces at the start of a text stand at its start when slashes are put between them again. -/
theorem unsplit_front {segments : List (List Char)} {cs : List Char} (h : segments <+: split cs) :
    unsplit segments <+: cs := by
  have hunsplit := unsplit_mono h
  rwa [unsplit_split] at hunsplit

section

variable {front body : List Char} (h : Front front body) {init : List (List Char)}
  (hinit : dropIdle init <+: split body)
include h hinit

theorem Front.names_shorten :
    names (String.ofList (front ++ unsplit (dropIdle init))) = namesIn init := by
  have hnoSlash : ∀ s ∈ dropIdle init, '/' ∉ s := fun s hs => noSlash_of_mem_split (hinit.subset hs)
  rw [names, String.toList_ofList, (h.shorten (unsplit_front hinit)).namesIn_split,
    namesIn_split_unsplit hnoSlash, namesIn_dropIdle]

theorem Front.tidy_shorten : Tidy (String.ofList (front ++ unsplit (dropIdle init))) := by
  have hnoSlash : ∀ s ∈ dropIdle init, '/' ∉ s := fun s hs => noSlash_of_mem_split (hinit.subset hs)
  have hfront := h.shorten (unsplit_front hinit)
  by_cases hnil : unsplit (dropIdle init) = []
  · left
    rw [names, String.toList_ofList, hfront.namesIn_split, hnil]
    rfl
  · right
    have hne : dropIdle init ≠ [] := by
      intro heq
      exact hnil (by rw [heq]; rfl)
    rw [String.toList_ofList, hfront.getLast?_split hnil, split_unsplit hnoSlash hne]
    intro s hs
    obtain ⟨init', heq⟩ := List.getLast?_eq_some_iff.1 hs
    exact isIdle_of_dropIdle heq

end

/-- The directory above a path stands at the front of it, and its names are all names of the path
but the last one. -/
theorem parent?_front {path above : String} (h : parent? path = some above) :
    ∃ rest, path.toList = above.toList ++ rest ∧ rest ≠ [] ∧ names above = (names path).dropLast ∧
      Tidy above := by
  obtain ⟨front, body, htext, hfront, hparent⟩ := parent?_cases path
  have hnames : names path = namesIn (dropIdle (split body)) := by
    rw [names, htext, hfront.namesIn_split, namesIn_dropIdle]
  rw [hparent] at h
  split at h
  · -- there is no name in the path, and it is all in what was taken off
    rename_i hbody
    by_cases hpoint : front = ['.']
    · rw [if_pos hpoint] at h
      cases h
      refine ⟨path.toList, rfl, ?_, ?_, .inl rfl⟩
      · simp [htext, hpoint]
      · rw [hnames, hbody]
        rfl
    · rw [if_neg hpoint] at h
      cases h
  · rename_i hsegments
    cases h
    obtain ⟨init, last, hlast⟩ := (List.eq_nil_or_concat' (dropIdle (split body))).resolve_left
      hsegments
    rw [hlast, List.dropLast_concat]
    have hinit : dropIdle init <+: split body :=
      (dropIdle_front init).trans
        ((List.prefix_append init [last]).trans (hlast ▸ dropIdle_front (split body)))
    have habove := hfront.names_shorten hinit
    have hpath : names path = namesIn init ++ [String.ofList last] := by
      rw [hnames, hlast, namesIn_append, namesIn_singleton (isIdle_of_dropIdle hlast)]
    obtain ⟨rest, hrest⟩ := unsplit_front hinit
    refine ⟨rest, ?_, ?_, ?_, hfront.tidy_shorten hinit⟩
    · rw [htext, String.toList_ofList, List.append_assoc, hrest]
    · -- otherwise the path would be the one above, which has a name less
      rintro rfl
      rw [List.append_nil] at hrest
      have hsame : names path = namesIn init := by
        rw [← habove, hrest, ← htext, String.ofList_toList]
      simp [hsame] at hpath
    · rw [habove, hpath, List.dropLast_concat]

theorem names_of_parent?_none {path : String} (h : parent? path = none) : names path = [] := by
  obtain ⟨front, body, htext, hfront, hparent⟩ := parent?_cases path
  rw [hparent] at h
  split at h
  · rename_i hbody
    rw [names, htext, hfront.namesIn_split, ← namesIn_dropIdle, hbody]
    rfl
  · cases h

/-- What stands at the front of a path can be handed to the system too. -/
theorem Valid.of_front {path above : String} {rest : List Char} (h : Valid path)
    (hfront : path.toList = above.toList ++ rest) (habove : above ≠ "") : Valid above where
  noNul hmem := h.noNul (by simp [hfront, hmem])
  nonempty := habove
  short := by
    have hpath : path = above ++ String.ofList rest := by
      rw [← String.toList_inj, hfront, String.toList_append, String.toList_ofList]
    have hshort := h.short
    rw [hpath, String.utf8ByteSize_append] at hshort
    omega

theorem names_join {name : String} (h : Component name) (base : String) :
    names (join base name) = names base ++ [name] := by
  have hidle : isIdle name.toList = false := by
    have hnil : name.toList ≠ [] := mt String.toList_eq_nil_iff.1 h.nonempty
    have hdot : name.toList ≠ ['.'] := by
      intro heq
      refine h.notHere ?_
      rw [← String.ofList_toList (s := name), heq]
    simp [isIdle, hnil, hdot]
  have hname : namesIn [name.toList] = [name] := by
    rw [namesIn_singleton hidle, String.ofList_toList]
  have hsplit : split name.toList = [name.toList] := split_eq_singleton h.noSlash
  unfold join
  rw [not_isAbsolute_of_noSlash h.noSlash, if_neg Bool.false_ne_true]
  by_cases hempty : base = ""
  · rw [if_pos (.inl hempty), hempty, String.empty_append, names, hsplit, hname]
    rfl
  by_cases hslash : base.toList.getLast? = some '/'
  · rw [if_pos (.inr hslash)]
    obtain ⟨front, hfront⟩ := List.getLast?_eq_some_iff.1 hslash
    have hjoined : (base ++ name).toList = front ++ '/' :: name.toList := by simp [hfront]
    rw [names, names, hjoined, hfront, split_append_slash, split_append_slash, hsplit,
      namesIn_append, namesIn_append, hname]
    simp [split, namesIn_singleton_idle, isIdle]
  · rw [if_neg (not_or.2 ⟨hempty, hslash⟩)]
    have hjoined : (base ++ ("/" ++ name)).toList = base.toList ++ '/' :: name.toList := by simp
    rw [names, hjoined, split_append_slash, hsplit, namesIn_append, hname, names]

theorem descend_name {name : String} (hstays : name ≠ "" ∧ name ≠ ".") (hup : name ≠ "..")
    (here : Place) : descend here name = here ++ [name] := by
  rw [descend, if_neg (not_or.2 hstays), if_neg hup]

theorem descendAll_concat (here : Place) (names : List String) (name : String) :
    descendAll here (names ++ [name]) = descend (descendAll here names) name :=
  List.foldl_append

/-- Where a path leads is where its names lead. -/
theorem resolve_eq_descendAll (path : String) : resolve [] path = descendAll [] (names path) := by
  have hidle : ∀ (segments : List (List Char)) (here : Place),
      descendAll here (segments.map String.ofList) = descendAll here (namesIn segments) := by
    intro segments
    induction segments with
    | nil => exact fun _ => rfl
    | cons s segments ih =>
      intro here
      cases hs : isIdle s with
      | true =>
        have hstays : String.ofList s = "" ∨ String.ofList s = "." := isIdle_iff.1 hs
        rw [namesIn_cons_idle hs, ← ih here]
        show descendAll (descend here (String.ofList s)) _ = _
        rw [descend, if_pos hstays]
      | false =>
        rw [← List.singleton_append, namesIn_append, namesIn_singleton hs]
        exact ih (descend here (String.ofList s))
  unfold resolve
  rw [ite_self, hidle, names]

end Path

namespace Disk

open WorkflowRuns.Path

/-! ## Following names -/

theorem enter_stays (d : Disk) (here : Place) {name : String} (h : name = "" ∨ name = ".")
    (names : List String) : d.enter here (name :: names) = d.enter here names := by
  simp only [enter, if_pos h]

theorem enter_cons (d : Disk) (here : Place) (name : String) (names : List String) :
    d.enter here (name :: names) = (d.enter here [name]).bind fun there => d.enter there names := by
  by_cases hstays : name = "" ∨ name = "."
  · rw [enter_stays d here hstays, enter_stays d here hstays]
    rfl
  by_cases hup : name = ".."
  · simp [enter, hup, Except.bind]
  simp only [enter, if_neg hstays, if_neg hup]
  split <;> rfl

theorem enter_append (d : Disk) (here : Place) (names names' : List String) :
    d.enter here (names ++ names') =
      (d.enter here names).bind fun there => d.enter there names' := by
  induction names generalizing here with
  | nil => rfl
  | cons name names ih =>
    rw [List.cons_append, enter_cons, d.enter_cons here name names]
    cases d.enter here [name] with
    | error e => rfl
    | ok there => exact ih there

/-- Idle pieces lead nowhere else. -/
theorem enter_pieces (d : Disk) (here : Place) (segments : List (List Char)) :
    d.enter here (segments.map String.ofList) = d.enter here (namesIn segments) := by
  induction segments generalizing here with
  | nil => rfl
  | cons s segments ih =>
    cases hs : isIdle s with
    | true =>
      have hstays : String.ofList s = "" ∨ String.ofList s = "." := isIdle_iff.1 hs
      rw [namesIn_cons_idle hs, List.map_cons, enter_stays d here hstays, ih]
    | false =>
      rw [← List.singleton_append, namesIn_append, namesIn_singleton hs, List.map_append,
        List.map_singleton, enter_append, enter_append]
      simp only [ih]

/-- What no system takes as a path leads nowhere, and that nothing is there is said of the empty one
only. -/
theorem follow_of_not_valid {path : String} (h : ¬ Valid path) :
    ∃ e, (e = .notFound → path = "") ∧ ∀ d : Disk, d.follow path = .error e := by
  unfold follow
  by_cases hnul : path.toList.contains '\x00' = true
  · exact ⟨.nulInPath, nofun, fun d => by rw [if_pos hnul]⟩
  by_cases hempty : path = ""
  · exact ⟨.notFound, fun _ => hempty, fun d => by rw [if_neg hnul, if_pos hempty]⟩
  by_cases hlong : longestPath < path.utf8ByteSize
  · exact ⟨.nameTooLong, nofun, fun d => by rw [if_neg hnul, if_neg hempty, if_pos hlong]⟩
  · exact absurd ⟨by simpa using hnul, hempty, Nat.not_lt.1 hlong⟩ h

theorem ne_nil_of_pieces {path : String} {init : List (List Char)} {last : List Char}
    (h : pieces path = init ++ [last]) : last ≠ [] := by
  have hne : pieces path ≠ [] := by simp [h]
  have hlast := List.rdropWhile_last_not (· = []) (split path.toList) hne
  have heq : ((split path.toList).rdropWhile (· = [])).getLast hne = last := by
    have hpieces : (split path.toList).rdropWhile (· = []) = init ++ [last] := h
    simp [hpieces]
  rw [heq] at hlast
  simpa using hlast

theorem pieces_of_last {path : String}
    (h : ∀ s ∈ (split path.toList).getLast?, isIdle s = false) : pieces path = split path.toList := by
  rw [pieces, List.rdropWhile_eq_self_iff]
  intro hne hempty
  have hlast := h _ (List.getLast_mem_getLast? hne)
  simp [isIdle, of_decide_eq_true hempty] at hlast

/-- What the system looks at when it follows a path, in pieces. -/
theorem map_pieces (path : String) :
    (((split path.toList).map String.ofList).reverse.dropWhile (· = "")).reverse =
      (pieces path).map String.ofList := by
  have hempty : (fun s : String => decide (s = "")) ∘ String.ofList = fun s => decide (s = []) := by
    funext s
    simp
  rw [← List.map_reverse, List.dropWhile_map, hempty, ← List.map_reverse, pieces, List.rdropWhile]

theorem follow_of_no_pieces {path : String} (h : Valid path) (hpieces : pieces path = []) (d : Disk) :
    d.follow path = .ok (.here []) := by
  have hnul : path.toList.contains '\x00' = false := by simpa using h.noNul
  unfold follow
  rw [hnul, if_neg Bool.false_ne_true, if_neg h.nonempty, if_neg (Nat.not_lt.2 h.short)]
  simp only [map_pieces, hpieces]
  rfl

theorem follow_of_pieces {path : String} (h : Valid path) {init : List (List Char)}
    {last : List Char} (hpieces : pieces path = init ++ [last]) (d : Disk) : d.follow path =
      if String.ofList last = "." ∨ String.ofList last = ".." then
        (d.enter [] (names path)).map .here
      else (d.enter [] (namesIn init)).map
        (.name · (String.ofList last) ((pieces path).length ≠ (split path.toList).length)) := by
  have hnul : path.toList.contains '\x00' = false := by simpa using h.noNul
  unfold follow
  rw [hnul, if_neg Bool.false_ne_true, if_neg h.nonempty, if_neg (Nat.not_lt.2 h.short)]
  simp only [map_pieces, ← namesIn_pieces, ← enter_pieces, hpieces]
  simp

/-- A path ends at a directory that its last piece does not name, or at a name. Its text decides
which. -/
theorem follow_cases {path : String} (h : Valid path) :
    ((∀ d : Disk, d.follow path = (d.enter [] (names path)).map .here) ∧
      (Tidy path → names path = [] ∨ ∃ front, names path = front ++ [".."])) ∨
    ∃ front name slash, names path = front ++ [name] ∧ name ≠ ".." ∧
      ∀ d : Disk, d.follow path = (d.enter [] front).map (.name · name slash) := by
  rcases List.eq_nil_or_concat' (pieces path) with hnil | ⟨init, last, hlast⟩
  · left
    have hnone : names path = [] := by
      rw [← namesIn_pieces, hnil]
      rfl
    refine ⟨fun d => ?_, fun _ => .inl hnone⟩
    rw [follow_of_no_pieces h hnil, hnone]
    rfl
  have hnames : names path = namesIn init ++ namesIn [last] := by
    rw [← namesIn_pieces, hlast, namesIn_append]
  by_cases hdots : String.ofList last = "." ∨ String.ofList last = ".."
  · left
    refine ⟨fun d => ?_, fun htidy => ?_⟩
    · rw [follow_of_pieces h hlast, if_pos hdots]
    · rcases htidy with hnone | hlastPiece
      · exact .inl hnone
      right
      -- the last piece is no idle one, so nothing was dropped behind it
      have hidle : isIdle last = false :=
        hlastPiece last (by rw [← pieces_of_last hlastPiece, hlast]; simp)
      refine ⟨namesIn init, ?_⟩
      rw [hnames, namesIn_singleton hidle]
      rcases hdots with hdot | hup
      · rw [isIdle_iff.2 (.inr hdot)] at hidle
        cases hidle
      · rw [hup]
  · right
    obtain ⟨hdot, hup⟩ := not_or.1 hdots
    have hidle : isIdle last = false := by
      have hpoint : last ≠ ['.'] := by
        rintro rfl
        exact hdot rfl
      simp [isIdle, ne_nil_of_pieces hlast, hpoint]
    refine ⟨namesIn init, String.ofList last,
      decide ((pieces path).length ≠ (split path.toList).length), ?_, hup, fun d => ?_⟩
    · rw [hnames, namesIn_singleton hidle]
    · rw [follow_of_pieces h hlast, if_neg hdots]

/-- Where a path ends depends on the disk only by where some names lead. -/
theorem follow_form (path : String) : (∃ e, ∀ d : Disk, d.follow path = .error e) ∨
    ∃ names f, ∀ d : Disk, d.follow path = (d.enter [] names).map f := by
  by_cases hvalid : Valid path
  · right
    rcases follow_cases hvalid with ⟨hhere, -⟩ | ⟨front, name, slash, -, -, hname⟩
    · exact ⟨names path, .here, hhere⟩
    · exact ⟨front, (.name · name slash), hname⟩
  · left
    obtain ⟨e, -, hrefused⟩ := follow_of_not_valid hvalid
    exact ⟨e, hrefused⟩

theorem valid_of_follow {d : Disk} {path : String} {ending : Ending}
    (h : d.follow path = .ok ending) : Valid path := by
  by_contra hvalid
  obtain ⟨e, -, hrefused⟩ := follow_of_not_valid hvalid
  rw [hrefused] at h
  cases h

/-- A path that ends at a name leads through the names before it, on other disks as well. -/
theorem enter_of_follow {d : Disk} {path name : String} {directory : Place} {slash : Bool}
    (h : d.follow path = .ok (.name directory name slash)) :
    ∃ front, names path = front ++ [name] ∧ name ≠ ".." ∧ d.enter [] front = .ok directory ∧
      ∀ d' : Disk, d'.follow path = (d'.enter [] front).map (.name · name slash) := by
  rcases follow_cases (valid_of_follow h) with ⟨hhere, -⟩ | ⟨front, last, slash', hnames, hup, hname⟩
  · rw [hhere] at h
    cases hthere : d.enter [] (names path) <;> simp [hthere, Except.map] at h
  · have h' := h
    rw [hname] at h'
    cases hfront : d.enter [] front with
    | error e => simp [hfront, Except.map] at h'
    | ok there =>
      simp only [hfront, Except.map, Except.ok.injEq, Ending.name.injEq] at h'
      obtain ⟨rfl, rfl, rfl⟩ := h'
      exact ⟨front, hnames, hup, hfront, hname⟩

/-- A path that ends at a name leads to that name. -/
theorem resolve_of_follow {d : Disk} {path name : String} {directory : Place} {slash : Bool}
    (h : d.follow path = .ok (.name directory name slash)) :
    resolve [] path = directory ++ [name] := by
  obtain ⟨front, hnames, hup, hfront, -⟩ := enter_of_follow h
  have hmem : name ∈ names path := by simp [hnames]
  rw [resolve_eq_descendAll, hnames, descendAll_concat, ← enter_eq_descendAll hfront,
    descend_name (ne_of_mem_namesIn hmem) hup]

end Disk

end WorkflowRuns
