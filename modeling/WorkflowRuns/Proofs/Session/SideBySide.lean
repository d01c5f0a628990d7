import WorkflowRuns.Proofs.Session.Calls

/-!
# Two sessions side by side

Of two sessions that differ in something, a call may notice the difference or not. If no call does
(`Unnoticed`), both give the same answers and tell the same in every history. For taking over, the
one call that reads the process environment and writes it, this comes down to three facts about
the difference (`Handing`).
-/

namespace WorkflowRuns

variable {R : Session → Session → Prop} {s t : Session}

/-- Two outcomes with the same answer and the same notices, whose sessions are related. -/
structure Outcome.Alike (R : Session → Session → Prop) (o o' : Outcome) : Prop where
  reply : o'.reply = o.reply
  notices : o'.notices = o.notices
  session : R o.session o'.session

namespace Outcome.Alike

variable {o o' : Outcome}

theorem done (h : R s t) (ns : List Notice) : (Outcome.done s ns).Alike R (.done t ns) :=
  ⟨rfl, rfl, h⟩

theorem refused (h : R s t) (f : Failure) : (Outcome.refused s f).Alike R (.refused t f) :=
  ⟨rfl, rfl, h⟩

theorem after (h : o.Alike R o') (ns : List Notice) : (o.after ns).Alike R (o'.after ns) :=
  ⟨h.reply, congrArg (ns ++ ·) h.notices, h.session⟩

theorem andThen {next : Session → Outcome} (h : o.Alike R o')
    (hnext : ∀ s t, R s t → (next s).Alike R (next t)) :
    (o.andThen next).Alike R (o'.andThen next) := by
  unfold Outcome.andThen
  rw [h.reply]
  split
  · rw [h.notices]
    exact (hnext _ _ h.session).after _
  · exact h

end Outcome.Alike

namespace Session

/-- Related sessions stay related, and no call tells them apart. -/
def Unnoticed (R : Session → Session → Prop) : Prop :=
  ∀ s t, R s t → ∀ c, (s.perform c).Alike R (t.perform c)

/-! ## Taking over -/

/-- The session with a variable set for the processes that are started, unless it is refused. The
value may depend on the one before. -/
def assign? (s : Session) (name : String) (value : Option String → String) : Option Session :=
  (s.process.set? name (value (s.process.get? name))).map fun process =>
    { s with process := process }

/-- A search path with entries put at its end. -/
def extended (entries : List String) (path : Option String) : String :=
  PathList.append (path.getD "") entries

/-- What differs between related sessions has no part in taking over. -/
structure Handing (R : Session → Session → Prop) : Prop where
  stepRun : ∀ {s t}, R s t → t.stepRun = s.stepRun
  writeAll : ∀ {s t}, R s t → ∀ ws, R (s.writeAll ws) (t.writeAll ws)
  assign : ∀ {s t}, R s t → ∀ name value,
    Option.Rel R (s.assign? name value) (t.assign? name value)

theorem takeVariables_cons (s : Session) (e : EnvironmentFile.Entry)
    (rest : List EnvironmentFile.Entry) : s.takeVariables (e :: rest) =
      match s.assign? e.name fun _ => e.value with
      | none => ⟨.aborted, s, [entryNotice "GITHUB_ENV" e]⟩
      | some t => ((t.writeAll [.environment e.name e.value]).takeVariables rest).after
          [entryNotice "GITHUB_ENV" e] := by
  unfold assign?
  rw [takeVariables]
  cases s.process.set? e.name e.value <;> rfl

theorem takePath_eq (s : Session) {entries : List String} (h : entries ≠ []) :
    s.takePath entries =
      match s.assign? pathName (extended entries) with
      | none => ⟨.aborted, s, []⟩
      | some t => .done (t.writeAll (entries.map .path))
          (entries.map fun entry => logDetail s!"GITHUB_PATH: {entry}") := by
  unfold assign?
  rw [takePath, if_neg h]
  unfold extended
  dsimp only
  cases s.process.set? pathName
    (PathList.append ((s.process.get? pathName).getD "") entries) <;> rfl

namespace Handing

variable (hR : Handing R)
include hR

theorem takeVariables (h : R s t) (entries : List EnvironmentFile.Entry) :
    (s.takeVariables entries).Alike R (t.takeVariables entries) := by
  induction entries generalizing s t with
  | nil => exact .done h []
  | cons e rest ih =>
    have hassign := hR.assign h e.name fun _ => e.value
    rw [takeVariables_cons, takeVariables_cons]
    generalize s.assign? e.name (fun _ => e.value) = s', t.assign? e.name (fun _ => e.value) = t'
      at hassign ⊢
    cases hassign with
    | none => exact ⟨rfl, rfl, h⟩
    | some h => exact (ih (hR.writeAll h _)).after _

theorem takePath (h : R s t) (entries : List String) :
    (s.takePath entries).Alike R (t.takePath entries) := by
  by_cases he : entries = []
  · rw [Session.takePath, Session.takePath, if_pos he, if_pos he]
    exact .done h []
  · have hassign := hR.assign h pathName (extended entries)
    rw [takePath_eq s he, takePath_eq t he]
    generalize s.assign? pathName (extended entries) = s',
      t.assign? pathName (extended entries) = t' at hassign ⊢
    cases hassign with
    | none => exact ⟨rfl, rfl, h⟩
    | some h => exact .done (hR.writeAll h _) _

omit hR in
theorem takeFrom {α : Type} (h : R s t) (file : String) (content : Except Failure α)
    {take : Session → α → Outcome} (htake : ∀ a, (take s a).Alike R (take t a)) :
    (s.takeFrom file content take).Alike R (t.takeFrom file content take) := by
  cases content with
  | ok a => exact htake a
  | error f => exact .refused h _

/-- Taking over does not notice the difference. -/
theorem takeOver (h : R s t) (c : EnvironmentFiles.Contents) :
    (s.takeOver c).Alike R (t.takeOver c) := by
  unfold Session.takeOver
  rw [hR.stepRun h]
  split
  · exact .refused h _
  · refine (takeFrom h _ _ (hR.takeVariables h)).andThen fun s t h => ?_
    refine (takeFrom h _ _ (hR.takePath h)).andThen fun s t h => ?_
    refine (takeFrom h _ _ fun entries => .done (hR.writeAll h _) _).andThen fun s t h => ?_
    exact takeFrom h _ _ fun text => .done (hR.writeAll h _) _

end Handing

end Session

end WorkflowRuns
