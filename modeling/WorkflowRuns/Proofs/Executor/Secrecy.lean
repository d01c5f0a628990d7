import WorkflowRuns.Proofs.Executor.SideBySide

/-!
# Secrets stay where they are

The secrets and the access token are seen by an expression that asks for them, and by nobody else.
Of two sessions that differ in nothing else (`SameButSecrets`) no call notices the difference, so
two executors with these sessions answer, keep, trace and log the same in every history.
-/

namespace WorkflowRuns

namespace Session

/-- Two sessions are the same but for their secrets and the access token. -/
def SameButSecrets : Session → Session → Prop :=
  Apart fun a b => ∃ secrets token, b = { a with secrets := secrets, token := token }

/-- **No call notices which secrets there are.** -/
theorem unnoticed_sameButSecrets : Unnoticed SameButSecrets := by
  apply Discreet.unnoticed
  constructor
  · rintro a _ ⟨secrets, token, rfl⟩ c
    exact ⟨secrets, token, by cases c <;> rfl⟩
  · rintro a _ ⟨secrets, token, rfl⟩ name value
    dsimp only
    cases a.process.set? name (value (a.process.get? name)) with
    | none => exact .none
    | some process => exact .some ⟨secrets, token, rfl⟩
  · -- the token is not handed on
    rintro s _ ⟨secrets, token, rfl⟩ run
    exact ⟨rfl, secrets, token, rfl⟩

theorem SameButSecrets.showSame {s t : Session} (h : s.SameButSecrets t) :
    ShowSame ["secrets"] ["token"] s t := by
  obtain ⟨_, ⟨secrets, token, rfl⟩, rfl⟩ := h
  apply showSame_carrying
  · intro hsecrets
    exact absurd List.mem_cons_self hsecrets
  · intro htoken
    exact absurd List.mem_cons_self htoken
  · exact fun _ => rfl
  · exact fun _ => rfl
  · exact fun _ => rfl

end Session

/-- Two occurrences of one operation that nobody can tell apart, except by asking for the secrets or
for the access token. -/
structure Occurrence.SameButSecrets (v v' : Occurrence) : Prop where
  operation : v'.operation = v.operation
  answer : v.SameAnswer ["github", "secrets"] v'
  told : v'.told = v.told
  left : v'.left = { v.left with
    secrets := v'.left.secrets
    github := { v.left.github with token := v'.left.github.token } }
  shown : v.left.ShowSame ["secrets"] ["token"] v'.left

theorem Occurrence.Alike.sameButSecrets {v v' : Occurrence}
    (h : v.Alike Session.SameButSecrets v') : v.SameButSecrets v' where
  operation := h.operation
  answer := h.sameAnswer h.left.showSame
  told := h.told
  left := by
    obtain ⟨_, ⟨secrets, token, rfl⟩, hleft⟩ := h.left
    rw [hleft]
    rfl
  shown := h.left.showSame

namespace Executor

/-- **Secrets reach nobody who does not ask for them.** Of two executors that are built alike, but
for the secrets and the access token, both give the same answers, leave the same session and want
the same said and kept at every operation of every history; only `secrets` and the member `token` of
`github` show a difference. Files, reports, trace and log come out the same. -/
theorem secrecy_of_history (around : Executor) (home : String) (github : Context.Github)
    (runner : Context.Runner) (inputs : Context.Inputs) (process : ProcessEnvironment)
    (secrets secrets' : Context.Secrets) (token token' : String) (ops : List Operation) :
    let built secrets token : Executor := { around with
      session := .start home { github with token := token } runner secrets inputs process
      archive := .shelf fun _ _ => none }
    let one := built secrets token
    let other := built secrets' token'
    List.Forall₂ Occurrence.SameButSecrets (one.history ops) (other.history ops) ∧
      other.operateAll ops =
        { one.operateAll ops with session := (other.operateAll ops).session } := by
  intro built one other
  have hbeside : Beside Session.SameButSecrets one other :=
    ⟨⟨_, ⟨secrets', token', rfl⟩, rfl⟩, rfl, rfl, rfl⟩
  have hhistory := hbeside.history Session.unnoticed_sameButSecrets ops
  exact ⟨hhistory.imp fun _ _ h => h.sameButSecrets,
    operateAll_around Session.unnoticed_sameButSecrets hbeside ops⟩

end Executor

end WorkflowRuns
