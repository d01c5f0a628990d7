import WorkflowRuns.Proofs.Json.Codec
import WorkflowRuns.Proofs.Session.Baggage

/-!
# What expressions see of two sessions

Two sessions that differ in secrets, access token, active action and its files show the same in
expressions, except under `secrets` and in the members of `github` that tell of these
(`showSame_carrying`).
-/

namespace WorkflowRuns

open Json

namespace Context.Github

/-- The member of a name in the JSON form of the context. -/
def member? (g : Github) (name : String) : Option Json :=
  (fields? [] g.toJson).bind fun members => (Json.lookUp? name members).join

/-- A member tells of one field only. -/
theorem member?_congr {g g' : Github} {name : String}
    (h : g' = { g with
      token := g'.token
      actionPath := g'.actionPath
      envFile := g'.envFile
      pathFile := g'.pathFile })
    (htoken : name = "token" → g'.token = g.token)
    (haction : name = "action_path" → g'.actionPath = g.actionPath)
    (henv : name = "env" → g'.envFile = g.envFile)
    (hpath : name = "path" → g'.pathFile = g.pathFile) : g'.member? name = g.member? name := by
  rw [h]
  unfold member? toJson
  simp only [fields?_record, Option.bind_some, lookUp?_entries, Option.join_some,
    get?_members_field]
  by_cases ht : name = "token"
  · simp [ht, htoken ht]
  by_cases ha : name = "action_path"
  · simp [ha, haction ha]
  by_cases he : name = "env"
  · simp [he, henv he]
  by_cases hp : name = "path"
  · simp [hp, hpath hp]
  simp only [ht, ha, he, hp, if_false]

end Context.Github

theorem Expression.Name.text_of_ofText? {text : String} {n : Name}
    (h : ofText? text = some n) : n.text = text := by
  simpa using List.find?_some h

namespace Session

theorem shows_github (s : Session) : s.Shows "github" s.github.member? := by
  obtain ⟨members, hmembers⟩ : ∃ d : Dict String Json, s.github.toJson = .object d.entries :=
    ⟨_, rfl⟩
  refine ⟨members.entries, congrArg (some <| Expression.Variable.value ·) hmembers, fun name => ?_⟩
  simp [Context.Github.member?, hmembers, fields?, lookUp?_entries]

/-- Every text stands for the same in both sessions, except for some texts and some members of the
`github` context. -/
structure ShowSame (texts members : List String) (s t : Session) : Prop where
  others : ∀ text, text ≠ "github" → text ∉ texts →
    Expression.lookUp? t text = Expression.lookUp? s text
  github : ∃ shown shown', s.Shows "github" shown ∧ t.Shows "github" shown' ∧
    ∀ name, name ∉ members → shown' name = shown name

/-- What is carried along shows where it is told of, and nowhere else. -/
theorem showSame_carrying {s : Session} {b : Baggage} {texts members : List String}
    (hsecrets : "secrets" ∉ texts → b.secrets = s.secrets)
    (htoken : "token" ∉ members → b.token = s.github.token)
    (haction : "action_path" ∉ members → b.actionPath = s.github.actionPath)
    (henv : "env" ∉ members → b.envFile = s.github.envFile)
    (hpath : "path" ∉ members → b.pathFile = s.github.pathFile) :
    ShowSame texts members s (s.carrying b) := by
  constructor
  · intro text hgithub htext
    unfold Expression.lookUp?
    generalize hn : Expression.Name.ofText? text = found
    cases found with
    | none => rw [Option.map_none, Option.map_none]
    | some n =>
      obtain rfl := Expression.Name.text_of_ofText? hn
      have hsame : Expression.variableOf (s.carrying b) n = Expression.variableOf s n := by
        cases n with
        | github => exact absurd rfl hgithub
        | secrets => exact congrArg (Expression.Variable.value <| Json.ofTexts ·) (hsecrets htext)
        | _ => rfl
      rw [Option.map_some, Option.map_some, hsame]
  · refine ⟨_, _, s.shows_github, (s.carrying b).shows_github, fun name hname => ?_⟩
    refine Context.Github.member?_congr rfl ?_ ?_ ?_ ?_
    · rintro rfl
      exact htoken hname
    · rintro rfl
      exact haction hname
    · rintro rfl
      exact henv hname
    · rintro rfl
      exact hpath hname

end Session

end WorkflowRuns
