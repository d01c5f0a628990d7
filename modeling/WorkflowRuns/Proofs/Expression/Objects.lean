import WorkflowRuns.Dict.Lemmas
import WorkflowRuns.Expression.Variable

/-!
# Maps as an expression sees them

The `steps` and `needs` contexts stand for JSON objects. Each has one member for each entry of the
map and no other (`shows_steps`, `shows_needs`), so what an expression finds under an identifier is
what the map has there.
-/

namespace WorkflowRuns

namespace Json

/-- A map that is listed as an object has each of its keys as a name once. -/
theorem lookUp?_entries (d : Dict String Json) (name : String) :
    lookUp? name d.entries = some (d.get? name) := by
  obtain ⟨entries, sorted⟩ := d
  show _ = some (Dict.find? name entries)
  induction entries with
  | nil => rfl
  | cons e entries ih =>
    obtain ⟨n, j⟩ := e
    obtain ⟨hhead, htail⟩ := List.pairwise_cons.1 sorted
    by_cases h : n = name
    · have hnone : Dict.find? name entries = none := by
        refine Dict.find?_of_forall_ne fun e he heq => ?_
        exact KeyOrder.irrefl _ (h.trans heq ▸ hhead e he)
      simp [lookUp?, Dict.find?, ih htail, hnone, h]
    · simp only [lookUp?, Dict.find?, ih htail, h, Ne.symm h, if_false]
      cases Dict.find? name entries <;> rfl

/-- Texts under names, as an object with a string under each name. -/
def ofEntries (entries : List (String × String)) : Json :=
  .object (entries.map fun (name, text) => (name, .string text))

theorem ofTexts_eq (d : Dict String String) : ofTexts d = ofEntries d.entries := rfl

end Json

open Json

/-- What is told of a step, member by member. -/
theorem Context.Step.toJson_eq (s : Context.Step) : s.toJson = .object [
    ("conclusion", .string s.conclusion.name),
    ("outcome", .string s.outcome.name),
    ("outputs", ofEntries s.outputs.entries),
    ("state", ofEntries s.state.entries),
    ("summary", .string s.summary)] := by
  rw [← ofTexts_eq, ← ofTexts_eq]
  rfl

/-- What is told of a job, member by member. -/
theorem Context.Need.toJson_eq (n : Context.Need) : n.toJson = .object [
    ("outputs", ofEntries n.outputs.entries),
    ("result", .string n.result.name)] := by
  rw [← ofTexts_eq]
  rfl

namespace Session

/-- In a session a text stands for an object, which has under each name the member `f` tells, if
any, and has it once. -/
def Shows (s : Session) (text : String) (f : String → Option Json) : Prop :=
  ∃ members, Expression.lookUp? s text = some (.value (.object members)) ∧
    ∀ name, Json.lookUp? name members = some (f name)

theorem Shows.congr {s : Session} {text : String} {f g : String → Option Json}
    (h : s.Shows text f) (hfg : ∀ name, f name = g name) : s.Shows text g :=
  funext hfg ▸ h

theorem shows_steps (s : Session) :
    s.Shows "steps" fun id => (s.steps.get? id).map Context.Step.toJson := by
  refine ⟨(s.steps.map Context.Step.toJson).entries, rfl, fun id => ?_⟩
  rw [lookUp?_entries, Dict.get?_map]

theorem shows_needs (s : Session) :
    s.Shows "needs" fun id => (s.needs.get? id).map Context.Need.toJson := by
  refine ⟨(s.needs.map Context.Need.toJson).entries, rfl, fun id => ?_⟩
  rw [lookUp?_entries, Dict.get?_map]

end Session

end WorkflowRuns
