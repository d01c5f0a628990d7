import WorkflowRuns.Expression.Variable
import WorkflowRuns.Proofs.Executor.Delivery

/-!
# Histories of an executor

An `Operation` is what can be done with an executor from outside: a call on its session, taking over
what a step wrote, asking what a text stands for, and changing files behind its back. A history
lists what each operation found, answered and left, and what became of its notices.
-/

namespace WorkflowRuns

/-- Something that is done with an executor. The last one stands for what the processes of a step do
to files. -/
inductive Operation where
  | call (c : Call)
  | takeOver (files : EnvironmentFiles)
  | lookUp (text : String)
  | touch (change : Disk → Disk)

/-- What an operation gives back. -/
inductive Answer where
  | reply (r : Reply)
  | variable (v : Option Expression.Variable)
  | nothing

/-- An operation within a history: the session that it found, what it gave back, the session that it
left, and what became of its notices. -/
structure Occurrence where
  found : Session
  operation : Operation
  answer : Answer
  left : Session
  told : List Delivery

/-- What an operation on a session wants kept. -/
def Operation.filings (s : Session) : Operation → List Filing
  | .call c => s.filings c
  | .takeOver _ | .lookUp _ | .touch _ => []

/-- The same where nothing is refused. -/
def Occurrence.granted (v : Occurrence) : Occurrence :=
  { v with told := v.told.map Delivery.granted }

namespace Executor

def operate (e : Executor) : Operation → Answer × Executor
  | .call c => (.reply (e.perform c).1, (e.perform c).2)
  | .takeOver files => (.reply (e.takeOver files).1, (e.takeOver files).2)
  | .lookUp text => (.variable (Expression.lookUp? e.session text), e)
  | .touch change => (.nothing, { e with disk := change e.disk })

/-- The call that an operation performs on the session, if any. -/
def callOf? (e : Executor) : Operation → Option Call
  | .call c => some c
  | .takeOver files => some (.takeOver (files.read e.disk))
  | .lookUp _ | .touch _ => none

/-- What becomes of the notices of an operation. -/
def told (e : Executor) (op : Operation) : List Delivery :=
  match e.callOf? op with
  | none => []
  | some c =>
    { e with session := (e.session.perform c).session }.deliveries (e.session.perform c).notices

def operateAll (e : Executor) (ops : List Operation) : Executor :=
  ops.foldl (fun e op => (e.operate op).2) e

def occurrence (e : Executor) (op : Operation) : Occurrence where
  found := e.session
  operation := op
  answer := (e.operate op).1
  left := (e.operate op).2.session
  told := e.told op

/-- The calls that operations perform on the session. -/
def calls (e : Executor) : List Operation → List Call
  | [] => []
  | op :: ops => (e.callOf? op).toList ++ (e.operate op).2.calls ops

/-- What happens when operations are performed one after the other. -/
def history (e : Executor) : List Operation → List Occurrence
  | [] => []
  | op :: ops => e.occurrence op :: (e.operate op).2.history ops

/-- What became of the notices of all operations. -/
def transcript (e : Executor) (ops : List Operation) : List Delivery :=
  (e.history ops).flatMap (·.told)

variable {e : Executor}

/-! ## One operation -/

theorem tells_perform (e : Executor) (c : Call) : e.Tells
    ({ e with session := (e.session.perform c).session }.deliveries (e.session.perform c).notices)
    (e.perform c).2 := by
  have hsession : e.Tells [] { e with session := (e.session.perform c).session } := .nil rfl
  have hnotices := hsession.append (tells_foldl_deliver _ (e.session.perform c).notices)
  rwa [List.nil_append] at hnotices

theorem tells_operate (e : Executor) (op : Operation) :
    e.Tells (e.told op) (e.operate op).2 := by
  cases op with
  | call c => exact e.tells_perform c
  | takeOver files => exact e.tells_perform (.takeOver (files.read e.disk))
  | lookUp text => exact .nil rfl
  | touch change => exact .nil rfl

theorem perform_session (e : Executor) (c : Call) :
    (e.perform c).2.session = (e.session.perform c).session :=
  (foldl_deliver_frame _ _).1

theorem perform_disk {refuses : Nat → Artifact → Option Failure}
    (h : e.archive = .shelf refuses) (c : Call) : (e.perform c).2.disk = e.disk :=
  (foldl_deliver_frame _ _).2 refuses h

/-- The session after an operation depends on the session before it and on the call alone. -/
theorem operate_session (e : Executor) (op : Operation) : (e.operate op).2.session =
    (e.callOf? op).elim e.session fun c => (e.session.perform c).session := by
  cases op with
  | call c => exact e.perform_session c
  | takeOver files => exact e.perform_session (.takeOver (files.read e.disk))
  | lookUp text => rfl
  | touch change => rfl

/-- What an operation wants kept follows from the operation and the session that it finds. -/
theorem filings_told (e : Executor) (op : Operation) :
    (e.told op).filterMap Delivery.filing? = op.filings e.session := by
  cases op with
  | call c =>
    have hfilings := e.session.filings_perform c
    exact (filing?_deliveries _ _).trans hfilings
  | takeOver files =>
    have hfilings := e.session.filings_perform (.takeOver (files.read e.disk))
    exact (filing?_deliveries _ _).trans hfilings
  | lookUp text => rfl
  | touch change => rfl

/-! ## Whole histories -/

theorem transcript_cons (e : Executor) (op : Operation) (ops : List Operation) :
    e.transcript (op :: ops) = e.told op ++ (e.operate op).2.transcript ops := rfl

/-- The session after operations is the one after the calls that they perform. -/
theorem operateAll_session (e : Executor) (ops : List Operation) :
    (e.operateAll ops).session = e.session.performAll (e.calls ops) := by
  induction ops generalizing e with
  | nil => rfl
  | cons op ops ih =>
    show ((e.operate op).2.operateAll ops).session =
      e.session.performAll ((e.callOf? op).toList ++ (e.operate op).2.calls ops)
    rw [ih, operate_session, Session.performAll_append]
    cases e.callOf? op <;> rfl

/-- What is so at every operation, given what every operation keeps, is so throughout a history. -/
theorem forall_history {I : Executor → Prop} {p : Occurrence → Prop}
    (step : ∀ e op, I e → I (e.operate op).2 ∧ p (e.occurrence op)) (h : I e)
    (ops : List Operation) : ∀ v ∈ e.history ops, p v := by
  induction ops generalizing e with
  | nil => simp [history]
  | cons op ops ih =>
    obtain ⟨hnext, hoccurrence⟩ := step e op h
    intro v hv
    rcases List.mem_cons.1 hv with rfl | hv
    · exact hoccurrence
    · exact ih hnext v hv

/-- The transcript says what a history adds to trace, log and archive. -/
theorem tells_operateAll (e : Executor) (ops : List Operation) :
    e.Tells (e.transcript ops) (e.operateAll ops) := by
  induction ops generalizing e with
  | nil => exact .nil rfl
  | cons op ops ih => exact (e.tells_operate op).append (ih (e.operate op).2)

end Executor

end WorkflowRuns
