import Mathlib.Data.List.Forall2
import WorkflowRuns.Proofs.Executor.History
import WorkflowRuns.Proofs.Expression.Github

/-!
# Two executors side by side

Where the archive takes everything, notices do not depend on the executor that delivers them. If two
sessions differ in something that no call notices, then two executors with these sessions and the
same files go through every history alike (`Beside.history`), and what they deliver is the same
(`Beside.transcript`).
-/

namespace WorkflowRuns

/-- What becomes of a notice where the archive takes everything. -/
def Notice.granted : Notice → Delivery
  | .log event => .logged event
  | .trace m => .traced m
  | .file f => .kept f

/-- Two occurrences of one operation with related sessions and the same notices. The answers are
the same, or tell what a text stands for in either session. -/
structure Occurrence.Alike (R : Session → Session → Prop) (v v' : Occurrence) : Prop where
  operation : v'.operation = v.operation
  answer : v'.answer = v.answer ∨ ∃ text, v.operation = .lookUp text ∧
    v.answer = .variable (Expression.lookUp? v.left text) ∧
    v'.answer = .variable (Expression.lookUp? v'.left text)
  left : R v.left v'.left
  told : v'.told = v.told

/-- The answers are the same, unless they tell what one of some texts stands for in either
session. -/
def Occurrence.SameAnswer (texts : List String) (v v' : Occurrence) : Prop :=
  v'.answer = v.answer ∨ ∃ text ∈ texts, v.operation = .lookUp text ∧
    v.answer = .variable (Expression.lookUp? v.left text) ∧
    v'.answer = .variable (Expression.lookUp? v'.left text)

/-- What shows the same is answered the same. -/
theorem Occurrence.Alike.sameAnswer {R : Session → Session → Prop} {v v' : Occurrence}
    (h : v.Alike R v') {texts members : List String}
    (hshown : v.left.ShowSame texts members v'.left) : v.SameAnswer ("github" :: texts) v' := by
  rcases h.answer with hanswer | ⟨text, hoperation, hanswer, hanswer'⟩
  · exact .inl hanswer
  by_cases htext : text ∈ "github" :: texts
  · exact .inr ⟨text, htext, hoperation, hanswer, hanswer'⟩
  · obtain ⟨hgithub, htexts⟩ := not_or.1 (mt List.mem_cons.2 htext)
    rw [SameAnswer, hanswer, hanswer', hshown.others text hgithub htexts]
    exact .inl rfl

namespace Executor

variable {R : Session → Session → Prop} {e e' : Executor}

theorem deliveries_eq_granted (h : e.archive = .shelf fun _ _ => none) (ns : List Notice) :
    e.deliveries ns = ns.map Notice.granted := by
  induction ns generalizing e with
  | nil => rfl
  | cons n ns ih =>
    have hfirst : e.delivery n = n.granted := by
      cases n with
      | log event => rfl
      | trace m => rfl
      | file f => exact delivery_shelf h f
    rw [deliveries, hfirst, ih ((e.tells_deliver n).archive.trans h), List.map_cons]

theorem told_eq_granted (h : e.archive = .shelf fun _ _ => none) (op : Operation) :
    e.told op = (e.callOf? op).elim [] fun c =>
      (e.session.perform c).notices.map Notice.granted := by
  unfold told
  cases e.callOf? op with
  | none => rfl
  | some c =>
    have hperforming : { e with session := (e.session.perform c).session }.archive =
        .shelf fun _ _ => none := h
    exact deliveries_eq_granted hperforming _

theorem operate_disk_congr (h : e.archive = .shelf fun _ _ => none)
    (h' : e'.archive = .shelf fun _ _ => none) (hdisk : e'.disk = e.disk) (op : Operation) :
    (e'.operate op).2.disk = (e.operate op).2.disk := by
  cases op with
  | call c => exact (perform_disk h' c).trans (hdisk.trans (perform_disk h c).symm)
  | takeOver files =>
    have hleft := perform_disk h (.takeOver (files.read e.disk))
    have hright := perform_disk h' (.takeOver (files.read e'.disk))
    exact hright.trans (hdisk.trans hleft.symm)
  | lookUp text => exact hdisk
  | touch change => exact congrArg change hdisk

/-- Two executors whose archives take everything have related sessions and the same files. -/
structure Beside (R : Session → Session → Prop) (e e' : Executor) : Prop where
  session : R e.session e'.session
  disk : e'.disk = e.disk
  takesAll : e.archive = .shelf fun _ _ => none
  takesAll' : e'.archive = .shelf fun _ _ => none

theorem callOf?_congr (h : e'.disk = e.disk) (op : Operation) : e'.callOf? op = e.callOf? op := by
  cases op <;> simp [callOf?, h]

variable (hR : Session.Unnoticed R) (h : Beside R e e')
include hR h

theorem Beside.operate (op : Operation) : Beside R (e.operate op).2 (e'.operate op).2 := by
  constructor
  · rw [operate_session, operate_session, callOf?_congr h.disk]
    cases e.callOf? op with
    | none => exact h.session
    | some c => exact (hR _ _ h.session c).session
  · exact operate_disk_congr h.takesAll h.takesAll' h.disk op
  · exact (e.tells_operate op).archive.trans h.takesAll
  · exact (e'.tells_operate op).archive.trans h.takesAll'

theorem Beside.occurrence (op : Operation) :
    (e.occurrence op).Alike R (e'.occurrence op) where
  operation := rfl
  answer := by
    cases op with
    | call c => exact .inl (congrArg Answer.reply (hR _ _ h.session c).reply)
    | takeOver files =>
      refine .inl (congrArg Answer.reply ?_)
      show (e'.session.perform (.takeOver (files.read e'.disk))).reply = _
      rw [h.disk]
      exact (hR _ _ h.session _).reply
    | lookUp text => exact .inr ⟨text, rfl, rfl, rfl⟩
    | touch change => exact .inl rfl
  left := (h.operate hR op).session
  told := by
    show e'.told op = e.told op
    rw [told_eq_granted h.takesAll, told_eq_granted h.takesAll', callOf?_congr h.disk]
    cases e.callOf? op with
    | none => rfl
    | some c => exact congrArg (List.map Notice.granted) (hR _ _ h.session c).notices

/-- What no call notices is not noticed in any history. -/
theorem Beside.history (ops : List Operation) :
    List.Forall₂ (Occurrence.Alike R) (e.history ops) (e'.history ops) := by
  induction ops generalizing e e' with
  | nil => exact .nil
  | cons op ops ih => exact .cons (h.occurrence hR op) (ih (h.operate hR op))

theorem Beside.operateAll (ops : List Operation) :
    Beside R (e.operateAll ops) (e'.operateAll ops) := by
  induction ops generalizing e e' with
  | nil => exact h
  | cons op ops ih => exact ih (h.operate hR op)

theorem Beside.transcript (ops : List Operation) : e'.transcript ops = e.transcript ops := by
  have hhistory := h.history hR ops
  unfold Executor.transcript
  generalize e.history ops = vs, e'.history ops = vs' at hhistory ⊢
  induction hhistory with
  | nil => rfl
  | cons hv _ ih => rw [List.flatMap_cons, List.flatMap_cons, hv.told, ih]

omit h in
/-- If two executors differ in their sessions alone, then nothing else comes to differ. -/
theorem operateAll_around {s : Session} (h : Beside R e { e with session := s })
    (ops : List Operation) :
    let e' := { e with session := s }
    e'.operateAll ops = { e.operateAll ops with session := (e'.operateAll ops).session } := by
  intro e'
  have htells := e.tells_operateAll ops
  have htells' := e'.tells_operateAll ops
  rw [h.transcript hR ops] at htells'
  have hdisk := (h.operateAll hR ops).disk
  have harchive := htells'.archive.trans htells.archive.symm
  have hsubmitted := htells'.submitted.trans htells.submitted.symm
  have hshelved := (htells'.shelved _ h.takesAll').trans (htells.shelved _ h.takesAll).symm
  have htracesToLog := htells'.tracesToLog.trans htells.tracesToLog.symm
  have htrace := htells'.trace.trans htells.trace.symm
  have hlog := htells'.log.trans htells.log.symm
  generalize e.operateAll ops = f, e'.operateAll ops = f' at *
  cases f
  cases f'
  simp_all

end Executor

end WorkflowRuns
