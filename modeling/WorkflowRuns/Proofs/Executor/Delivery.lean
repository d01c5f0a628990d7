import WorkflowRuns.Executor
import WorkflowRuns.Proofs.Session.Filings

/-!
# What becomes of notices

Notices are delivered one after the other, and each has one fate (`Delivery`): it is said, or the
archive takes what is to be kept, or it refuses and a complaint is said in its place. The fates
determine what delivery adds to trace, log and archive (`tells_foldl_deliver`). The session is not
touched.
-/

namespace WorkflowRuns

/-- What became of a notice. -/
inductive Delivery where
  | logged (event : LogEvent)
  | traced (message : TraceMessage)
  | kept (filing : Filing)
  | refused (filing : Filing) (failure : Failure)

namespace Delivery

/-- What was to be kept. -/
@[simp] def filing? : Delivery → Option Filing
  | kept f | refused f _ => some f
  | logged _ | traced _ => none

/-- What was kept. -/
@[simp] def taken? : Delivery → Option Filing
  | kept f => some f
  | _ => none

def isRefused : Delivery → Bool
  | refused .. => true
  | _ => false

/-- The messages of the user's trace. -/
@[simp] def messages : Delivery → List TraceMessage
  | traced m => [m]
  | refused f failure => [f.complaint failure]
  | logged _ | kept _ => []

/-- The messages that are added to the trace. -/
@[simp] def traceOf (tracesToLog : Bool) (d : Delivery) : List TraceMessage :=
  if tracesToLog then [] else d.messages

/-- The events that are added to the log. -/
@[simp] def logOf (tracesToLog : Bool) : Delivery → List LogEvent
  | logged event => [event]
  | d => if tracesToLog then d.messages.map TraceMessage.toLogEvent else []

/-- The same where nothing is refused. -/
@[simp] def granted : Delivery → Delivery
  | refused f _ => kept f
  | d => d

theorem filing?_granted (d : Delivery) : d.granted.filing? = d.filing? := by
  cases d <;> rfl

theorem filterMap_filing?_granted (told : List Delivery) :
    (told.map granted).filterMap filing? = told.filterMap filing? := by
  rw [List.filterMap_map]
  exact congrArg (told.filterMap ·) (funext filing?_granted)

end Delivery

namespace Executor

/-- One executor comes from another one by deliveries that ended so. -/
structure Tells (e : Executor) (told : List Delivery) (e' : Executor) : Prop where
  archive : e'.archive = e.archive
  tracesToLog : e'.tracesToLog = e.tracesToLog
  submitted : e'.submitted = e.submitted ++ (told.filterMap Delivery.filing?).map Filing.artifact
  trace : e'.trace = e.trace ++ told.flatMap (Delivery.traceOf e.tracesToLog)
  log : e'.log = e.log ++ told.flatMap (Delivery.logOf e.tracesToLog)
  shelved : ∀ refuses, e.archive = .shelf refuses →
    e'.shelved = e.shelved ++ (told.filterMap Delivery.taken?).map Filing.artifact

theorem Tells.nil {e e' : Executor} (h : e' = { e with session := e'.session, disk := e'.disk }) :
    e.Tells [] e' := by
  rw [h]
  constructor <;> simp

theorem Tells.append {e e' e'' : Executor} {told told' : List Delivery} (h : e.Tells told e')
    (h' : e'.Tells told' e'') : e.Tells (told ++ told') e'' := by
  constructor
  · exact h'.archive.trans h.archive
  · exact h'.tracesToLog.trans h.tracesToLog
  · rw [h'.submitted, h.submitted]
    simp
  · rw [h'.trace, h.trace, h.tracesToLog]
    simp
  · rw [h'.log, h.log, h.tracesToLog]
    simp
  · intro refuses hshelf
    rw [h'.shelved refuses (h.archive.trans hshelf), h.shelved refuses hshelf]
    simp

/-! ## One notice -/

/-- What becomes of a notice. -/
def delivery (e : Executor) : Notice → Delivery
  | .log event => .logged event
  | .trace m => .traced m
  | .file f =>
    match (e.submit f.artifact).1 with
    | .ok () => .kept f
    | .error failure => .refused f failure

theorem filing?_delivery (e : Executor) (n : Notice) : (e.delivery n).filing? = n.filing? := by
  cases n with
  | log event => rfl
  | trace m => rfl
  | file f =>
    unfold delivery
    dsimp only
    split <;> rfl

theorem delivery_shelf {e : Executor} {refuses : Nat → Artifact → Option Failure}
    (h : e.archive = .shelf refuses) (f : Filing) :
    e.delivery (.file f) = (refuses e.submitted.length f.artifact).elim (.kept f) (.refused f) := by
  unfold delivery submit
  simp only [h]
  cases refuses e.submitted.length f.artifact <;> rfl

/-- What is taken may change files, or else lies on the shelf. -/
theorem submit_ok {e e' : Executor} {a : Artifact} (h : e.submit a = (.ok (), e')) :
    e' = { e with
      disk := e'.disk
      submitted := e.submitted ++ [a]
      shelved := e'.shelved } ∧
      ∀ refuses, e.archive = .shelf refuses →
        e'.disk = e.disk ∧ e'.shelved = e.shelved ++ [a] := by
  unfold submit at h
  cases harchive : e.archive with
  | files =>
    simp only [harchive, Prod.mk.injEq] at h
    obtain ⟨-, rfl⟩ := h
    exact ⟨rfl, by simp⟩
  | shelf refuses =>
    cases hr : refuses e.submitted.length a with
    | some failure => simp [harchive, hr] at h
    | none =>
      simp only [harchive, hr, Prod.mk.injEq, true_and] at h
      subst h
      exact ⟨rfl, fun _ _ => ⟨rfl, rfl⟩⟩

/-- What is refused may have changed files, and it was submitted. -/
theorem submit_error {e e' : Executor} {a : Artifact} {failure : Failure}
    (h : e.submit a = (.error failure, e')) :
    e' = { e with disk := e'.disk, submitted := e.submitted ++ [a] } ∧
      ∀ refuses, e.archive = .shelf refuses → e'.disk = e.disk := by
  unfold submit at h
  cases harchive : e.archive with
  | files =>
    simp only [harchive, Prod.mk.injEq] at h
    obtain ⟨-, rfl⟩ := h
    exact ⟨rfl, by simp⟩
  | shelf refuses =>
    cases hr : refuses e.submitted.length a with
    | none => simp [harchive, hr] at h
    | some failure' =>
      simp only [harchive, hr, Prod.mk.injEq] at h
      obtain ⟨-, rfl⟩ := h
      exact ⟨rfl, fun _ _ => rfl⟩

theorem tells_say (e : Executor) (m : TraceMessage) : e.Tells [.traced m] (e.say m) := by
  unfold say
  cases h : e.tracesToLog <;> constructor <;> simp [h]

theorem tells_kept {e e' : Executor} {f : Filing} (h : e.submit f.artifact = (.ok (), e')) :
    e.Tells [.kept f] e' := by
  obtain ⟨heq, hshelved⟩ := submit_ok h
  constructor
  · rw [heq]
  · rw [heq]
  · rw [heq]
    rfl
  · rw [heq]
    simp
  · rw [heq]
    simp
  · intro refuses harchive
    simpa using (hshelved refuses harchive).2

/-- Something refused was submitted, and a complaint is said of it. -/
theorem tells_refused {e e' : Executor} {f : Filing} {failure : Failure}
    (h : e.submit f.artifact = (.error failure, e')) :
    e.Tells [.refused f failure] (e'.say (f.complaint failure)) := by
  rw [(submit_error h).1]
  unfold say
  cases htraces : e.tracesToLog <;> constructor <;> simp [htraces]

/-- Something to keep is either taken, or refused with a complaint. -/
theorem deliver_file (e : Executor) (f : Filing) :
    (∃ e', e.submit f.artifact = (.ok (), e') ∧ e.delivery (.file f) = .kept f ∧
        e.deliver (.file f) = e') ∨
      ∃ failure e', e.submit f.artifact = (.error failure, e') ∧
        e.delivery (.file f) = .refused f failure ∧
        e.deliver (.file f) = e'.say (f.complaint failure) := by
  cases h : e.submit f.artifact with
  | mk result e' =>
    cases result with
    | ok => exact .inl ⟨e', rfl, by simp [delivery, h], by simp [deliver, h]⟩
    | error failure => exact .inr ⟨failure, e', rfl, by simp [delivery, h], by simp [deliver, h]⟩

/-- The fate of a notice says what its delivery adds. -/
theorem tells_deliver (e : Executor) (n : Notice) : e.Tells [e.delivery n] (e.deliver n) := by
  cases n with
  | log event => constructor <;> simp [deliver, delivery]
  | trace m => exact e.tells_say m
  | file f =>
    rcases e.deliver_file f with
      ⟨e', hsubmit, hdelivery, hdeliver⟩ | ⟨failure, e', hsubmit, hdelivery, hdeliver⟩
    · rw [hdelivery, hdeliver]
      exact tells_kept hsubmit
    · rw [hdelivery, hdeliver]
      exact tells_refused hsubmit

theorem say_frame (e : Executor) (m : TraceMessage) :
    (e.say m).session = e.session ∧ (e.say m).disk = e.disk := by
  unfold say
  split <;> exact ⟨rfl, rfl⟩

/-- Delivery leaves the session alone, and a shelf leaves the files alone. -/
theorem deliver_frame (e : Executor) (n : Notice) : (e.deliver n).session = e.session ∧
    ∀ refuses, e.archive = .shelf refuses → (e.deliver n).disk = e.disk := by
  cases n with
  | log event => exact ⟨rfl, fun _ _ => rfl⟩
  | trace m =>
    obtain ⟨hsession, hdisk⟩ := e.say_frame m
    exact ⟨hsession, fun _ _ => hdisk⟩
  | file f =>
    rcases e.deliver_file f with ⟨e', hsubmit, -, hdeliver⟩ | ⟨failure, e', hsubmit, -, hdeliver⟩
    · obtain ⟨heq, hshelf⟩ := submit_ok hsubmit
      have hsession : e'.session = e.session := by rw [heq]
      rw [hdeliver]
      exact ⟨hsession, fun refuses harchive => (hshelf refuses harchive).1⟩
    · obtain ⟨heq, hshelf⟩ := submit_error hsubmit
      obtain ⟨hsession', hdisk'⟩ := e'.say_frame (f.complaint failure)
      have hsession : e'.session = e.session := by rw [heq]
      rw [hdeliver, hsession', hdisk']
      exact ⟨hsession, hshelf⟩

/-! ## Several notices -/

/-- What becomes of notices that are delivered one after the other. -/
def deliveries (e : Executor) : List Notice → List Delivery
  | [] => []
  | n :: ns => e.delivery n :: (e.deliver n).deliveries ns

theorem tells_foldl_deliver (e : Executor) (ns : List Notice) :
    e.Tells (e.deliveries ns) (ns.foldl deliver e) := by
  induction ns generalizing e with
  | nil => exact .nil rfl
  | cons n ns ih => exact (e.tells_deliver n).append (ih (e.deliver n))

theorem filing?_deliveries (e : Executor) (ns : List Notice) :
    (e.deliveries ns).filterMap Delivery.filing? = ns.filterMap Notice.filing? := by
  induction ns generalizing e with
  | nil => rfl
  | cons n ns ih => simp only [deliveries, List.filterMap_cons, filing?_delivery, ih]

theorem foldl_deliver_frame (e : Executor) (ns : List Notice) :
    (ns.foldl deliver e).session = e.session ∧
      ∀ refuses, e.archive = .shelf refuses → (ns.foldl deliver e).disk = e.disk := by
  induction ns generalizing e with
  | nil => exact ⟨rfl, fun _ _ => rfl⟩
  | cons n ns ih =>
    obtain ⟨hsession, hdisk⟩ := ih (e.deliver n)
    obtain ⟨hsession', hdisk'⟩ := e.deliver_frame n
    refine ⟨hsession.trans hsession', fun refuses harchive => ?_⟩
    have harchive' := (e.tells_deliver n).archive.trans harchive
    exact (hdisk refuses harchive').trans (hdisk' refuses harchive)

/-- What is only logged leaves everything but the log as it was. -/
theorem foldl_deliver_log (e : Executor) (events : List LogEvent) :
    (events.map Notice.log).foldl deliver e = { e with log := e.log ++ events } := by
  induction events generalizing e with
  | nil => simp
  | cons event events ih =>
    rw [List.map_cons, List.foldl_cons, ih]
    simp [deliver]

end Executor

end WorkflowRuns
