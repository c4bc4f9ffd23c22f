import IpDocket.Ops.DurableQueueDedupe

/-!
# Sessions that enqueue

`enqueue` runs in a session of its own, or in the session of its caller, next to whatever
the caller has flushed and not committed. Each statement of a call is a step here, and any
number of sessions, of workers and of administrators run between them. A row that is
flushed and not committed is seen by its own session only, but the unique index knows it:
an `INSERT` or `UPDATE` that conflicts with it waits until that session commits or rolls
back, so that such a step is not enabled before. `retry` and `cancel` load the job in one
step and commit it in another.
-/

namespace IpDocket.Ops
open IpDocket.Lib

/-- What a session holds and has not committed: changes that its caller has flushed, each of
them a number here, the jobs that `enqueue` has inserted, and the requests that
`enqueue_after_commit` has staged in `session.info`. -/
structure Transaction where
  writes : List Nat
  jobs : List DurableJob
  staged : List EnqueueRequest
  deriving DecidableEq

def Transaction.empty : Transaction := ⟨[], [], []⟩

/-- The table as the session sees it, which is what its commit leaves. -/
def Transaction.view (t : Transaction) (jobs : JobTable) : JobTable := t.jobs.foldl Table.put jobs

/-- A call of `enqueue`. `lost`, `before` and `after` are history variables: the unique
index has refused the `INSERT`, and the transaction of the session when the call began and
when it ended. -/
structure SessionCall where
  req : EnqueueRequest
  commit : Bool
  phase : EnqueuePhase
  lost : Bool
  before : Transaction
  after : Transaction
  deriving DecidableEq

/-- `owned` is `owns_session`: the session was opened by the call and closes with it. -/
structure ProducerSession where
  owned : Bool
  transaction : Transaction
  call : Option SessionCall
  ended : List SessionCall

def SessionCall.start (req : EnqueueRequest) (commit : Bool) (t : Transaction) : SessionCall :=
  ⟨req, commit, .lookup, false, t, t⟩

/-- The session that a call without one opens. -/
def ProducerSession.opened (req : EnqueueRequest) (commit : Bool) : ProducerSession :=
  ⟨true, .empty, some (.start req commit .empty), []⟩

/-- The next statement of a call in a session with the transaction `t`; `others` are the
uncommitted jobs of the other sessions. -/
def SessionCall.advance (c : SessionCall) (t : Transaction) (others : List DurableJob)
    (now : Time) (jobs : JobTable) : Option (JobTable × Transaction × SessionCall) :=
  match c.phase with
  | .lookup =>
    match c.req.find (t.view jobs) with
    | some existing => some (jobs, t, { c with phase := .returned existing })
    | none => some (jobs, t, { c with phase := .insert })
  | .insert =>
    let job := c.req.job now jobs.next
    if others.any (sameDedupe job) then none
    else if dedupeConflict job (t.view jobs) then
      -- `sess.rollback()` ends the whole transaction of the session
      some (jobs.burn, .empty,
        { c with
          phase := if c.req.cleanDedupeKey.isNone then .raised else .lookupAgain
          lost := true })
    else
      let t' : Transaction := { t with jobs := t.jobs ++ [job] }
      if c.commit then some (t'.view jobs.burn, .empty, { c with phase := .returned job })
      else some (jobs.burn, t', { c with phase := .returned job })
  | .lookupAgain =>
    match c.req.find (t.view jobs) with
    | some existing => some (jobs, t, { c with phase := .returned existing })
    | none => some (jobs, t, { c with phase := .raised })
  | .returned _ => none
  | .raised => none

/-- The staged requests that a statement of the call hands on, as its commit does. -/
def SessionCall.drained (c c' : SessionCall) (t : Transaction) : List EnqueueRequest :=
  match c.phase, c'.phase with
  | .insert, .returned _ => if c.commit then t.staged else []
  | _, _ => []

/-- The session after a statement of its call; the `finally` of `enqueue` closes an owned
session, which rolls back what is not committed. -/
def ProducerSession.after (p : ProducerSession) (t : Transaction) (c : SessionCall) :
    ProducerSession :=
  let t' := if p.owned then .empty else t
  match c.phase with
  | .returned _ | .raised =>
    { p with transaction := t', call := none, ended := p.ended ++ [{ c with after := t' }] }
  | _ => { p with transaction := t, call := some c }

/-- A `retry` or `cancel`: the loaded object, then the outcome of its commit. -/
inductive AdminEdit
  | retryLoaded (job : LoadedJob)
  | cancelLoaded (job : LoadedJob)
  | committed
  | refused (e : DbError)
  deriving DecidableEq

def AdminEdit.loaded : AdminEdit → Option LoadedJob
  | .retryLoaded job | .cancelLoaded job => some job
  | _ => none

structure ProducerState where
  lease : LeaseState
  sessions : List ProducerSession
  edits : List AdminEdit

def ProducerState.initial : ProducerState := ⟨LeaseState.initial, [], []⟩

def ProducerState.uncommitted (s : ProducerState) : List DurableJob :=
  s.sessions.flatMap (fun p => p.transaction.jobs)

def ProducerState.others (s : ProducerState) (i : Nat) : List DurableJob :=
  (s.sessions.eraseIdx i).flatMap (fun p => p.transaction.jobs)

/-- A write that would leave `jobs` waits for a session with a conflicting row. -/
def ProducerState.waits (s : ProducerState) (jobs : JobTable) : Bool :=
  jobs.rows.any (fun r => s.uncommitted.any (sameDedupe r))

def ProducerState.set (s : ProducerState) (i : Nat) (jobs : JobTable) (p : ProducerSession) :
    ProducerState :=
  { s with lease := { s.lease with jobs := jobs }, sessions := s.sessions.set i p }

/-- After a commit each staged request is enqueued in a session of its own. -/
def ProducerState.drain (s : ProducerState) (staged : List EnqueueRequest) : ProducerState :=
  { s with sessions := s.sessions ++ staged.map (fun req => .opened req true) }

/-- The session `i` of a caller, between two calls. -/
def ProducerState.idle (s : ProducerState) (i : Nat) : Option ProducerSession :=
  (s.sessions[i]?).filter (fun p => !p.owned && p.call.isNone)

inductive ProducerAction
  | lease (a : LeaseAction)
  | openSession
  | write (i change : Nat)
  | stage (i : Nat) (req : EnqueueRequest)
  | commit (i : Nat)
  | rollback (i : Nat)
  | beginOwned (req : EnqueueRequest) (commit : Option Bool)
  | begin (i : Nat) (req : EnqueueRequest) (commit : Option Bool)
  | advance (i : Nat) (now : Time)
  | fail (i : Nat)
  | retryRead (jobId : Nat) (now : Time)
  | cancelRead (jobId : Nat) (now : Time)
  | editCommit (i : Nat)

/-- `begin` is a call with the session `i`, which commits only on request; `beginOwned` is
one without a session. `fail` is any other error of the `INSERT`. -/
def producerStep (settings : QueueSettings) (s : ProducerState) :
    ProducerAction → Option ProducerState
  | .lease a =>
    match leaseStep settings s.lease a with
    | none => none
    | some lease => if s.waits lease.jobs then none else some { s with lease := lease }
  | .openSession => some { s with sessions := s.sessions ++ [⟨false, .empty, none, []⟩] }
  | .write i change =>
    (s.idle i).map (fun p => s.set i s.lease.jobs
      { p with transaction := { p.transaction with writes := p.transaction.writes ++ [change] } })
  | .stage i req =>
    (s.idle i).map (fun p => s.set i s.lease.jobs
      { p with transaction := { p.transaction with staged := p.transaction.staged ++ [req] } })
  | .commit i =>
    (s.idle i).map (fun p => (s.set i (p.transaction.view s.lease.jobs)
      { p with transaction := .empty }).drain p.transaction.staged)
  | .rollback i =>
    (s.idle i).map (fun p => s.set i s.lease.jobs { p with transaction := .empty })
  | .beginOwned req commit =>
    some { s with sessions := s.sessions ++ [.opened req (commit.getD true)] }
  | .begin i req commit =>
    (s.idle i).map (fun p => s.set i s.lease.jobs
      { p with call := some (.start req (commit.getD false) p.transaction) })
  | .advance i now =>
    match s.sessions[i]? with
    | none => none
    | some p =>
      match p.call with
      | none => none
      | some c =>
        (c.advance p.transaction (s.others i) now s.lease.jobs).map
          (fun r => (s.set i r.1 (p.after r.2.1 r.2.2)).drain (c.drained r.2.2 p.transaction))
  | .fail i =>
    match s.sessions[i]? with
    | none => none
    | some p =>
      match p.call with
      | none => none
      | some c =>
        if c.phase = .insert then
          some (s.set i s.lease.jobs (p.after .empty { c with phase := .raised }))
        else none
  | .retryRead jobId now =>
    (s.lease.jobs.find jobId).map (fun job =>
      { s with edits := s.edits ++ [.retryLoaded ⟨job, retryJob now job⟩] })
  | .cancelRead jobId now =>
    (s.lease.jobs.find jobId).map (fun job =>
      { s with edits := s.edits ++ [.cancelLoaded ⟨job, cancelJob now job⟩] })
  | .editCommit i =>
    match (s.edits[i]?).bind AdminEdit.loaded with
    | none => none
    | some job =>
      match commitJob job.loaded job.new s.lease.jobs with
      | .error e => some { s with edits := s.edits.set i (.refused e) }
      | .ok jobs =>
        if s.waits jobs then none
        else some { s with lease := { s.lease with jobs := jobs }, edits := s.edits.set i .committed }

/-- An `INSERT` that is refused runs in a session that `enqueue` opened or that holds nothing
uncommitted and nothing staged, and a call that looks for the winner after it finds some job of its key still
active. -/
def losesNothing (s : ProducerState) : ProducerAction → Bool
  | .advance i now =>
    (s.sessions[i]?).all (fun p => p.call.all (fun c =>
      match c.phase with
      | .insert =>
        p.owned || p.transaction = .empty ||
          !dedupeConflict (c.req.job now s.lease.jobs.next) (p.transaction.view s.lease.jobs)
      | .lookupAgain => s.lease.jobs.rows.any (fun r => c.req.names r && r.status.active)
      | _ => true))
  | _ => true

/-- The call returned an active job of its key and left the transaction of the session as
it was. -/
def SessionCall.Kept (c : SessionCall) : Prop :=
  (∃ job, c.phase = .returned job ∧ job.status.active ∧ c.req.names job) ∧ c.after = c.before

/-- The job is in the table, committed or not. -/
def ProducerState.Stored (s : ProducerState) (r : DurableJob) : Prop :=
  r ∈ s.lease.jobs.rows ∨ r ∈ s.uncommitted

end IpDocket.Ops
