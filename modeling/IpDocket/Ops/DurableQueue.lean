import IpDocket.Lib.Table
import IpDocket.Lib.Text
import IpDocket.Lib.Time

/-!
# The durable job queue

The rows of `durable_jobs` and the operations of `DurableQueue` on them, as in
`app/ops/durable_queue.py`. Each definition is one transaction of the source or one
statement of it. Times are microseconds, and every call takes the clock readings it makes
as arguments. `payload_version`, `source_event_id`, `provider_request_id`,
`idempotency_scope`, `created_at` and `updated_at` are stored and never read by the queue.
-/

namespace IpDocket.Ops
open IpDocket.Lib

inductive JobStatus
  | queued | running | succeeded | failed | cancelled
  deriving DecidableEq, Repr

/-- `_ACTIVE_DEDUPE_STATUSES`, also the condition of the partial unique index. -/
def JobStatus.active : JobStatus → Bool
  | .queued | .running => true
  | _ => false

def JobStatus.terminal : JobStatus → Bool
  | .succeeded | .failed | .cancelled => true
  | _ => false

structure DurableJob where
  id : Nat
  queue : String
  task : String
  payload : String
  dedupeKey : Option String
  status : JobStatus
  attempts : Nat
  maxAttempts : Int
  runAt : Time
  lockedAt : Option Time
  lockedBy : Option String
  lastError : Option String
  lastTraceback : Option String
  finishedAt : Option Time
  deriving DecidableEq, Repr

/-- The settings of the queue that its row operations read. -/
structure QueueSettings where
  lockTtlSeconds : Int := 600
  maxBackoffSeconds : Int := 3600

structure DurableJobClaim where
  id : Nat
  queue : String
  task : String
  payload : String
  attempts : Nat
  maxAttempts : Int
  deriving DecidableEq, Repr

abbrev JobTable := Table DurableJob.id

inductive DbError
  | integrityError | staleDataError
  deriving DecidableEq, Repr

/-- `UPDATE durable_jobs SET ... WHERE ...`. -/
def updateJobs (p : DurableJob → Bool) (f : DurableJob → DurableJob) (hf : ∀ r, (f r).id = r.id)
    (jobs : JobTable) : JobTable :=
  jobs.update (onRows p f) (key_onRows hf)

/-- Rows that `ux_durable_jobs_dedupe_active` keeps apart. -/
def sameDedupe (r q : DurableJob) : Bool :=
  r.dedupeKey.isSome ∧ r.dedupeKey = q.dedupeKey ∧ r.queue = q.queue ∧ r.task = q.task ∧
    r.status.active ∧ q.status.active

def dedupeConflict (r : DurableJob) (jobs : JobTable) : Bool :=
  jobs.rows.any (fun q => q.id ≠ r.id ∧ sameDedupe r q)

/-- The `UPDATE` a flush of `new` sends, applied to the stored row. -/
def DurableJob.flush (loaded new stored : DurableJob) : DurableJob :=
  { stored with
    status := flushColumn loaded.status new.status stored.status
    attempts := flushColumn loaded.attempts new.attempts stored.attempts
    runAt := flushColumn loaded.runAt new.runAt stored.runAt
    lockedAt := flushColumn loaded.lockedAt new.lockedAt stored.lockedAt
    lockedBy := flushColumn loaded.lockedBy new.lockedBy stored.lockedBy
    lastError := flushColumn loaded.lastError new.lastError stored.lastError
    lastTraceback := flushColumn loaded.lastTraceback new.lastTraceback stored.lastTraceback
    finishedAt := flushColumn loaded.finishedAt new.finishedAt stored.finishedAt }

lemma id_flush (loaded new stored : DurableJob) : (loaded.flush new stored).id = stored.id := rfl

/-- `session.commit()` with one changed object: an `UPDATE` by primary key. -/
def commitJob (loaded new : DurableJob) (jobs : JobTable) : Except DbError JobTable :=
  match jobs.find loaded.id with
  | none => .error .staleDataError
  | some stored =>
    if dedupeConflict (loaded.flush new stored) jobs then .error .integrityError
    else .ok (updateJobs (fun q => q.id = loaded.id) (loaded.flush new)
      (id_flush loaded new) jobs)

def cleanOptional (value : Option String) : Option String :=
  let text := pyStrip (value.getD "").toList
  if text.isEmpty then none else some (String.ofList text)

def findExistingDedupedJob (queue task : String) (dedupeKey : Option String)
    (jobs : JobTable) : Option DurableJob :=
  match dedupeKey with
  | none => none
  | some key =>
    jobs.rows.find? (fun r => r.queue = queue ∧ r.task = task ∧ r.dedupeKey = some key ∧
      r.status.active)

structure EnqueueRequest where
  task : String
  payload : String := "\x7b\x7d"
  queue : String := "default"
  runAt : Option Time := none
  maxAttempts : Int := 5
  dedupeKey : Option String := none
  deriving DecidableEq, Repr

def EnqueueRequest.cleanDedupeKey (req : EnqueueRequest) : Option String :=
  cleanOptional req.dedupeKey

def EnqueueRequest.job (req : EnqueueRequest) (now : Time) (jobId : Nat) : DurableJob where
  id := jobId
  queue := req.queue
  task := req.task
  payload := req.payload
  dedupeKey := req.cleanDedupeKey
  status := .queued
  attempts := 0
  maxAttempts := req.maxAttempts
  runAt := req.runAt.getD now
  lockedAt := none
  lockedBy := none
  lastError := none
  lastTraceback := none
  finishedAt := none

lemma id_job (req : EnqueueRequest) (now : Time) (jobId : Nat) : (req.job now jobId).id = jobId :=
  rfl

def EnqueueRequest.find (req : EnqueueRequest) (jobs : JobTable) : Option DurableJob :=
  findExistingDedupedJob req.queue req.task req.cleanDedupeKey jobs

/-- The `INSERT` and its commit. The id is taken from the sequence even when the unique
index refuses the row. -/
def insertJob (req : EnqueueRequest) (now : Time) (jobs : JobTable) :
    JobTable × Except DbError DurableJob :=
  if dedupeConflict (req.job now jobs.next) jobs then (jobs.burn, .error .integrityError)
  else (jobs.insert (req.job now) (id_job req now), .ok (req.job now jobs.next))

/-- `enqueue` run without interruption: with no other session between the lookup and the
`INSERT`, the lookup after an integrity error is never reached. -/
def enqueue (req : EnqueueRequest) (now : Time) (jobs : JobTable) :
    JobTable × Except DbError DurableJob :=
  match req.find jobs with
  | some existing => (jobs, .ok existing)
  | none => insertJob req now jobs

def staleLocked (cutoff : Time) (r : DurableJob) : Bool :=
  r.status = .running ∧ r.lockedAt.any (· < cutoff)

def requeueStale (dbNow : Time) (r : DurableJob) : DurableJob :=
  { r with
    status := .queued
    lockedAt := none
    lockedBy := none
    runAt := dbNow
    lastError := some (r.lastError.getD "" ++ "\n[recovered stale lock]") }

lemma id_requeueStale (dbNow : Time) (r : DurableJob) : (requeueStale dbNow r).id = r.id := rfl

def recoverStaleLocks (settings : QueueSettings) (now dbNow : Time) (jobs : JobTable) :
    JobTable :=
  updateJobs (staleLocked (now - seconds settings.lockTtlSeconds)) (requeueStale dbNow)
    (id_requeueStale dbNow) jobs

/-- The text before the last `:`, the whole text if there is none. -/
def rsplitColon (t : Text) : Text :=
  if t.contains ':' then ((t.reverse.dropWhile (· != ':')).drop 1).reverse else t

def workerHostname (socketHostname workerId : String) : Text :=
  if workerId.toList.contains ':' then rsplitColon workerId.toList else socketHostname.toList

def startupLocked (hostname : Text) (queueNames : List String) (r : DurableJob) : Bool :=
  r.status = .running ∧ r.queue ∈ queueNames ∧
    r.lockedBy.any (fun owner => sqlLike (hostname ++ [':', '%']) owner.toList)

def requeueStartup (now : Time) (r : DurableJob) : DurableJob :=
  { r with
    status := .queued
    lockedAt := none
    lockedBy := none
    runAt := now
    lastError := some (r.lastError.getD "" ++ "\n[recovered worker startup lock]") }

lemma id_requeueStartup (now : Time) (r : DurableJob) : (requeueStartup now r).id = r.id := rfl

def recoverStartupLocksForWorker (socketHostname workerId : String) (queues : List String)
    (now : Time) (jobs : JobTable) : JobTable :=
  updateJobs
    (startupLocked (workerHostname socketHostname workerId) (queues.filter (· ≠ "")))
    (requeueStartup now) (id_requeueStartup now) jobs

def readyJob (now : Time) (queue : String) (r : DurableJob) : Bool :=
  r.status = .queued ∧ r.queue = queue ∧ r.runAt ≤ now

/-- `ORDER BY run_at ASC, id ASC`. -/
def pickedBefore (r q : DurableJob) : Bool :=
  r.runAt < q.runAt ∨ (r.runAt = q.runAt ∧ r.id < q.id)

def earlierJob (best : Option DurableJob) (r : DurableJob) : Option DurableJob :=
  match best with
  | none => some r
  | some b => if pickedBefore r b then some r else some b

def firstReady (now : Time) (jobs : JobTable) (queue : String) : Option DurableJob :=
  (jobs.rows.filter (readyJob now queue)).foldl earlierJob none

def selectJob (queues : List String) (now : Time) (jobs : JobTable) : Option DurableJob :=
  (queues.filter (· ≠ "")).findSome? (firstReady now jobs)

def lockJob (workerId : String) (now : Time) (r : DurableJob) : DurableJob :=
  { r with
    status := .running
    lockedAt := some now
    lockedBy := some workerId
    attempts := r.attempts + 1 }

lemma id_lockJob (workerId : String) (now : Time) (r : DurableJob) :
    (lockJob workerId now r).id = r.id := rfl

def snapshotClaimedJob (r : DurableJob) : DurableJobClaim :=
  ⟨r.id, r.queue, r.task, r.payload, r.attempts, r.maxAttempts⟩

/-- The claiming transaction of `claim_one`: the row is locked by `FOR UPDATE` from the
`SELECT` to the commit. -/
def claimSelect (workerId : String) (queues : List String) (now : Time) (jobs : JobTable) :
    JobTable × Option DurableJobClaim :=
  match selectJob queues now jobs with
  | none => (jobs, none)
  | some job =>
    (updateJobs (fun q => q.id = job.id) (lockJob workerId now)
      (id_lockJob workerId now) jobs,
      some (snapshotClaimedJob (lockJob workerId now job)))

/-- The row is running and locked by `workerId`: the check of `mark_succeeded` and
`mark_failed` on the row they read, and the condition of the guarded `UPDATE`s. -/
def ownsJob (workerId : String) (r : DurableJob) : Bool :=
  r.status = .running ∧ r.lockedBy = some workerId

def refreshLock (now : Time) (r : DurableJob) : DurableJob := { r with lockedAt := some now }

lemma id_refreshLock (now : Time) (r : DurableJob) : (refreshLock now r).id = r.id := rfl

def refreshJobLock (workerId : String) (jobId : Nat) (now : Time) (jobs : JobTable) :
    JobTable :=
  updateJobs (fun r => r.id = jobId ∧ ownsJob workerId r)
    (refreshLock now)
    (id_refreshLock now) jobs

structure HandlerError where
  typeName : String
  message : String

def exceptionSummary (err : HandlerError) : String :=
  let message := pyStrip err.message.toList
  if message.isEmpty then err.typeName else err.typeName ++ ": " ++ String.ofList message

def backoffSeconds (attempts : Nat) (maxBackoffSeconds : Int) : Int :=
  let backoff : Int := 2 ^ (attempts - 1) * 60
  if backoff > maxBackoffSeconds then maxBackoffSeconds else backoff

/-- The object of a job between the read that loaded it and the commit that writes it. -/
structure LoadedJob where
  loaded : DurableJob
  new : DurableJob
  deriving DecidableEq, Repr

/-- The commit of `mark_succeeded` and `mark_failed`; a refused one is rolled back. -/
def commitMark (mark : LoadedJob) (jobs : JobTable) : JobTable :=
  match commitJob mark.loaded mark.new jobs with
  | .ok jobs => jobs
  | .error _ => jobs

def readOwned (workerId : String) (jobId : Nat) (edit : DurableJob → DurableJob)
    (jobs : JobTable) : Option LoadedJob :=
  match jobs.find jobId with
  | none => none
  | some fresh => if ownsJob workerId fresh then some ⟨fresh, edit fresh⟩ else none

def succeedJob (now : Time) (fresh : DurableJob) : DurableJob :=
  { fresh with
    status := .succeeded
    finishedAt := some now
    lockedAt := none
    lockedBy := none }

def failJob (settings : QueueSettings) (err : HandlerError) (traceback : String) (now : Time)
    (fresh : DurableJob) : DurableJob :=
  let failed :=
    { fresh with
      lastError := some (exceptionSummary err)
      lastTraceback := some traceback
      lockedAt := none
      lockedBy := none }
  if (fresh.attempts : Int) < fresh.maxAttempts then
    { failed with
      status := .queued
      runAt := now + seconds (backoffSeconds fresh.attempts settings.maxBackoffSeconds) }
  else { failed with status := .failed, finishedAt := some now }

def markSucceededRead (workerId : String) (jobId : Nat) (now : Time) (jobs : JobTable) :
    Option LoadedJob :=
  readOwned workerId jobId (succeedJob now) jobs

def markFailedRead (settings : QueueSettings) (workerId : String) (jobId : Nat)
    (err : HandlerError) (traceback : String) (now : Time) (jobs : JobTable) :
    Option LoadedJob :=
  readOwned workerId jobId (failJob settings err traceback now) jobs

def forceFailJob (dbNow : Time) (r : DurableJob) : DurableJob :=
  { r with
    status := .failed
    lockedAt := none
    lockedBy := none
    finishedAt := some dbNow }

lemma id_forceFailJob (dbNow : Time) (r : DurableJob) : (forceFailJob dbNow r).id = r.id := rfl

/-- The raw `UPDATE` of `worker_loop` after two failed calls of `mark_failed`. -/
def forceFailed (workerId : String) (jobId : Nat) (dbNow : Time) (jobs : JobTable) :
    JobTable :=
  updateJobs (fun r => r.id = jobId ∧ ownsJob workerId r) (forceFailJob dbNow)
    (id_forceFailJob dbNow) jobs

def retryJob (now : Time) (job : DurableJob) : DurableJob :=
  { job with
    status := .queued
    runAt := now
    lockedAt := none
    lockedBy := none
    lastError := some (job.lastError.getD "" ++ "\\n[manual retry]") }

def cancelJob (now : Time) (job : DurableJob) : DurableJob :=
  { job with
    status := .cancelled
    finishedAt := some now
    lockedAt := none
    lockedBy := none }

/-- Load, change, commit (rolled back on an error, which the caller sees): `retry` and `cancel` differ in the change. -/
def editJob (edit : DurableJob → DurableJob) (jobId : Nat) (jobs : JobTable) :
    Except DbError (JobTable × Bool) :=
  match jobs.find jobId with
  | none => .ok (jobs, false)
  | some job =>
    match commitJob job (edit job) jobs with
    | .ok jobs => .ok (jobs, true)
    | .error e => .error e

def retry (jobId : Nat) (now : Time) : JobTable → Except DbError (JobTable × Bool) :=
  editJob (retryJob now) jobId

def cancel (jobId : Nat) (now : Time) : JobTable → Except DbError (JobTable × Bool) :=
  editJob (cancelJob now) jobId

end IpDocket.Ops
