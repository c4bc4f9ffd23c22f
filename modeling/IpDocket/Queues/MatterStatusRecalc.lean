import IpDocket.Lib.Run
import IpDocket.Lib.Text
import IpDocket.Queues.TokenQueue

/-!
# The queue of matter status recalculations

The statements of `matter_status_recalc_queue.py`, interleaved under `READ COMMITTED`.
`enqueue_matter_status_recalc` runs in its caller's transaction: from the upsert to the
commit the row is locked, readers see the old version, and writers wait. A drain locks
rows, recalculates one matter after another, and finalizes each with a `SELECT` of the
payload and a `DELETE` or `UPDATE` of its own. All times and outcomes are arbitrary.

`clock`, `enqueued` and `recalculated` are history variables: the number of steps so far,
the commits of `enqueue`, and the committed recalculations with the step they began at. So
are the steps in the phases of a drain at which it began and selected the payload.
-/

namespace IpDocket.Queues
open IpDocket.Lib

/-- The JSON payload of a request. `enqueueId` is a UUID, a number never used before. -/
structure RecalcPayload where
  reason : Option String
  enqueueId : Nat
  enqueuedAt : Time
  deriving DecidableEq, Repr

abbrev RecalcRow := QueueRow RecalcPayload
abbrev RecalcTable := QueueTable RecalcPayload

def requestRow (mid : String) (payload : RecalcPayload) : RecalcRow where
  matterId := mid
  payload := some payload
  attempts := 0
  nextRunAt := some payload.enqueuedAt
  lockedAt := none
  lockToken := none
  lastError := none
  createdAt := payload.enqueuedAt
  updatedAt := payload.enqueuedAt

def liveLock (settings : DrainSettings) (now : Time) (r : RecalcRow) : Bool :=
  r.lockToken.isSome ∧ r.lockedAt.any (expiredBefore settings now ≤ ·)

/-- The `DO UPDATE` part: a live lock and its attempts stay. -/
def replaceRequest (settings : DrainSettings) (payload : RecalcPayload) (r : RecalcRow) :
    RecalcRow :=
  { r with
    payload := some payload
    attempts := if liveLock settings payload.enqueuedAt r then r.attempts else 0
    nextRunAt := some payload.enqueuedAt
    lockedAt := if liveLock settings payload.enqueuedAt r then r.lockedAt else none
    lockToken := if liveLock settings payload.enqueuedAt r then r.lockToken else none
    lastError := none
    updatedAt := payload.enqueuedAt }

lemma matterId_replaceRequest (settings : DrainSettings) (payload : RecalcPayload)
    (r : RecalcRow) : (replaceRequest settings payload r).matterId = r.matterId := rfl

def upsertRequest (settings : DrainSettings) (mid : String) (payload : RecalcPayload)
    (t : RecalcTable) : RecalcTable :=
  t.upsert (requestRow mid payload) (replaceRequest settings payload)
    (matterId_replaceRequest settings payload)

def cleanMatterId (matterId : Option String) : Option String :=
  let mid := pyStrip (matterId.getD "").toList
  if mid.isEmpty then none else some (String.ofList mid)

/-- An upsert whose transaction is still open. -/
structure PendingEnqueue where
  mid : String
  payload : RecalcPayload
  deriving DecidableEq, Repr

/-- `ORDER BY next_run_at ASC NULLS FIRST, updated_at ASC, matter_id ASC`. -/
def pickBefore (r q : RecalcRow) : Bool :=
  let tie : Bool := r.updatedAt < q.updatedAt ∨ (r.updatedAt = q.updatedAt ∧ r.matterId ≤ q.matterId)
  match r.nextRunAt, q.nextRunAt with
  | none, some _ => true
  | some _, none => false
  | none, none => tie
  | some a, some b => a < b ∨ (a = b ∧ tie)

/-- `FOR UPDATE SKIP LOCKED` skips the rows that an open transaction has written. -/
def selectReadyCandidateRows (settings : DrainSettings) (limit : Int) (now : Time)
    (includeExpiredLocked : Bool) (writing : List String) (t : RecalcTable) : List RecalcRow :=
  ((t.rows.filter (fun r =>
      (if includeExpiredLocked then r.lockedAt.any (· < expiredBefore settings now)
        else r.lockedAt.isNone) ∧
      r.nextRunAt.all (· ≤ now) ∧ (r.attempts : Int) < settings.maxAttempts ∧
      r.matterId ∉ writing)).insertionSort (fun r q => pickBefore r q)).take limit.toNat

def pickReadyIds (settings : DrainSettings) (limit : Int) (now : Time) (writing : List String)
    (t : RecalcTable) : List String :=
  let unlocked := selectReadyCandidateRows settings limit now false writing t
  let expired :=
    selectReadyCandidateRows settings (limit - unlocked.length) now true writing t
  (((unlocked ++ expired).insertionSort (fun r q => pickBefore r q)).take limit.toNat).map
    QueueRow.matterId

def lockSpecificIds (settings : DrainSettings) (ids : List String) (now : Time)
    (t : RecalcTable) : List String :=
  (t.rows.filter (fun r => r.matterId ∈ ids ∧ claimable settings now r)).map QueueRow.matterId

inductive RecalcPhase
  | idle
  | locking (mids : List String) (now : Time)
  | recalculating (mid : String) (start : Nat)
  | releasing (mid : String) (start : Nat)
  | deleting (mid : String) (start selected : Nat)
  | failing (mid err : String)
  | recording (mid err : String) (attempts : Nat)
  deriving DecidableEq

structure RecalcDrain where
  token : Nat
  lockedPayloads : List (String × Option RecalcPayload)
  todo : List String
  phase : RecalcPhase
  deriving DecidableEq

def RecalcDrain.lockedPayload (d : RecalcDrain) (mid : String) : Option RecalcPayload :=
  (d.lockedPayloads.find? (fun p => p.1 = mid)).bind Prod.snd

inductive RecalcDrainAction
  | pick (limit : Int) (now : Time)
  | lockSelect (ids : List String) (now : Time)
  | lockUpdate
  | begin (mid : String)
  | finalizeSelect
  | finalizeWrite (now : Time)
  | raise (err : String)
  | failureSelect
  | failureUpdate (now later : Time)
  | failureError
  | heartbeat (mid : Option String) (now : Time)

/-- The locking `UPDATE`, the `SELECT` of the payloads and the commit. -/
def RecalcDrain.lock (settings : DrainSettings) (now : Time) (mids : List String)
    (t : RecalcTable) (d : RecalcDrain) : RecalcTable × RecalcDrain :=
  let t' := lockRows settings d.token now mids t
  let locked := lockedRows d.token mids t'
  (t', { d with
    lockedPayloads := locked.map (fun r => (r.matterId, r.payload))
    todo := locked.map QueueRow.matterId
    phase := .idle })

def releaseRow (now : Time) (r : RecalcRow) : RecalcRow :=
  { r with
    attempts := 0
    nextRunAt := some now
    lockedAt := none
    lockToken := none
    lastError := none
    updatedAt := now }

lemma matterId_releaseRow (now : Time) (r : RecalcRow) :
    (releaseRow now r).matterId = r.matterId := rfl

def lockLost : String := "matter status recalc lock lost before finalize"

def failureNextRun (settings : DrainSettings) (attempts : Nat) (later : Time) : Option Time :=
  if 0 < attempts ∧ (attempts : Int) < settings.maxAttempts then
    some (later + seconds (computeBackoffSeconds attempts settings.backoffBaseSeconds
      settings.backoffMaxSeconds))
  else none

/-- The table and the drain after a step, and a recalculation that the step commits. -/
structure RecalcResult where
  queue : RecalcTable
  drain : RecalcDrain
  recalculated : Option (String × Nat) := none

/-- One statement of a drain. `writing` are the matters with an open upsert. -/
def drainStep (settings : DrainSettings) (clock : Nat) (writing : List String)
    (t : RecalcTable) (d : RecalcDrain) : RecalcDrainAction → Option RecalcResult
  | .pick limit now =>
    if d.phase = .idle ∧ d.todo = [] then
      let (t', d') := d.lock settings now (pickReadyIds settings limit now writing t) t
      some { queue := t', drain := d' }
    else none
  | .lockSelect ids now =>
    if d.phase = .idle ∧ d.todo = [] then
      some { queue := t
             drain := { d with phase := .locking (lockSpecificIds settings ids now t) now } }
    else none
  | .lockUpdate =>
    match d.phase with
    | .locking mids now =>
      if unblocked writing (fun r => r.matterId ∈ mids ∧ claimable settings now r) t then
        let (t', d') := d.lock settings now mids t
        some { queue := t', drain := d' }
      else none
    | _ => none
  | .begin mid =>
    if d.phase = .idle ∧ mid ∈ d.todo then
      some { queue := t
             drain := { d with todo := d.todo.erase mid, phase := .recalculating mid clock } }
    else none
  | .finalizeSelect =>
    match d.phase with
    | .recalculating mid start =>
      match (t.find mid).filter (fun r => r.lockToken = some d.token) with
      | none => some { queue := t, drain := { d with phase := .failing mid lockLost } }
      | some r =>
        if r.payload = d.lockedPayload mid then
          some { queue := t, drain := { d with phase := .deleting mid start clock } }
        else some { queue := t, drain := { d with phase := .releasing mid start } }
    | _ => none
  | .finalizeWrite now =>
    match d.phase with
    | .releasing mid start =>
      if unblocked writing (holdsToken d.token mid) t then
        some { queue := updateHeld d.token mid (releaseRow now) (matterId_releaseRow now) t
               drain := { d with phase := .idle }
               recalculated := some (mid, start) }
      else none
    | .deleting mid start _ =>
      if unblocked writing (holdsToken d.token mid) t then
        if isHeld d.token mid t then
          some { queue := deleteHeld d.token mid t
                 drain := { d with phase := .idle }
                 recalculated := some (mid, start) }
        else some { queue := t, drain := { d with phase := .failing mid lockLost } }
      else none
    | _ => none
  | .raise err =>
    match d.phase with
    | .recalculating mid _ | .releasing mid _ | .deleting mid _ _ =>
      some { queue := t, drain := { d with phase := .failing mid err } }
    | _ => none
  | .failureSelect =>
    match d.phase with
    | .failing mid err =>
      some { queue := t
             drain := { d with
               phase := .recording mid err (((t.find mid).map QueueRow.attempts).getD 0) } }
    | _ => none
  | .failureUpdate now later =>
    match d.phase with
    | .recording mid err attempts =>
      if unblocked writing (holdsToken d.token mid) t then
        some { queue := updateHeld d.token mid
                 (failRow (errorText err) (failureNextRun settings attempts later) now)
                 (matterId_failRow _ _ now) t
               drain := { d with phase := .idle } }
      else none
    | _ => none
  | .failureError =>
    match d.phase with
    | .failing _ _ | .recording _ _ _ => some { queue := t, drain := { d with phase := .idle } }
    | _ => none
  | .heartbeat mid now =>
    if unblocked writing (fun r => mid.all (· = r.matterId) ∧ r.lockToken = some d.token) t then
      some { queue := heartbeat d.token mid now t, drain := d }
    else none

structure RecalcState where
  queue : RecalcTable
  pending : List PendingEnqueue
  drains : List RecalcDrain
  nextUuid : Nat
  clock : Nat
  enqueued : List (String × Nat)
  recalculated : List (String × Nat)

def RecalcState.initial : RecalcState := ⟨Keyed.empty _, [], [], 0, 0, [], []⟩

inductive RecalcAction
  | enqueue (matterId : Option String) (reason : Option String) (now : Time)
  | commit (enqueueId : Nat)
  | rollback (enqueueId : Nat)
  | start
  | drain (token : Nat) (a : RecalcDrainAction)
  | crash (token : Nat)

def RecalcState.writing (s : RecalcState) : List String := s.pending.map PendingEnqueue.mid

def RecalcState.pendingOf (s : RecalcState) (enqueueId : Nat) : Option PendingEnqueue :=
  s.pending.find? (fun u => u.payload.enqueueId = enqueueId)

def RecalcState.withoutPending (s : RecalcState) (enqueueId : Nat) : List PendingEnqueue :=
  s.pending.filter (fun u => u.payload.enqueueId ≠ enqueueId)

/-- Replace the drain with the token of `d`. -/
def RecalcState.setDrain (s : RecalcState) (d : RecalcDrain) : List RecalcDrain :=
  s.drains.map (fun c => if c.token = d.token then d else c)

def recalcStep (settings : DrainSettings) (s : RecalcState) : RecalcAction → Option RecalcState
  | .enqueue matterId reason now =>
    match cleanMatterId matterId with
    | none => none
    | some mid =>
      if mid ∈ s.writing then none
      else some { s with
        pending := ⟨mid, ⟨reason, s.nextUuid, now⟩⟩ :: s.pending
        nextUuid := s.nextUuid + 1
        clock := s.clock + 1 }
  | .commit enqueueId =>
    match s.pendingOf enqueueId with
    | none => none
    | some u => some { s with
        queue := upsertRequest settings u.mid u.payload s.queue
        pending := s.withoutPending enqueueId
        enqueued := (u.mid, s.clock) :: s.enqueued
        clock := s.clock + 1 }
  | .rollback enqueueId =>
    some { s with pending := s.withoutPending enqueueId, clock := s.clock + 1 }
  | .start => some { s with
      drains := ⟨s.nextUuid, [], [], .idle⟩ :: s.drains
      nextUuid := s.nextUuid + 1
      clock := s.clock + 1 }
  | .drain token a =>
    match s.drains.find? (fun d => d.token = token) with
    | none => none
    | some d =>
      match drainStep settings s.clock s.writing s.queue d a with
      | none => none
      | some result => some { s with
          queue := result.queue
          drains := s.setDrain result.drain
          recalculated := result.recalculated.toList ++ s.recalculated
          clock := s.clock + 1 }
  | .crash token => some { s with
      drains := s.drains.filter (fun d => d.token ≠ token)
      clock := s.clock + 1 }

end IpDocket.Queues
