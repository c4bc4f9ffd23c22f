import IpDocket.Lib.Run
import IpDocket.Lib.Text
import IpDocket.Queues.TokenQueue

/-!
# The queue of annuity synchronisations

The statements of `annuity_sync_queue.py`, interleaved as in the queue of status
recalculations. The upsert of `enqueue_annuity_matter_rebuild` leaves the lock of the row
alone. A drain locks one matter, synchronises it, and deletes the row by its token; after
a failure it hands the row back, or moves it to the dead letters once the attempts are
used up.

`clock`, `enqueued` and `synced` are history variables: the number of steps so far, the
commits of `enqueue`, and the synchronisations that were over when their drain deleted the
row, with the step they started at.
-/

namespace IpDocket.Queues
open IpDocket.Lib

/-- The payload is the JSON document of a reason, given here by the reason. -/
abbrev AnnuityRow := QueueRow String
abbrev AnnuityTable := QueueTable String

/-- An upsert whose transaction is still open. -/
structure PendingRebuild where
  call : Nat
  mid : String
  payload : Option String
  now : Time
  deriving DecidableEq, Repr

def reasonPayload (reason : Option String) : Option String :=
  reason.filter (fun text => text ≠ "")

def rebuildRow (u : PendingRebuild) : AnnuityRow where
  matterId := u.mid
  payload := u.payload
  attempts := 0
  nextRunAt := some u.now
  lockedAt := none
  lockToken := none
  lastError := none
  createdAt := u.now
  updatedAt := u.now

/-- The `DO UPDATE` part: a later `next_run_at`, the lock and the attempts stay. -/
def renewRebuild (u : PendingRebuild) (r : AnnuityRow) : AnnuityRow :=
  { r with
    payload := u.payload.or r.payload
    updatedAt := u.now
    nextRunAt :=
      match r.nextRunAt with
      | none => some u.now
      | some t => if t ≤ u.now then some u.now else some t }

lemma matterId_renewRebuild (u : PendingRebuild) (r : AnnuityRow) :
    (renewRebuild u r).matterId = r.matterId := rfl

def upsertRebuild (u : PendingRebuild) (t : AnnuityTable) : AnnuityTable :=
  t.upsert (rebuildRow u) (renewRebuild u) (matterId_renewRebuild u)

/-- `ORDER BY COALESCE(next_run_at, created_at) ASC, updated_at ASC`. -/
def rebuildBefore (r q : AnnuityRow) : Bool :=
  let a := r.nextRunAt.getD r.createdAt
  let b := q.nextRunAt.getD q.createdAt
  a < b ∨ (a = b ∧ r.updatedAt ≤ q.updatedAt)

/-- `LIMIT 1 FOR UPDATE SKIP LOCKED`. -/
def pickRebuild (settings : DrainSettings) (now : Time) (writing : List String)
    (t : AnnuityTable) : List String :=
  (((t.rows.filter (fun r => claimable settings now r ∧ r.matterId ∉ writing)).insertionSort
    (fun r q => rebuildBefore r q)).take 1).map QueueRow.matterId

inductive AnnuityPhase
  | idle
  | locking (mids : List String) (now : Time)
  | locked (mid : String)
  | syncing (mid : String) (start : Nat)
  | failing (mid err : String) (start : Nat)
  | recording (mid err : String) (start : Nat) (attempts : Nat) (payload : Option String)
  deriving DecidableEq

structure AnnuityDrain where
  token : Nat
  phase : AnnuityPhase
  deriving DecidableEq

structure DeadLetter where
  matterId : String
  payload : Option String
  attempts : Nat
  lastError : String
  deriving DecidableEq, Repr

inductive AnnuityDrainAction
  | pick (now : Time)
  | lockSelect (ids : List String) (now : Time)
  | lockUpdate
  | begin
  | finish
  | raise (err : String)
  | failureSelect
  | failureWrite (now later : Time)
  | failureError
  | heartbeat (mid : String) (now : Time)

/-- The locking `UPDATE`, the `SELECT` of the locked ids and the commit. -/
def AnnuityDrain.lock (settings : DrainSettings) (now : Time) (mids : List String)
    (t : AnnuityTable) (d : AnnuityDrain) : AnnuityTable × AnnuityDrain :=
  let t' := lockRows settings d.token now mids t
  (t', { d with
    phase :=
      match lockedRows d.token mids t' with
      | [] => .idle
      | r :: _ => .locked r.matterId })

def syncLockLost : String := "annuity sync lock lost before finalize"

/-- The failed drain has used up the attempts. -/
def exhausted (settings : DrainSettings) (attempts : Nat) : Bool :=
  settings.maxAttempts ≤ (attempts : Int) ∧ 0 < attempts

def rebuildNextRun (settings : DrainSettings) (attempts : Nat) (later : Time) : Time :=
  later + seconds (computeBackoffSeconds (max 1 attempts) settings.backoffBaseSeconds
    settings.backoffMaxSeconds)

structure AnnuityResult where
  queue : AnnuityTable
  drain : AnnuityDrain
  deadLetter : Option DeadLetter := none
  synced : Option (String × Nat) := none

/-- One statement of a drain. `writing` are the matters with an open upsert. -/
def annuityDrainStep (settings : DrainSettings) (clock : Nat) (writing : List String)
    (t : AnnuityTable) (d : AnnuityDrain) : AnnuityDrainAction → Option AnnuityResult
  | .pick now =>
    if d.phase = .idle then
      let (t', d') := d.lock settings now (pickRebuild settings now writing t) t
      some { queue := t', drain := d' }
    else none
  | .lockSelect ids now =>
    if d.phase = .idle then
      some { queue := t
             drain := { d with
               phase := .locking ((t.rows.filter (fun r =>
                 r.matterId ∈ ids ∧ claimable settings now r)).map QueueRow.matterId) now } }
    else none
  | .lockUpdate =>
    match d.phase with
    | .locking mids now =>
      if unblocked writing (fun r => r.matterId ∈ mids ∧ claimable settings now r) t then
        let (t', d') := d.lock settings now mids t
        some { queue := t', drain := d' }
      else none
    | _ => none
  | .begin =>
    match d.phase with
    | .locked mid => some { queue := t, drain := { d with phase := .syncing mid clock } }
    | _ => none
  | .finish =>
    match d.phase with
    | .syncing mid start =>
      if unblocked writing (holdsToken d.token mid) t then
        if isHeld d.token mid t then
          some { queue := deleteHeld d.token mid t
                 drain := { d with phase := .idle }
                 synced := some (mid, start) }
        else some { queue := t, drain := { d with phase := .failing mid syncLockLost start } }
      else none
    | _ => none
  | .raise err =>
    match d.phase with
    | .syncing mid start =>
      some { queue := t, drain := { d with phase := .failing mid err start } }
    | _ => none
  | .failureSelect =>
    match d.phase with
    | .failing mid err start =>
      some { queue := t
             drain := { d with
               phase := .recording mid err start (((t.find mid).map QueueRow.attempts).getD 0)
                 ((t.find mid).bind QueueRow.payload) } }
    | _ => none
  | .failureWrite now later =>
    match d.phase with
    | .recording mid err start attempts payload =>
      if unblocked writing (holdsToken d.token mid) t then
        if exhausted settings attempts then
          some { queue := deleteHeld d.token mid t
                 drain := { d with phase := .idle }
                 deadLetter := some ⟨mid, payload, attempts, errorText err⟩
                 synced := some (mid, start) }
        else
          some { queue := updateHeld d.token mid
                   (failRow (errorText err) (some (rebuildNextRun settings attempts later))
                     now) (matterId_failRow _ _ now) t
                 drain := { d with phase := .idle } }
      else none
    | _ => none
  | .failureError =>
    match d.phase with
    | .failing _ _ _ | .recording _ _ _ _ _ =>
      some { queue := t, drain := { d with phase := .idle } }
    | _ => none
  | .heartbeat mid now =>
    if unblocked writing (holdsToken d.token mid) t then
      some { queue := heartbeat d.token (some mid) now t, drain := d }
    else none

structure AnnuityState where
  queue : AnnuityTable
  pending : List PendingRebuild
  drains : List AnnuityDrain
  deadLetters : List DeadLetter
  nextUuid : Nat
  clock : Nat
  enqueued : List (String × Nat)
  synced : List (String × Nat)

def AnnuityState.initial : AnnuityState := ⟨Keyed.empty _, [], [], [], 0, 0, [], []⟩

inductive AnnuityAction
  | enqueue (matterId : String) (reason : Option String) (now : Time)
  | commit (call : Nat)
  | rollback (call : Nat)
  | start
  | drain (token : Nat) (a : AnnuityDrainAction)
  | crash (token : Nat)

def AnnuityState.writing (s : AnnuityState) : List String := s.pending.map PendingRebuild.mid

def AnnuityState.withoutPending (s : AnnuityState) (call : Nat) : List PendingRebuild :=
  s.pending.filter (fun u => u.call ≠ call)

/-- Replace the drain with the token of `d`. -/
def AnnuityState.setDrain (s : AnnuityState) (d : AnnuityDrain) : List AnnuityDrain :=
  s.drains.map (fun c => if c.token = d.token then d else c)

def annuityStep (settings : DrainSettings) (s : AnnuityState) : AnnuityAction → Option AnnuityState
  | .enqueue matterId reason now =>
    let mid := pyStrip matterId.toList
    if mid.isEmpty ∨ String.ofList mid ∈ s.writing then none
    else some { s with
      pending := ⟨s.nextUuid, String.ofList mid, reasonPayload reason, now⟩ :: s.pending
      nextUuid := s.nextUuid + 1
      clock := s.clock + 1 }
  | .commit call =>
    match s.pending.find? (fun u => u.call = call) with
    | none => none
    | some u => some { s with
        queue := upsertRebuild u s.queue
        pending := s.withoutPending call
        enqueued := (u.mid, s.clock) :: s.enqueued
        clock := s.clock + 1 }
  | .rollback call =>
    some { s with pending := s.withoutPending call, clock := s.clock + 1 }
  | .start => some { s with
      drains := ⟨s.nextUuid, .idle⟩ :: s.drains
      nextUuid := s.nextUuid + 1
      clock := s.clock + 1 }
  | .drain token a =>
    match s.drains.find? (fun d => d.token = token) with
    | none => none
    | some d =>
      match annuityDrainStep settings s.clock s.writing s.queue d a with
      | none => none
      | some result => some { s with
          queue := result.queue
          drains := s.setDrain result.drain
          deadLetters := result.deadLetter.toList ++ s.deadLetters
          synced := result.synced.toList ++ s.synced
          clock := s.clock + 1 }
  | .crash token => some { s with
      drains := s.drains.filter (fun d => d.token ≠ token)
      clock := s.clock + 1 }

end IpDocket.Queues
