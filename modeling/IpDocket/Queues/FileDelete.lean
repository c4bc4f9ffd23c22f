import IpDocket.Lib.Run
import IpDocket.Lib.Text
import IpDocket.Queues.TokenQueue

/-!
# The queue of failed file deletes

`enqueue_file_delete_retry` inserts a row for the path and, when the `INSERT` fails for whatever
reason, updates the row of the path. With a session of its own each statement is committed; in the
session of its caller the writes stay open, and nobody else writes these rows, until that session
ends. The drain locks rows that are due, and then works them off one after another.

The answer `True` after the `UPDATE` does not depend on whether there was a row, nor on its attempts.
-/

namespace IpDocket.Queues
open IpDocket.Lib

structure FileDeleteRow where
  deleteId : Nat
  filePath : Text
  fileAssetId : Option Text
  attempts : Int
  nextRunAt : Option Time
  lockedAt : Option Time
  lockToken : Option Nat
  lastError : Option Text
  createdAt : Time
  updatedAt : Time
  deriving DecidableEq

abbrev FileDeleteTable := Keyed FileDeleteRow.filePath

/-- The defaults of `drain_file_delete_queue`. -/
def fileDeleteSettings : DrainSettings where
  maxAttempts := 10
  backoffBaseSeconds := 60
  backoffMaxSeconds := 3600
  lockTimeoutSeconds := 600

/-- The argument `error`. -/
inductive DeleteError where
  | none
  | text (t : Text)
  | raised (typeName message : Text)

def DeleteError.errText (e : DeleteError) : Option Text :=
  let text := match e with
    | .none => []
    | .text t => t
    | .raised typeName message => typeName ++ ": ".toList ++ message
  if text.take 4000 = [] then Option.none else some (text.take 4000)

/-- How far a call is: before its `INSERT`, before its `UPDATE`, or back with an answer. -/
inductive EnqueuePhase where
  | inserting
  | updating
  | answered (ok : Bool)
  deriving DecidableEq

/-- A call of `enqueue_file_delete_retry`; `session` is the session of the caller, if it has one. -/
structure EnqueueCall where
  path : Text
  fileAssetId : Option Text
  err : Option Text
  session : Option Nat
  now : Time
  phase : EnqueuePhase
  deriving DecidableEq

def enqueueFileDeleteRetry (filePath : Text) (fileAssetId : Option Text) (error : DeleteError)
    (session : Option Nat) (now : Time) : EnqueueCall where
  path := pyStrip filePath
  fileAssetId := fileAssetId.filter (· ≠ [])
  err := error.errText
  session := session
  now := now
  phase := if pyStrip filePath = [] then .answered false else .inserting

def EnqueueCall.newRow (did : Nat) (c : EnqueueCall) : FileDeleteRow where
  deleteId := did
  filePath := c.path
  fileAssetId := c.fileAssetId
  attempts := 0
  nextRunAt := some c.now
  lockedAt := none
  lockToken := none
  lastError := c.err
  createdAt := c.now
  updatedAt := c.now

/-- The `SET` of the `UPDATE`. -/
def EnqueueCall.requeueRow (c : EnqueueCall) (r : FileDeleteRow) : FileDeleteRow :=
  { r with
    fileAssetId := r.fileAssetId.or c.fileAssetId
    lastError := c.err
    nextRunAt := some c.now
    updatedAt := c.now }

lemma filePath_requeueRow (c : EnqueueCall) (r : FileDeleteRow) :
    (c.requeueRow r).filePath = r.filePath := rfl

/-- How a statement with its commit ends; unanswered, it takes effect and raises all the same. -/
inductive StatementEnd where
  | done
  | failed
  | unanswered
  deriving DecidableEq

/-- The `WHERE` of the `SELECT` in `_pick_and_lock_ready_jobs`. -/
def selectable (settings : DrainSettings) (now : Time) (r : FileDeleteRow) : Bool :=
  r.lockedAt.all (· < expiredBefore settings now) ∧ r.nextRunAt.all (· ≤ now) ∧
    r.attempts < settings.maxAttempts

structure DrainJob where
  deleteId : Nat
  filePath : Text
  attempts : Int
  deriving DecidableEq

structure FileDrain where
  token : Nat
  jobs : List DrainJob
  deriving DecidableEq

def lockFileRow (token : Nat) (now : Time) (r : FileDeleteRow) : FileDeleteRow :=
  { r with
    lockedAt := some now
    lockToken := some token
    attempts := r.attempts + 1
    updatedAt := now }

lemma filePath_lockFileRow (token : Nat) (now : Time) (r : FileDeleteRow) :
    (lockFileRow token now r).filePath = r.filePath := rfl

def lockFileRows (settings : DrainSettings) (token : Nat) (now : Time) (ids : List Nat)
    (t : FileDeleteTable) : FileDeleteTable :=
  t.update (onRows (fun r => r.deleteId ∈ ids ∧ r.lockedAt.all (· < expiredBefore settings now) ∧
    r.attempts < settings.maxAttempts) (lockFileRow token now))
    (key_onRows (filePath_lockFileRow token now))

def lockedJobs (token : Nat) (ids : List Nat) (t : FileDeleteTable) : List DrainJob :=
  (t.rows.filter (fun r => r.deleteId ∈ ids ∧ r.lockToken = some token ∧ r.filePath ≠ [])).map
    (fun r => ⟨r.deleteId, r.filePath, r.attempts⟩)

/-- What the drain finds out about a file. -/
inductive FileOutcome where
  | unsafePath (err : Text)
  | gone
  | removed
  | failed (err : Text)

def fileErrorText (err : Text) : Text :=
  (if err = [] then "unknown error".toList else err).take 4000

def retryFileRow (err : Text) (nextRunAt now : Time) (r : FileDeleteRow) : FileDeleteRow :=
  { r with
    lastError := some (fileErrorText err)
    nextRunAt := some nextRunAt
    lockedAt := none
    lockToken := none
    updatedAt := now }

def terminalFileRow (settings : DrainSettings) (err : Text) (now : Time) (r : FileDeleteRow) :
    FileDeleteRow :=
  { r with
    lastError := some (fileErrorText err)
    nextRunAt := none
    attempts := settings.maxAttempts
    lockedAt := none
    lockToken := none
    updatedAt := now }

/-- The statement that ends a job. -/
inductive JobStatement where
  | deleteRow
  | change (f : FileDeleteRow → FileDeleteRow) (hf : ∀ r, (f r).filePath = r.filePath)

/-- The loop body of `drain_file_delete_queue`. -/
def jobStatement (settings : DrainSettings) (now : Time) (job : DrainJob) : FileOutcome → JobStatement
  | .unsafePath err =>
    .change (terminalFileRow settings ("unsafe_path:".toList ++ err) now) (fun _ => rfl)
  | .gone => .deleteRow
  | .removed => .deleteRow
  | .failed err =>
    if settings.maxAttempts ≤ job.attempts then .change (terminalFileRow settings err now) (fun _ => rfl)
    else
      let delay := computeBackoffSeconds (max 1 job.attempts) settings.backoffBaseSeconds
        settings.backoffMaxSeconds
      .change (retryFileRow err (now + seconds delay) now) (fun _ => rfl)

def holdsJob (token : Nat) (job : DrainJob) (r : FileDeleteRow) : Bool :=
  r.deleteId = job.deleteId ∧ r.lockToken = some token

def JobStatement.apply (token : Nat) (job : DrainJob) (t : FileDeleteTable) :
    JobStatement → FileDeleteTable
  | .deleteRow => t.delete (holdsJob token job)
  | .change f hf => t.update (onRows (holdsJob token job) f) (key_onRows hf)

/-- A write of a session that has not ended: the path, and the row before. -/
structure OpenWrite where
  session : Nat
  path : Text
  before : Option FileDeleteRow

structure FileQueue where
  rows : FileDeleteTable
  openWrites : List OpenWrite
  calls : List EnqueueCall
  drains : List FileDrain

inductive FileAction where
  | call (path : Text) (fileAssetId : Option Text) (error : DeleteError) (session : Option Nat) (now : Time)
  | insert (i did : Nat) (outcome : StatementEnd)
  | update (i : Nat) (outcome : StatementEnd)
  | endSession (session : Nat) (committed : Bool)
  | pick (token : Nat) (now : Time) (ids : List Nat)
  | job (d : Nat) (outcome : FileOutcome) (now : Time) (ok : Bool)

/-- Nobody else has an open write of the path. -/
def FileQueue.free (s : FileQueue) (session : Option Nat) (path : Text) : Bool :=
  s.openWrites.all (fun w => w.path = path → some w.session = session)

/-- The writes that are open after the call has written the row of its path. -/
def FileQueue.openAfter (s : FileQueue) (c : EnqueueCall) : List OpenWrite :=
  match c.session with
  | none => s.openWrites
  | some session =>
    if s.openWrites.any (fun w => w.session = session ∧ w.path = c.path) then s.openWrites
    else ⟨session, c.path, s.rows.find c.path⟩ :: s.openWrites

def FileQueue.setPhase (s : FileQueue) (i : Nat) (c : EnqueueCall) (phase : EnqueuePhase) : FileQueue :=
  { s with calls := s.calls.set i { c with phase := phase } }

def FileQueue.write (s : FileQueue) (c : EnqueueCall) (t : FileDeleteTable) : FileQueue :=
  { s with rows := t, openWrites := s.openAfter c }

def insertTable (did : Nat) (c : EnqueueCall) (t : FileDeleteTable) : FileDeleteTable :=
  t.upsert (c.newRow did) id (fun _ => rfl)

def updateTable (c : EnqueueCall) (t : FileDeleteTable) : FileDeleteTable :=
  t.update (onRows (fun r => r.filePath = c.path) c.requeueRow) (key_onRows (filePath_requeueRow c))

/-- The `INSERT` of call `i`. Without an answer it can only be the commit that raised. -/
def FileQueue.insertCall (s : FileQueue) (i did : Nat) (c : EnqueueCall) : StatementEnd → Option FileQueue
  | .failed => some (s.setPhase i c .updating)
  | outcome =>
    if s.free c.session c.path ∧ (s.rows.find c.path).isNone ∧
        s.rows.rows.all (fun r => r.deleteId ≠ did) ∧ (outcome = .unanswered → c.session = none) then
      some ((s.write c (insertTable did c s.rows)).setPhase i c
        (if outcome = .done then .answered true else .updating))
    else none

/-- The `UPDATE` of call `i`. -/
def FileQueue.updateCall (s : FileQueue) (i : Nat) (c : EnqueueCall) : StatementEnd → Option FileQueue
  | .failed => some (s.setPhase i c (.answered false))
  | outcome =>
    if s.free c.session c.path ∧ (outcome = .unanswered → c.session = none) then
      some ((s.write c (updateTable c s.rows)).setPhase i c (.answered (outcome = .done)))
    else none

def restoreRow (t : FileDeleteTable) (w : OpenWrite) : FileDeleteTable :=
  let t := t.delete (fun r => r.filePath = w.path)
  match w.before with
  | none => t
  | some r => t.upsert r id (fun _ => rfl)

/-- Rows that an open session has written are passed over by `SKIP LOCKED`, and so are rows that
other drains are about to lock: any of the rows that are due may be picked. -/
def FileQueue.pick (settings : DrainSettings) (s : FileQueue) (token : Nat) (now : Time)
    (ids : List Nat) : Option FileQueue :=
  if ∀ id ∈ ids, ∃ r ∈ s.rows.rows, r.deleteId = id ∧ selectable settings now r ∧ s.free none r.filePath then
    let t := lockFileRows settings token now ids s.rows
    let jobs := lockedJobs token ids t
    if jobs = [] then some s else some { s with rows := t, drains := s.drains ++ [⟨token, jobs⟩] }
  else none

/-- The next job of drain `d`; a statement that is not `ok` raises and is rolled back. -/
def FileQueue.job (settings : DrainSettings) (s : FileQueue) (d : Nat) (outcome : FileOutcome)
    (now : Time) (ok : Bool) : Option FileQueue :=
  match s.drains[d]? with
  | some ⟨token, job :: jobs⟩ =>
    if s.rows.rows.all (fun r => holdsJob token job r → s.free none r.filePath) then
      some { s with
        rows := if ok then (jobStatement settings now job outcome).apply token job s.rows else s.rows
        drains := s.drains.set d ⟨token, jobs⟩ }
    else none
  | _ => none

def FileQueue.step (settings : DrainSettings) (s : FileQueue) : FileAction → Option FileQueue
  | .call path fileAssetId error session now =>
    some { s with calls := s.calls ++ [enqueueFileDeleteRetry path fileAssetId error session now] }
  | .insert i did outcome =>
    match s.calls[i]? with
    | some c => if c.phase = .inserting then s.insertCall i did c outcome else none
    | none => none
  | .update i outcome =>
    match s.calls[i]? with
    | some c => if c.phase = .updating then s.updateCall i c outcome else none
    | none => none
  | .endSession session committed =>
    some { s with
      rows := if committed then s.rows
        else (s.openWrites.filter (fun w => w.session = session)).foldl restoreRow s.rows
      openWrites := s.openWrites.filter (fun w => w.session ≠ session) }
  | .pick token now ids => s.pick settings token now ids
  | .job d outcome now ok => s.job settings d outcome now ok

/-! ### The promise -/

/-- There is a row for the path which, from now on, a drain selects as soon as no lock is on it. -/
def Promised (settings : DrainSettings) (c : EnqueueCall) (t : FileDeleteTable) : Prop :=
  ∃ r, t.find c.path = some r ∧ ∀ later, c.now ≤ later →
    r.lockedAt.all (· < expiredBefore settings later) → selectable settings later r

/-- The call that a step lets return `True`. -/
def trueAnswer (s : FileQueue) (a : FileAction) : Option EnqueueCall :=
  match a with
  | .insert i _ .done => s.calls[i]?
  | .update i .done => s.calls[i]?
  | _ => none

/-- The calls that have returned `True`, each with the table at that moment. -/
abbrev Answers := List (EnqueueCall × FileDeleteTable)

def recordAnswer (answers : Answers) (s : FileQueue) (a : FileAction) (t : FileQueue) : Answers :=
  answers ++ ((trueAnswer s a).map (fun c => (c, t.rows))).toList

/-- The queue with all its answers `True`. -/
def answeringStep (settings : DrainSettings) :
    FileQueue × Answers → FileAction → Option (FileQueue × Answers) :=
  track (FileQueue.step settings) recordAnswer

/-- A new row needs an attempt that is allowed at all; an old one has to be there, with an attempt
left. -/
def KeepsPromise (settings : DrainSettings) (s : FileQueue) (a : FileAction) : Prop :=
  match a with
  | .insert _ _ .done => 0 < settings.maxAttempts
  | .update i .done => ∀ c ∈ s.calls[i]?, ∃ r ∈ s.rows.find c.path, r.attempts < settings.maxAttempts
  | _ => True

instance (settings : DrainSettings) (s : FileQueue) (a : FileAction) :
    Decidable (KeepsPromise settings s a) :=
  match a with
  | .insert _ _ .done => inferInstanceAs (Decidable (0 < settings.maxAttempts))
  | .update i .done => inferInstanceAs (Decidable (∀ c ∈ s.calls[i]?, ∃ r ∈ s.rows.find c.path,
      r.attempts < settings.maxAttempts))
  | .call .. | .endSession .. | .pick .. | .job .. | .insert _ _ .failed | .insert _ _ .unanswered
  | .update _ .failed | .update _ .unanswered => inferInstanceAs (Decidable True)

section Promise

variable {settings : DrainSettings} {c : EnqueueCall} {t : FileDeleteTable}

/-- Some time from now on no lock is on a row. -/
lemma exists_lock_over (settings : DrainSettings) (now : Time) (lockedAt : Option Time) :
    ∃ later, now ≤ later ∧ lockedAt.all (· < expiredBefore settings later) = true := by
  cases lockedAt with
  | none => exact ⟨now, le_rfl, rfl⟩
  | some l =>
    have hleft := le_max_left now (l + seconds settings.lockTimeoutSeconds + 1)
    have hright := le_max_right now (l + seconds settings.lockTimeoutSeconds + 1)
    generalize max now (l + seconds settings.lockTimeoutSeconds + 1) = later at hleft hright
    refine ⟨later, hleft, ?_⟩
    unfold expiredBefore
    rw [Option.all_some, decide_eq_true_eq]
    exact lt_sub_iff_add_lt.mpr (Int.lt_of_add_one_le hright)

/-- A row that is due at the time of the call keeps the promise if it has an attempt left. -/
lemma promised_iff {r : FileDeleteRow} (hr : t.find c.path = some r) (hdue : r.nextRunAt = some c.now) :
    Promised settings c t ↔ r.attempts < settings.maxAttempts := by
  constructor
  · rintro ⟨q, hq, hselect⟩
    rw [hr] at hq
    cases hq
    obtain ⟨later, hlater, hlock⟩ := exists_lock_over settings c.now r.lockedAt
    have h := hselect later hlater hlock
    unfold selectable at h
    rw [decide_eq_true_eq] at h
    exact h.2.2
  · intro hattempts
    refine ⟨r, hr, fun later hlater hlock => ?_⟩
    unfold selectable
    rw [decide_eq_true_eq, hdue]
    exact ⟨hlock, by simpa using hlater, hattempts⟩

lemma promised_insertTable (did : Nat) (hnone : t.find c.path = none) :
    Promised settings c (insertTable did c t) ↔ 0 < settings.maxAttempts := by
  have hfind : (insertTable did c t).find c.path = some (c.newRow did) := by
    unfold insertTable
    have hpath : c.path = (c.newRow did).filePath := rfl
    rw [Keyed.find_upsert, if_pos hpath, hnone]
    rfl
  exact promised_iff hfind rfl

lemma promised_updateTable : Promised settings c (updateTable c t) ↔
    ∃ r, t.find c.path = some r ∧ r.attempts < settings.maxAttempts := by
  have hfind : (updateTable c t).find c.path = (t.find c.path).map c.requeueRow := by
    unfold updateTable
    rw [Keyed.find_update_onRows (filePath_requeueRow c)]
    cases hr : t.find c.path with
    | none => rfl
    | some r => simp [Keyed.key_of_find hr]
  cases hr : t.find c.path with
  | none =>
    rw [hr] at hfind
    constructor
    · rintro ⟨q, hq, -⟩
      rw [hfind] at hq
      cases hq
    · rintro ⟨q, hq, -⟩
      cases hq
  | some r =>
    rw [hr] at hfind
    rw [promised_iff hfind rfl]
    constructor
    · exact fun h => ⟨r, rfl, h⟩
    · rintro ⟨q, hq, h⟩
      cases hq
      exact h

/-- What an answer `True` is worth is decided by the state before its statement. -/
lemma answer_promised_iff {s s' : FileQueue} {a : FileAction} (h : s.step settings a = some s') :
    (∀ c ∈ trueAnswer s a, Promised settings c s'.rows) ↔ KeepsPromise settings s a := by
  cases a with
  | insert i did outcome =>
    cases outcome with
    | done =>
      cases hc : s.calls[i]? with
      | none => simp [FileQueue.step, hc] at h
      | some c =>
        simp only [FileQueue.step, hc] at h
        split at h
        · unfold FileQueue.insertCall at h
          dsimp only at h
          split at h
          · next hguard =>
            have hnone : s.rows.find c.path = none := Option.isNone_iff_eq_none.mp hguard.2.1
            have hrows : s'.rows = insertTable did c s.rows := by
              rw [← Option.some.inj h]
              rfl
            have hanswer : trueAnswer s (.insert i did .done) = some c := hc
            rw [hanswer, hrows]
            constructor
            · exact fun hall => (promised_insertTable did hnone).mp (hall c rfl)
            · intro hmax c' hc'
              cases hc'
              exact (promised_insertTable did hnone).mpr hmax
          · cases h
        · cases h
    | failed => simp [trueAnswer, KeepsPromise]
    | unanswered => simp [trueAnswer, KeepsPromise]
  | update i outcome =>
    cases outcome with
    | done =>
      cases hc : s.calls[i]? with
      | none => simp [FileQueue.step, hc] at h
      | some c =>
        simp only [FileQueue.step, hc] at h
        split at h
        · unfold FileQueue.updateCall at h
          dsimp only at h
          split at h
          · have hrows : s'.rows = updateTable c s.rows := by
              rw [← Option.some.inj h]
              rfl
            have hanswer : trueAnswer s (.update i .done) = some c := hc
            rw [hanswer, hrows]
            constructor
            · intro hall c' hc'
              rw [hc] at hc'
              cases hc'
              exact promised_updateTable.mp (hall c rfl)
            · intro hkeep c' hc'
              cases hc'
              exact promised_updateTable.mpr (hkeep c hc)
          · cases h
        · cases h
    | failed => simp [trueAnswer, KeepsPromise]
    | unanswered => simp [trueAnswer, KeepsPromise]
  | _ => simp [trueAnswer, KeepsPromise]

lemma recordAnswer_promised_iff {s s' : FileQueue} {a : FileAction} {answers : Answers}
    (h : s.step settings a = some s') :
    (∀ answer ∈ recordAnswer answers s a s', Promised settings answer.1 answer.2) ↔
      (∀ answer ∈ answers, Promised settings answer.1 answer.2) ∧ KeepsPromise settings s a := by
  rw [← answer_promised_iff h]
  unfold recordAnswer
  cases trueAnswer s a with
  | none => simp
  | some c => simp [or_imp, forall_and]

/-- From any state, with any calls and drains in between and whatever becomes of their statements:
every answer `True` keeps its promise if and only if every `INSERT` that was answered was made with
attempts allowed, and every `UPDATE` that was answered met a row of the path with an attempt left. -/
theorem file_delete_promise_iff {s t : FileQueue} {acts : List FileAction} {answers : Answers}
    (hrun : Run (answeringStep settings) (s, []) acts (t, answers)) :
    (∀ answer ∈ answers, Promised settings answer.1 answer.2) ↔
      GuardedRun (answeringStep settings) (fun p a => KeepsPromise settings p.1 a)
        (s, []) acts (t, answers) := by
  constructor
  · change (∀ answer ∈ (t, answers).2, _) → _
    generalize (t, answers) = q at hrun
    intro hall
    induction hrun with
    | nil => exact .nil _
    | snoc hrun _ hstep ih =>
      obtain ⟨hqueue, hrecord⟩ := track_eq_some.mp hstep
      rw [hrecord] at hall
      obtain ⟨hbefore, hkeep⟩ := (recordAnswer_promised_iff hqueue).mp hall
      exact .snoc (ih hbefore) hkeep hstep
  · intro hguarded
    apply hguarded.invariant (I := fun p => ∀ answer ∈ p.2, Promised settings answer.1 answer.2)
    · intro answer hanswer
      cases hanswer
    · intro p a q hbefore hkeep hstep
      obtain ⟨hqueue, hrecord⟩ := track_eq_some.mp hstep
      rw [hrecord]
      exact (recordAnswer_promised_iff hqueue).mpr ⟨hbefore, hkeep⟩

/-- A queue without rows, calls and drains. -/
def emptyFileQueue : FileQueue where
  rows := .empty _
  openWrites := []
  calls := []
  drains := []

def enqueueA : FileAction := .call "a".toList none (.text "locked".toList) none 6

/-- The second call finds the row of the first, which a drain has locked in between. -/
theorem file_delete_promise_duplicate :
    ∃ answers : Answers, answers.length = 2 ∧
      ∀ answer ∈ answers, Promised fileDeleteSettings answer.1 answer.2 := by
  obtain ⟨q, hrun, hlength⟩ := exists_guardedRun_of_any (answeringStep fileDeleteSettings)
    (fun p a => KeepsPromise fileDeleteSettings p.1 a) (emptyFileQueue, [])
    [enqueueA, .insert 0 1 .done, enqueueA, .insert 1 2 .failed, .pick 7 6 [1], .update 1 .done]
    (fun q => q.2.length = 2) (by decide)
  exact ⟨q.2, of_decide_eq_true hlength, (file_delete_promise_iff hrun.run).mpr hrun⟩

/-- The `INSERT` fails although there is no row, and the `UPDATE` changes nothing. -/
theorem file_delete_promise_broken :
    ¬∀ (settings : DrainSettings) (s t : FileQueue) (acts : List FileAction) (answers : Answers),
      Run (answeringStep settings) (s, []) acts (t, answers) →
        ∀ answer ∈ answers, Promised settings answer.1 answer.2 := by
  intro h
  obtain ⟨q, hrun, hlost⟩ := exists_guardedRun_of_any (answeringStep fileDeleteSettings)
    (fun _ _ => True) (emptyFileQueue, []) [enqueueA, .insert 0 1 .failed, .update 0 .done]
    (fun q => q.2.any (fun answer => (answer.2.find answer.1.path).isNone)) (by decide)
  obtain ⟨answer, hanswer, hnone⟩ := List.any_eq_true.mp hlost
  obtain ⟨r, hr, -⟩ := h fileDeleteSettings emptyFileQueue q.1 _ q.2 hrun answer hanswer
  rw [Option.isNone_iff_eq_none.mp hnone] at hr
  cases hr

end Promise

end IpDocket.Queues
