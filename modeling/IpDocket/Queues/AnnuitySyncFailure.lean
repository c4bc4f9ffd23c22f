import IpDocket.Queues.AnnuitySync
import IpDocket.Workflows.AnnuityTasks

/-!
# A synchronisation that fails

One call of `_drain_one`, with all its statements. The handler of exceptions goes on in the session
of the synchronisation, without a rollback: it reads the attempts, writes the back-off or the dead
letter, and commits. An error of the database aborts the transaction, and every later statement in
it raises as well; any other exception leaves the half-done writes in the session.

Other workers may change the queue between the statements. The workflows and annuity rows, when
the synchronisation ends, are those that it has written so far, whatever they are.
-/

namespace IpDocket.Queues
open IpDocket.Lib IpDocket.Workflows.AnnuityTasks

/-- The rows that the synchronisation writes. -/
structure SyncRows where
  workflows : WorkflowTable
  annuities : List Annuity.AnnuityItem

structure DrainDb where
  rows : SyncRows
  queue : AnnuityTable
  deadLetters : List DeadLetter

/-- How `sync_annuity_workflows_for_matter` ends, under the heartbeat of the lock. -/
inductive SyncEnd where
  | returns
  | lockLost
  | raises (err : String)
  | databaseError (err : String)
  deriving DecidableEq

/-- How a statement ends. It may raise before the database has it, or raise there, which aborts the
transaction. A commit that raises there has ended the transaction; one that aborts has not got over
its flush. -/
inductive Executed where
  | executed
  | raised (err : String)
  | aborted (err : String)
  deriving DecidableEq

/-- The moments at which this session looks at the queue or writes it. -/
inductive DrainMoment where
  | finalize
  | failureSelect
  | failureWrite

/-- What a call meets. `reached` are the rows as the session sees them when the synchronisation
ends, and `others` the writes of other workers before a moment. -/
structure DrainCall where
  settings : DrainSettings
  token : Nat
  mid : String
  others : DrainMoment → AnnuityTable → AnnuityTable := fun _ t => t
  reached : SyncRows
  syncEnd : SyncEnd
  firstSelect : Executed := .executed
  finalDelete : Executed := .executed
  finalCommit : Executed := .executed
  failureSelect : Executed := .executed
  deadInsert : Executed := .executed
  failureWrite : Executed := .executed
  failureCommit : Executed := .executed
  now : Time
  later : Time

/-- An exception on its way to the handler: its text, the rows as the session sees them, and
whether the transaction is aborted. -/
structure DrainFailure where
  err : String
  rows : SyncRows
  aborted : Bool

namespace DrainCall

variable (c : DrainCall) (db : DrainDb)

def queueAtFinalize : AnnuityTable := c.others .finalize db.queue

def queueAtSelect : AnnuityTable := c.others .failureSelect (c.queueAtFinalize db)

def queueAtWrite : AnnuityTable := c.others .failureWrite (c.queueAtSelect db)

/-- The `try` block; `none` if it gets to its end. -/
def failure : Option DrainFailure :=
  match c.firstSelect with
  | .raised err => some ⟨err, db.rows, false⟩
  | .aborted err => some ⟨err, db.rows, true⟩
  | .executed =>
    match c.syncEnd with
    | .raises err => some ⟨err, c.reached, false⟩
    | .databaseError err => some ⟨err, c.reached, true⟩
    | .lockLost => some ⟨"annuity sync lock lost during processing", c.reached, false⟩
    | .returns =>
      match c.finalDelete with
      | .raised err => some ⟨err, c.reached, false⟩
      | .aborted err => some ⟨err, c.reached, true⟩
      | .executed =>
        if isHeld c.token c.mid (c.queueAtFinalize db) then
          match c.finalCommit with
          | .executed => none
          | .raised err => some ⟨err, db.rows, false⟩
          | .aborted err => some ⟨err, c.reached, true⟩
        else some ⟨syncLockLost, db.rows, false⟩

/-- `attempts` and `payload` in the handler. -/
def refreshed (f : DrainFailure) : Nat × Option String :=
  if f.aborted = false ∧ c.failureSelect = .executed then
    (((c.queueAtSelect db).find c.mid |>.map QueueRow.attempts).getD 0,
      (c.queueAtSelect db).find c.mid |>.bind QueueRow.payload)
  else (0, none)

def abortedAtWrite (f : DrainFailure) : Bool :=
  f.aborted || (match c.failureSelect with
    | .aborted _ => true
    | _ => false)

/-- The database if the handler rolls back. -/
def rolledBack : DrainDb := { db with queue := c.queueAtWrite db }

/-- `_dead_letter`, which catches its exceptions, the `DELETE` and the commit. -/
def deadLetter (f : DrainFailure) : DrainDb :=
  let (attempts, payload) := c.refreshed db f
  let delete := { rows := f.rows, queue := deleteHeld c.token c.mid (c.queueAtWrite db),
                  deadLetters := db.deadLetters : DrainDb }
  if c.failureWrite = .executed ∧ c.failureCommit = .executed then
    match c.deadInsert with
    | .executed => { delete with deadLetters := ⟨c.mid, payload, attempts, errorText f.err⟩ :: db.deadLetters }
    | .raised _ => delete
    | .aborted _ => c.rolledBack db
  else c.rolledBack db

/-- The back-off and the commit; nothing is clobbered if the lock is somebody else's. -/
def backOff (f : DrainFailure) : DrainDb :=
  let attempts := (c.refreshed db f).1
  if c.abortedAtWrite f = false ∧ c.failureWrite = .executed ∧ c.failureCommit = .executed ∧
      isHeld c.token c.mid (c.queueAtWrite db) then
    { db with
      rows := f.rows
      queue := updateHeld c.token c.mid
        (failRow (errorText f.err) (some (rebuildNextRun c.settings attempts c.later)) c.now)
        (matterId_failRow _ _ c.now) (c.queueAtWrite db) }
  else c.rolledBack db

/-- The `except` block. -/
def handle (f : DrainFailure) : DrainDb :=
  if exhausted c.settings (c.refreshed db f).1 then c.deadLetter db f else c.backOff db f

/-- `_drain_one`. -/
def drainOne : DrainDb :=
  match c.failure db with
  | some f => c.handle db f
  | none =>
    { db with rows := c.reached, queue := deleteHeld c.token c.mid (c.queueAtFinalize db) }

def DeadLettered : Prop := (c.drainOne db).deadLetters ≠ db.deadLetters

/-- The call has removed the row of the matter. -/
def Removed : Prop :=
  ((c.queueAtWrite db).find c.mid).isSome ∧ (c.drainOne db).queue.find c.mid = none

def TokenLost : Prop := isHeld c.token c.mid (c.queueAtWrite db) = false

/-- Nothing is changed but the queue, a dead letter stands for a removed row, and whoever has lost
the lock leaves neither. -/
structure ChangesOnlyQueue : Prop where
  rows : (c.drainOne db).rows = db.rows
  dead : c.DeadLettered db ↔ c.Removed db
  lost : c.TokenLost db → ¬c.DeadLettered db ∧ ¬c.Removed db

/-- The handler gets to its commit. -/
def Commits (f : DrainFailure) : Prop :=
  c.failureWrite = .executed ∧ c.failureCommit = .executed ∧
    if exhausted c.settings (c.refreshed db f).1 then ∀ err, c.deadInsert ≠ .aborted err
    else c.abortedAtWrite f = false ∧ isHeld c.token c.mid (c.queueAtWrite db) = true

/-- The exception comes from the database, in the transaction with which the handler goes on. -/
def DatabaseFailed : Prop :=
  (∃ err, c.firstSelect = .aborted err) ∨
    (c.firstSelect = .executed ∧
      ((∃ err, c.syncEnd = .databaseError err) ∨
        (c.syncEnd = .returns ∧
          ((∃ err, c.finalDelete = .aborted err) ∨
            (c.finalDelete = .executed ∧ isHeld c.token c.mid (c.queueAtFinalize db) = true ∧
              ∃ err, c.finalCommit = .aborted err)))))

/-- The exception comes from elsewhere, after the synchronisation has begun to write, and nothing has
been rolled back. -/
def HalfDone : Prop :=
  c.firstSelect = .executed ∧
    (c.syncEnd = .lockLost ∨ (∃ err, c.syncEnd = .raises err) ∨
      (c.syncEnd = .returns ∧ ∃ err, c.finalDelete = .raised err))

/-- The attempts of the row, if the handler can read them. -/
def attemptsSeen : Nat :=
  if c.failureSelect = .executed then ((c.queueAtSelect db).find c.mid |>.map QueueRow.attempts).getD 0
  else 0

/-- Unless the exception comes from the database or the handler's own statements fail, no row has
been changed so far, and, if the attempts are used up, the dead letter is written exactly if the
lock is still there. A back-off without the lock commits nothing. -/
def FailsCleanly : Prop :=
  ¬c.DatabaseFailed db → c.failureWrite = .executed → c.failureCommit = .executed →
    if exhausted c.settings (c.attemptsSeen db) then
      (∀ err, c.deadInsert ≠ .aborted err) → (c.HalfDone → c.reached = db.rows) ∧
        (c.deadInsert = .executed ↔ isHeld c.token c.mid (c.queueAtWrite db) = true)
    else
      (∀ err, c.failureSelect ≠ .aborted err) → isHeld c.token c.mid (c.queueAtWrite db) = true →
        c.HalfDone → c.reached = db.rows

variable {c db}

/-- The `DELETE` of the handler removes the row of the matter exactly if the lock is still there. -/
lemma removed_of_delete (hqueue : (c.drainOne db).queue = deleteHeld c.token c.mid (c.queueAtWrite db)) :
    c.Removed db ↔ isHeld c.token c.mid (c.queueAtWrite db) = true := by
  unfold Removed isHeld
  rw [hqueue]
  cases hr : (c.queueAtWrite db).find c.mid with
  | none => simp
  | some r =>
    rw [find_deleteHeld hr]
    unfold holdsToken
    rw [Keyed.key_of_find hr]
    simp

lemma not_removed_of_isSome (hqueue : ((c.queueAtWrite db).find c.mid).isSome →
    ((c.drainOne db).queue.find c.mid).isSome) : ¬c.Removed db := by
  rintro ⟨hsome, hnone⟩
  have h := hqueue hsome
  rw [hnone] at h
  cases h

lemma changesOnlyQueue_of_rolledBack (h : c.drainOne db = c.rolledBack db) : c.ChangesOnlyQueue db := by
  have hdead : ¬c.DeadLettered db := by
    unfold DeadLettered
    rw [h]
    exact fun hne => hne rfl
  have hremoved : ¬c.Removed db := by
    apply not_removed_of_isSome
    rw [h]
    exact id
  constructor
  · rw [h]
    rfl
  · exact iff_of_false hdead hremoved
  · exact fun _ => ⟨hdead, hremoved⟩

section Failed

variable {f : DrainFailure} (hfailure : c.failure db = some f)

include hfailure

lemma drainOne_of_failure : c.drainOne db = c.handle db f := by
  unfold drainOne
  rw [hfailure]

/-- The dead letter path that gets to its commit. -/
lemma changesOnlyQueue_deadLetter (hexhausted : exhausted c.settings (c.refreshed db f).1 = true)
    (hcommits : c.Commits db f) :
    c.ChangesOnlyQueue db ↔ f.rows = db.rows ∧
      (c.deadInsert = .executed ↔ isHeld c.token c.mid (c.queueAtWrite db) = true) := by
  obtain ⟨hwrite, hcommit, hinsert⟩ := hcommits
  rw [if_pos hexhausted] at hinsert
  have hdrain := drainOne_of_failure hfailure
  unfold handle at hdrain
  rw [if_pos hexhausted] at hdrain
  unfold deadLetter at hdrain
  dsimp only at hdrain
  rw [if_pos ⟨hwrite, hcommit⟩] at hdrain
  have hrows : (c.drainOne db).rows = f.rows := by
    rw [hdrain]
    split
    · rfl
    · rfl
    · next err h => exact absurd h (hinsert err)
  have hqueue : (c.drainOne db).queue = deleteHeld c.token c.mid (c.queueAtWrite db) := by
    rw [hdrain]
    split
    · rfl
    · rfl
    · next err h => exact absurd h (hinsert err)
  have hdead : c.DeadLettered db ↔ c.deadInsert = .executed := by
    unfold DeadLettered
    rw [hdrain]
    split
    · next h => simp [h]
    · next err h => simp [h]
    · next err h => exact absurd h (hinsert err)
  have hremoved := removed_of_delete hqueue
  constructor
  · intro hclean
    refine ⟨hrows.symm.trans hclean.rows, ?_⟩
    rw [← hdead, ← hremoved]
    exact hclean.dead
  · rintro ⟨hsame, hiff⟩
    constructor
    · rw [hrows, hsame]
    · rw [hdead, hremoved]
      exact hiff
    · intro hlost
      unfold TokenLost at hlost
      rw [hdead, hremoved, hiff, hlost]
      simp

/-- The back-off that gets to its commit. -/
lemma changesOnlyQueue_backOff (hexhausted : ¬exhausted c.settings (c.refreshed db f).1 = true)
    (hcommits : c.Commits db f) : c.ChangesOnlyQueue db ↔ f.rows = db.rows := by
  obtain ⟨hwrite, hcommit, hheld⟩ := hcommits
  rw [if_neg hexhausted] at hheld
  have hdrain := drainOne_of_failure hfailure
  unfold handle at hdrain
  rw [if_neg hexhausted] at hdrain
  unfold backOff at hdrain
  dsimp only at hdrain
  rw [if_pos ⟨hheld.1, hwrite, hcommit, hheld.2⟩] at hdrain
  have hdead : ¬c.DeadLettered db := by
    unfold DeadLettered
    rw [hdrain]
    exact fun hne => hne rfl
  have hremoved : ¬c.Removed db := by
    apply not_removed_of_isSome
    rw [hdrain]
    unfold updateHeld
    rw [Keyed.find_update_onRows (matterId_failRow _ _ c.now), Option.isSome_map]
    exact id
  have hrows : (c.drainOne db).rows = f.rows := by rw [hdrain]
  constructor
  · exact fun hclean => hrows.symm.trans hclean.rows
  · intro hsame
    constructor
    · rw [hrows, hsame]
    · exact iff_of_false hdead hremoved
    · exact fun _ => ⟨hdead, hremoved⟩

lemma rolledBack_of_not_commits (hcommits : ¬c.Commits db f) : c.drainOne db = c.rolledBack db := by
  rw [drainOne_of_failure hfailure]
  unfold Commits at hcommits
  unfold handle
  split
  · next hexhausted =>
    rw [if_pos hexhausted] at hcommits
    unfold deadLetter
    dsimp only
    split
    · next hok =>
      split
      · next h => exact absurd ⟨hok.1, hok.2, by simp [h]⟩ hcommits
      · next err h => exact absurd ⟨hok.1, hok.2, by simp [h]⟩ hcommits
      · rfl
    · rfl
  · next hexhausted =>
    rw [if_neg hexhausted] at hcommits
    unfold backOff
    dsimp only
    apply if_neg
    rintro ⟨haborted, hwrite, hcommit, hheld⟩
    exact hcommits ⟨hwrite, hcommit, haborted, hheld⟩

lemma changesOnlyQueue_iff_of_failure : c.ChangesOnlyQueue db ↔ (c.Commits db f →
    f.rows = db.rows ∧ (exhausted c.settings (c.refreshed db f).1 = true →
      (c.deadInsert = .executed ↔ isHeld c.token c.mid (c.queueAtWrite db) = true))) := by
  by_cases hcommits : c.Commits db f
  · by_cases hexhausted : exhausted c.settings (c.refreshed db f).1 = true
    · rw [changesOnlyQueue_deadLetter hfailure hexhausted hcommits]
      simp [hcommits, hexhausted]
    · rw [changesOnlyQueue_backOff hfailure hexhausted hcommits]
      simp [hcommits, hexhausted]
  · have hclean := changesOnlyQueue_of_rolledBack (rolledBack_of_not_commits hfailure hcommits)
    exact iff_of_true hclean (fun h => absurd h hcommits)

/-- Where the exception came from. -/
lemma failure_facts : (f.aborted = true ↔ c.DatabaseFailed db) ∧
    (f.aborted = false → (c.HalfDone ∧ f.rows = c.reached) ∨ (¬c.HalfDone ∧ f.rows = db.rows)) := by
  unfold failure at hfailure
  unfold DatabaseFailed HalfDone
  split at hfailure
  · next h =>
    cases hfailure
    simp [h]
  · next h =>
    cases hfailure
    simp [h]
  · next h =>
    split at hfailure
    · next hend =>
      cases hfailure
      simp [h, hend]
    · next hend =>
      cases hfailure
      simp [h, hend]
    · next hend =>
      cases hfailure
      simp [h, hend]
    · next hend =>
      split at hfailure
      · next hdelete =>
        cases hfailure
        simp [h, hend, hdelete]
      · next hdelete =>
        cases hfailure
        simp [h, hend, hdelete]
      · next hdelete =>
        split at hfailure
        · next hheld =>
          split at hfailure
          · cases hfailure
          · next hcommit =>
            cases hfailure
            simp [h, hend, hdelete, hcommit]
          · next hcommit =>
            cases hfailure
            simp [h, hend, hdelete, hheld, hcommit]
        · next hheld =>
          cases hfailure
          simp [h, hend, hdelete, hheld]

end Failed

/-- Wherever the synchronisation raises, whatever it has written until then and whatever other
workers do: a failed call changes nothing but the queue, with a dead letter for a removed row and
for nothing else, if and only if its handler either commits nothing or finds no row changed and
writes the dead letter with the lock in hand. -/
theorem failed_sync_iff (hfailed : (c.failure db).isSome) :
    c.ChangesOnlyQueue db ↔ c.FailsCleanly db := by
  obtain ⟨f, hfailure⟩ := Option.isSome_iff_exists.mp hfailed
  obtain ⟨hdatabase, hrows⟩ := failure_facts hfailure
  rw [changesOnlyQueue_iff_of_failure hfailure]
  unfold FailsCleanly
  rw [← hdatabase]
  cases haborted : f.aborted with
  | true =>
    -- the attempts cannot be read, and the back-off is refused
    have hattempts : (c.refreshed db f).1 = 0 := by
      unfold refreshed
      rw [if_neg (by simp [haborted])]
    have hnot : ¬c.Commits db f := by
      unfold Commits abortedAtWrite
      rw [hattempts]
      simp [exhausted, haborted]
    simp [hnot]
  | false =>
    have hattempts : (c.refreshed db f).1 = c.attemptsSeen db := by
      unfold refreshed attemptsSeen
      by_cases hselect : c.failureSelect = .executed
      · rw [if_pos ⟨haborted, hselect⟩, if_pos hselect]
      · rw [if_neg (fun h => hselect h.2), if_neg hselect]
    have hsame : f.rows = db.rows ↔ (c.HalfDone → c.reached = db.rows) := by
      obtain ⟨hhalf, heq⟩ | ⟨hhalf, heq⟩ := hrows haborted
      · simp [hhalf, heq]
      · simp [hhalf, heq]
    have hselect : c.abortedAtWrite f = false ↔ ∀ err, c.failureSelect ≠ .aborted err := by
      unfold abortedAtWrite
      rw [haborted]
      cases c.failureSelect with
      | executed => simp
      | raised err => simp
      | aborted err => simp
    unfold Commits
    rw [hattempts, hsame]
    by_cases hexhausted : exhausted c.settings (c.attemptsSeen db) = true
    · simp only [hexhausted, if_true, Bool.false_eq_true, not_false_eq_true, forall_const]
      constructor
      · exact fun h hwrite hcommit hinsert => h ⟨hwrite, hcommit, hinsert⟩
      · exact fun h hcommits => h hcommits.1 hcommits.2.1 hcommits.2.2
    · simp only [hexhausted, if_false, Bool.false_eq_true, not_false_eq_true, forall_const, hselect]
      constructor
      · exact fun h hwrite hcommit hread hheld => (h ⟨hwrite, hcommit, hread, hheld⟩).1
      · exact fun h hcommits => ⟨h hcommits.1 hcommits.2.1 hcommits.2.2.1 hcommits.2.2.2, by simp⟩

end DrainCall

/-! ### One matter -/

def lockedRow : AnnuityRow where
  matterId := "M1"
  payload := none
  attempts := 1
  nextRunAt := some 0
  lockedAt := some 5
  lockToken := some 7
  lastError := none
  createdAt := 0
  updatedAt := 5

def lockedQueue : AnnuityTable := ⟨[lockedRow], List.pairwise_singleton _ _⟩

/-- A matter with a locked row in the queue and no workflows. -/
def lockedDb : DrainDb where
  rows := ⟨.empty _, []⟩
  queue := lockedQueue
  deadLetters := []

def fourthAnnuity : Annuity.AnnuityItem where
  annuityId := "A4".toList
  matterId := "M1".toList
  cycleNo := 4
  dueDate := some "2027-01-31".toList

def fourthInput : SyncInput where
  today := (PyDate.make 2026 1 15).get (Eq.refl true)
  visibleN := 1
  items := [fourthAnnuity]
  workflowName _ := "Annuity".toList
  assignee _ := none

/-- The synchronisation has written the workflow of the first annuity row. -/
def halfDoneRows : SyncRows where
  workflows := (upsertWorkflow asciiTables fourthInput fourthAnnuity (.empty _)).getD (.empty _)
  annuities := []

def halfDoneCall (syncEnd : SyncEnd) : DrainCall where
  settings := {}
  token := 7
  mid := "M1"
  reached := halfDoneRows
  syncEnd := syncEnd
  now := 10
  later := 10

/-- After an error of the database nothing is left of the workflow. -/
theorem failed_sync_databaseError :
    (halfDoneCall (.databaseError "deadlock detected")).ChangesOnlyQueue lockedDb := by
  apply (DrainCall.failed_sync_iff rfl).mpr
  intro hnot
  exact absurd (.inr ⟨rfl, .inl ⟨_, rfl⟩⟩) hnot

/-- After any other exception the half-done work is committed together with the back-off. -/
theorem failed_sync_keeps_writes :
    ¬∀ (c : DrainCall) (db : DrainDb), (c.failure db).isSome → c.ChangesOnlyQueue db := by
  intro h
  have hrows := (h (halfDoneCall (.raises "interrupted")) lockedDb rfl).rows
  have hlength : ((halfDoneCall (.raises "interrupted")).drainOne lockedDb).rows.workflows.rows.length =
      lockedDb.rows.workflows.rows.length := by rw [hrows]
  revert hlength
  decide

end IpDocket.Queues
