import IpDocket.Ops.DurableQueueSteps

/-!
# The status columns of a job

`status`, `locked_by`, `locked_at` and `finished_at` agree with each other after every
operation but one: `retry` leaves `finished_at` as it is, so a job retried after it has
finished is queued with the time of its earlier end.
-/

namespace IpDocket.Ops
open IpDocket.Lib

/-- A job is locked exactly while it runs, and has an end time exactly when it has ended. -/
structure RowInvariant (r : DurableJob) : Prop where
  running_iff : r.status = .running ↔ r.lockedBy.isSome ∧ r.lockedAt.isSome
  finished_iff : r.finishedAt.isSome ↔ r.status.terminal

instance (r : DurableJob) : Decidable (RowInvariant r) :=
  decidable_of_iff
    ((r.status = .running ↔ r.lockedBy.isSome ∧ r.lockedAt.isSome) ∧
      (r.finishedAt.isSome ↔ r.status.terminal))
    ⟨fun h => ⟨h.1, h.2⟩, fun h => ⟨h.running_iff, h.finished_iff⟩⟩

/-- A `retry` finds a job that has not finished, or is refused by the unique index. -/
def retriesUnfinished (jobs : JobTable) : QueueAction → Bool
  | .retry jobId now =>
    (jobs.find jobId).all (fun r => r.finishedAt = none ∨ dedupeConflict (retryJob now r) jobs)
  | _ => true

lemma rowInvariant_job (req : EnqueueRequest) (now : Time) (jobId : Nat) :
    RowInvariant (req.job now jobId) := by
  constructor <;> simp [EnqueueRequest.job, JobStatus.terminal]

section Rows

variable {r : DurableJob} (h : RowInvariant r)
include h

lemma RowInvariant.finishedAt_eq_none (hstatus : ¬r.status.terminal) : r.finishedAt = none := by
  have hnot : ¬r.finishedAt.isSome := fun hsome => hstatus (h.finished_iff.mp hsome)
  simpa using hnot

lemma RowInvariant.finishedAt_of_running (hstatus : r.status = .running) :
    r.finishedAt = none :=
  h.finishedAt_eq_none (by simp [hstatus, JobStatus.terminal])

/-- A running row put back into the queue with its lock removed. -/
lemma RowInvariant.requeue {q : DurableJob} (hstatus : r.status = .running)
    (hq : q.status = .queued) (hby : q.lockedBy = none) (hfin : q.finishedAt = r.finishedAt) :
    RowInvariant q := by
  have hnone := h.finishedAt_of_running hstatus
  constructor
  · simp [hq, hby]
  · simp [hq, hfin, hnone, JobStatus.terminal]

end Rows

/-- A row in a final status with an end time and without a lock. -/
lemma rowInvariant_ended {q : DurableJob} (hq : q.status.terminal) (hby : q.lockedBy = none)
    (hfin : q.finishedAt.isSome) : RowInvariant q := by
  constructor
  · have hne : q.status ≠ .running := by
      intro hrun
      simp [hrun, JobStatus.terminal] at hq
    simp [hne, hby]
  · exact ⟨fun _ => hq, fun _ => hfin⟩

lemma ownsJob_iff {workerId : String} {r : DurableJob} :
    ownsJob workerId r ↔ r.status = .running ∧ r.lockedBy = some workerId := by
  simp [ownsJob]

/-- Every change of a row but a retry keeps its invariant. -/
lemma rowInvariant_step {settings : QueueSettings} {a : QueueAction} {r r' : DurableJob}
    (h : RowInvariant r) (hstep : RowStep settings a r r')
    (hretry : ∀ now, a = .retry r.id now → r' = r ∨ r.finishedAt = none) : RowInvariant r' := by
  cases hstep with
  | keep => exact h
  | stale hstale =>
    have hrun : r.status = .running := (of_decide_eq_true hstale).1
    exact h.requeue hrun rfl rfl rfl
  | startup hlocked =>
    have hrun : r.status = .running := (of_decide_eq_true hlocked).1
    exact h.requeue hrun rfl rfl rfl
  | claim hqueued =>
    have hnone := h.finishedAt_eq_none (by simp [hqueued, JobStatus.terminal])
    constructor
    · simp [lockJob]
    · simp [lockJob, hnone, JobStatus.terminal]
  | succeed _ => exact rowInvariant_ended rfl rfl rfl
  | fail howns =>
    have hrun := (ownsJob_iff.mp howns).1
    unfold failJob
    dsimp only
    split
    · exact h.requeue hrun rfl rfl rfl
    · exact rowInvariant_ended rfl rfl rfl
  | force _ => exact rowInvariant_ended rfl rfl rfl
  | refresh howns =>
    have hrun := (ownsJob_iff.mp howns).1
    have hby := (ownsJob_iff.mp howns).2
    constructor
    · simp [refreshLock, hrun, hby]
    · simpa [refreshLock] using h.finished_iff
  | @retry _ now =>
    rcases hretry now rfl with hr | hnone
    · rw [hr]
      exact h
    · constructor
      · simp [retryJob]
      · simp [retryJob, hnone, JobStatus.terminal]
  | cancel => exact rowInvariant_ended rfl rfl rfl

lemma find_retry {jobId : Nat} {jobs : JobTable} {r : DurableJob} (now : Time)
    (hr : jobs.find jobId = some r) :
    (afterCall jobs (retry jobId now jobs)).find jobId =
      some (if dedupeConflict (retryJob now r) jobs then r else retryJob now r) := by
  have hid := Table.key_of_find hr
  have hfind : jobs.find r.id = some r := by rw [hid, hr]
  unfold retry editJob
  rw [hr]
  dsimp only
  cases hc : commitJob r (retryJob now r) jobs with
  | error e =>
    have hconflict : dedupeConflict (retryJob now r) jobs = true := by
      unfold commitJob at hc
      rw [hfind] at hc
      simp only [flush_loaded (sameJob_retryJob now r)] at hc
      split at hc
      · assumption
      · cases hc
    rw [if_pos hconflict]
    exact hr
  | ok jobs' =>
    have hconflict : ¬dedupeConflict (retryJob now r) jobs = true := by
      intro hyes
      unfold commitJob at hc
      rw [hfind] at hc
      simp only [flush_loaded (sameJob_retryJob now r), hyes, if_true] at hc
      cases hc
    rw [if_neg hconflict]
    have hk := commitJob_loaded hfind (sameJob_retryJob now r) hc jobId
    rw [if_pos hid.symm] at hk
    exact hk

/-- The rows after a step that `retriesUnfinished` admits. -/
lemma rows_invariant_step {settings : QueueSettings} {a : QueueAction} {jobs jobs' : JobTable}
    (h : ∀ r ∈ jobs.rows, RowInvariant r) (hguard : retriesUnfinished jobs a)
    (hstep : queueStep settings jobs a = some jobs') : ∀ r ∈ jobs'.rows, RowInvariant r := by
  intro r' hr'
  have hfind' := Table.find_of_mem hr'
  cases queueStep_find hstep r'.id with
  | absent _ hnone =>
    rw [hfind'] at hnone
    cases hnone
  | @changed r q hr hq hrow =>
    rw [hfind'] at hq
    cases hq
    refine rowInvariant_step (h r (Table.mem_of_find hr)) hrow ?_
    intro now ha
    subst ha
    have hid := Table.key_of_find hr
    rw [← hid] at hr hfind'
    simp only [retriesUnfinished, hr, Option.all_some, decide_eq_true_eq] at hguard
    rcases hguard with hnone | hconflict
    · exact .inr hnone
    · left
      cases hstep
      rw [find_retry now hr, if_pos hconflict] at hfind'
      exact (Option.some.inj hfind').symm
  | inserted _ _ _ hnew =>
    rw [hfind'] at hnew
    rw [Option.some.inj hnew]
    exact rowInvariant_job _ _ _

/-- A retry of a finished job that the unique index lets through breaks the row. -/
lemma retriesUnfinished_of_rows {settings : QueueSettings} {a : QueueAction}
    {jobs jobs' : JobTable} (hstep : queueStep settings jobs a = some jobs')
    (h : ∀ r ∈ jobs'.rows, RowInvariant r) : retriesUnfinished jobs a := by
  cases a with
  | retry jobId now =>
    cases hstep
    simp only [retriesUnfinished]
    cases hr : jobs.find jobId with
    | none => rfl
    | some r =>
      rw [Option.all_some, decide_eq_true_eq]
      by_cases hconflict : dedupeConflict (retryJob now r) jobs = true
      · exact .inr hconflict
      · left
        have hfind := find_retry now hr
        rw [if_neg hconflict] at hfind
        have hrow := h _ (Table.mem_of_find hfind)
        exact hrow.finishedAt_eq_none (by simp [retryJob, JobStatus.terminal])
  | _ => rfl

/-- From an empty table, as long as every `retry` finds an unfinished job or is refused,
all rows keep their invariant; and in each of these states the next operation keeps it
exactly when it meets that condition too. -/
theorem durableJob_rows_invariant_iff (settings : QueueSettings) {as : List QueueAction}
    {jobs : JobTable}
    (h : GuardedRun (queueStep settings) (fun jobs a => retriesUnfinished jobs a)
      (Table.empty DurableJob.id) as jobs) :
    (∀ r ∈ jobs.rows, RowInvariant r) ∧
      ∀ a jobs', queueStep settings jobs a = some jobs' →
        ((∀ r ∈ jobs'.rows, RowInvariant r) ↔ retriesUnfinished jobs a) := by
  have hrows : ∀ r ∈ jobs.rows, RowInvariant r := by
    refine h.invariant ?_ (fun _ _ _ hi hg hs => rows_invariant_step hi hg hs)
    simp [Table.empty]
  refine ⟨hrows, ?_⟩
  intro a jobs' hstep
  constructor
  · exact retriesUnfinished_of_rows hstep
  · intro hguard
    exact rows_invariant_step hrows hguard hstep

/-- A running job is retried and claimed again. -/
theorem durableJob_rows_invariant_retry_running :
    ∃ jobs : JobTable,
      GuardedRun (queueStep {}) (fun jobs a => retriesUnfinished jobs a)
        (Table.empty DurableJob.id)
        [.enqueue ⟨"task", "null", "default", none, 5, none⟩ 0, .claim "host:1" ["default"] 1,
          .retry 1 2, .claim "host:2" ["default"] 3] jobs ∧
      ∀ r ∈ jobs.rows, RowInvariant r :=
  exists_guardedRun rfl (fun hrun => (durableJob_rows_invariant_iff {} hrun).1)

/-- A succeeded job that is retried is queued and still has its end time. -/
theorem retry_keeps_finishedAt :
    ¬∀ (settings : QueueSettings) (as : List QueueAction) (jobs : JobTable),
      Run (queueStep settings) (Table.empty DurableJob.id) as jobs →
        ∀ r ∈ jobs.rows, RowInvariant r := by
  intro h
  have hrun := h {} [.enqueue ⟨"task", "null", "default", none, 5, none⟩ 0,
    .claim "host:1" ["default"] 1, .markSucceeded "host:1" 1 2, .retry 1 3] _
    (guardedRun_of_execute rfl)
  revert hrun
  decide

end IpDocket.Ops
