import IpDocket.Lib.Run
import IpDocket.Ops.DurableQueue

/-!
# The durable queue as a transition system

Every operation is one atomic step. `RowStep` lists what a step can do to a row that is
already there, and `queueStep_find` says that nothing else happens. All invariants of the
queue are proved from it.
-/

namespace IpDocket.Ops
open IpDocket.Lib

inductive QueueAction
  | enqueue (req : EnqueueRequest) (now : Time)
  | recoverStaleLocks (now dbNow : Time)
  | recoverStartupLocks (socketHostname workerId : String) (queues : List String) (now : Time)
  | claim (workerId : String) (queues : List String) (now : Time)
  | markSucceeded (workerId : String) (jobId : Nat) (now : Time)
  | markFailed (workerId : String) (jobId : Nat) (err : HandlerError) (traceback : String)
      (now : Time)
  | forceFailed (workerId : String) (jobId : Nat) (dbNow : Time)
  | refreshJobLock (workerId : String) (jobId : Nat) (now : Time)
  | retry (jobId : Nat) (now : Time)
  | cancel (jobId : Nat) (now : Time)

/-- What is in the table after a call that may raise: an error is rolled back. -/
def afterCall (jobs : JobTable) : Except DbError (JobTable × Bool) → JobTable
  | .ok (jobs', _) => jobs'
  | .error _ => jobs

def markStep (jobs : JobTable) : Option LoadedJob → JobTable
  | none => jobs
  | some mark => commitMark mark jobs

/-- One operation. `claim_one` is the step `recoverStaleLocks`, a transaction of its own,
followed by the step `claim`. -/
def queueStep (settings : QueueSettings) (jobs : JobTable) : QueueAction → Option JobTable
  | .enqueue req now => some (enqueue req now jobs).1
  | .recoverStaleLocks now dbNow => some (recoverStaleLocks settings now dbNow jobs)
  | .recoverStartupLocks socketHostname workerId queues now =>
    some (recoverStartupLocksForWorker socketHostname workerId queues now jobs)
  | .claim workerId queues now => some (claimSelect workerId queues now jobs).1
  | .markSucceeded workerId jobId now =>
    some (markStep jobs (markSucceededRead workerId jobId now jobs))
  | .markFailed workerId jobId err traceback now =>
    some (markStep jobs (markFailedRead settings workerId jobId err traceback now jobs))
  | .forceFailed workerId jobId dbNow => some (forceFailed workerId jobId dbNow jobs)
  | .refreshJobLock workerId jobId now => some (refreshJobLock workerId jobId now jobs)
  | .retry jobId now => some (afterCall jobs (retry jobId now jobs))
  | .cancel jobId now => some (afterCall jobs (cancel jobId now jobs))

/-- What a step can do to a row. -/
inductive RowStep (settings : QueueSettings) : QueueAction → DurableJob → DurableJob → Prop
  | keep {a : QueueAction} {r : DurableJob} : RowStep settings a r r
  | stale {r : DurableJob} {now dbNow : Time} :
      staleLocked (now - seconds settings.lockTtlSeconds) r →
      RowStep settings (.recoverStaleLocks now dbNow) r (requeueStale dbNow r)
  | startup {r : DurableJob} {socketHostname workerId : String} {queues : List String}
      {now : Time} :
      startupLocked (workerHostname socketHostname workerId) (queues.filter (· ≠ "")) r →
      RowStep settings (.recoverStartupLocks socketHostname workerId queues now) r
        (requeueStartup now r)
  | claim {r : DurableJob} {workerId : String} {queues : List String} {now : Time} :
      r.status = .queued →
      RowStep settings (.claim workerId queues now) r (lockJob workerId now r)
  | succeed {r : DurableJob} {workerId : String} {now : Time} : ownsJob workerId r →
      RowStep settings (.markSucceeded workerId r.id now) r (succeedJob now r)
  | fail {r : DurableJob} {workerId : String} {err : HandlerError} {traceback : String}
      {now : Time} : ownsJob workerId r →
      RowStep settings (.markFailed workerId r.id err traceback now) r
        (failJob settings err traceback now r)
  | force {r : DurableJob} {workerId : String} {dbNow : Time} : ownsJob workerId r →
      RowStep settings (.forceFailed workerId r.id dbNow) r (forceFailJob dbNow r)
  | refresh {r : DurableJob} {workerId : String} {now : Time} : ownsJob workerId r →
      RowStep settings (.refreshJobLock workerId r.id now) r (refreshLock now r)
  | retry {r : DurableJob} {now : Time} :
      RowStep settings (.retry r.id now) r (retryJob now r)
  | cancel {r : DurableJob} {now : Time} :
      RowStep settings (.cancel r.id now) r (cancelJob now r)

lemma find_updateJobs (p : DurableJob → Bool) (f : DurableJob → DurableJob)
    (hf : ∀ r, (f r).id = r.id) (jobs : JobTable) (k : Nat) :
    (updateJobs p f hf jobs).find k = (jobs.find k).map (onRows p f) :=
  Table.find_update _

/-- An `UPDATE` by primary key. -/
lemma find_updateJobs_id (f : DurableJob → DurableJob) (hf : ∀ r, (f r).id = r.id)
    (jobs : JobTable) (jobId k : Nat) :
    (updateJobs (fun q => q.id = jobId) f hf jobs).find k =
      if k = jobId then (jobs.find k).map f else jobs.find k :=
  Table.find_update_key hf

/-- A row changed only in the columns that a flush may write. -/
def SameJob (r q : DurableJob) : Prop :=
  r.id = q.id ∧ r.queue = q.queue ∧ r.task = q.task ∧ r.payload = q.payload ∧
    r.dedupeKey = q.dedupeKey ∧ r.maxAttempts = q.maxAttempts

lemma flush_loaded {loaded new : DurableJob} (h : SameJob new loaded) :
    loaded.flush new loaded = new := by
  obtain ⟨hid, hqueue, htask, hpayload, hkey, hmax⟩ := h
  unfold DurableJob.flush
  simp only [flushColumn_self]
  rw [← hid, ← hqueue, ← htask, ← hpayload, ← hkey, ← hmax]

lemma commitJob_ok {loaded new : DurableJob} {jobs jobs' : JobTable}
    (h : commitJob loaded new jobs = .ok jobs') :
    ∃ stored, jobs.find loaded.id = some stored ∧
      ¬dedupeConflict (loaded.flush new stored) jobs ∧
      jobs' = updateJobs (fun q => q.id = loaded.id) (loaded.flush new)
        (id_flush loaded new) jobs := by
  unfold commitJob at h
  split at h
  · cases h
  · next stored hstored =>
    split at h
    · cases h
    · next hfree =>
      cases h
      exact ⟨stored, hstored, hfree, rfl⟩

lemma find_commitJob {loaded new : DurableJob} {jobs jobs' : JobTable}
    (h : commitJob loaded new jobs = .ok jobs') (k : Nat) :
    jobs'.find k = if k = loaded.id then (jobs.find k).map (loaded.flush new) else jobs.find k := by
  obtain ⟨_, _, _, rfl⟩ := commitJob_ok h
  exact find_updateJobs_id _ _ _ _ _

/-- A commit right after the read writes the changed object, unless the unique index
refuses it. -/
lemma commitJob_loaded {jobs jobs' : JobTable} {loaded new : DurableJob}
    (hfind : jobs.find loaded.id = some loaded) (hsame : SameJob new loaded)
    (h : commitJob loaded new jobs = .ok jobs') (k : Nat) :
    jobs'.find k = if k = loaded.id then some new else jobs.find k := by
  unfold commitJob at h
  rw [hfind] at h
  simp only [flush_loaded hsame] at h
  split at h
  · cases h
  · cases h
    rw [find_updateJobs_id]
    by_cases hk : k = loaded.id
    · subst hk
      rw [if_pos rfl, if_pos rfl, hfind, Option.map_some, flush_loaded hsame]
    · rw [if_neg hk, if_neg hk]

lemma sameJob_succeedJob (now : Time) (r : DurableJob) : SameJob (succeedJob now r) r :=
  ⟨rfl, rfl, rfl, rfl, rfl, rfl⟩

lemma sameJob_retryJob (now : Time) (r : DurableJob) : SameJob (retryJob now r) r :=
  ⟨rfl, rfl, rfl, rfl, rfl, rfl⟩

lemma sameJob_cancelJob (now : Time) (r : DurableJob) : SameJob (cancelJob now r) r :=
  ⟨rfl, rfl, rfl, rfl, rfl, rfl⟩

lemma sameJob_failJob (settings : QueueSettings) (err : HandlerError) (traceback : String)
    (now : Time) (r : DurableJob) : SameJob (failJob settings err traceback now r) r := by
  unfold failJob
  dsimp only
  split <;> exact ⟨rfl, rfl, rfl, rfl, rfl, rfl⟩

lemma find_commitMark {jobs : JobTable} {loaded new : DurableJob}
    (hfind : jobs.find loaded.id = some loaded) (hsame : SameJob new loaded) (k : Nat) :
    (commitMark ⟨loaded, new⟩ jobs).find k = jobs.find k ∨
      (k = loaded.id ∧ (commitMark ⟨loaded, new⟩ jobs).find k = some new) := by
  unfold commitMark
  dsimp only
  cases hc : commitJob loaded new jobs with
  | error e => exact .inl rfl
  | ok jobs' =>
    have hk := commitJob_loaded hfind hsame hc k
    by_cases hne : k = loaded.id
    · exact .inr ⟨hne, by rw [hk, if_pos hne]⟩
    · exact .inl (by rw [hk, if_neg hne])

lemma readOwned_some {workerId : String} {jobId : Nat} {edit : DurableJob → DurableJob}
    {jobs : JobTable} {mark : LoadedJob} (h : readOwned workerId jobId edit jobs = some mark) :
    jobs.find jobId = some mark.loaded ∧ ownsJob workerId mark.loaded ∧
      mark.new = edit mark.loaded := by
  unfold readOwned at h
  split at h
  · cases h
  · next fresh hfresh =>
    split at h
    · next howns =>
      cases h
      exact ⟨hfresh, howns, rfl⟩
    · cases h

/-- The two atomic completions: the row is kept, or the owner's job is changed by `edit`. -/
lemma find_markStep {edit : DurableJob → DurableJob} (hedit : ∀ r, SameJob (edit r) r)
    (workerId : String) (jobId : Nat) (jobs : JobTable) (k : Nat) :
    (markStep jobs (readOwned workerId jobId edit jobs)).find k = jobs.find k ∨
      ∃ r, k = jobId ∧ jobs.find k = some r ∧ ownsJob workerId r ∧
        (markStep jobs (readOwned workerId jobId edit jobs)).find k = some (edit r) := by
  cases hread : readOwned workerId jobId edit jobs with
  | none => exact .inl rfl
  | some mark =>
    obtain ⟨hfind, howns, hnew⟩ := readOwned_some hread
    have hid := Table.key_of_find hfind
    rw [← hid] at hfind
    rcases mark with ⟨loaded, new⟩
    dsimp only at hfind howns hnew hid
    subst hnew
    rcases find_commitMark hfind (hedit loaded) k with h | ⟨hk, h⟩
    · exact .inl h
    · subst hk
      exact .inr ⟨loaded, hid, hfind, howns, h⟩

lemma find_editJob {edit : DurableJob → DurableJob} (hedit : ∀ r, SameJob (edit r) r)
    (jobId : Nat) (jobs : JobTable) (k : Nat) :
    (afterCall jobs (editJob edit jobId jobs)).find k = jobs.find k ∨
      ∃ r, k = jobId ∧ jobs.find k = some r ∧
        (afterCall jobs (editJob edit jobId jobs)).find k = some (edit r) := by
  unfold editJob
  cases hfind : jobs.find jobId with
  | none => exact .inl rfl
  | some job =>
    have hid := Table.key_of_find hfind
    dsimp only
    cases hc : commitJob job (edit job) jobs with
    | error e => exact .inl rfl
    | ok jobs' =>
      have hk := commitJob_loaded (by rw [hid, hfind]) (hedit job) hc k
      by_cases hne : k = jobId
      · exact .inr ⟨job, hne, by rw [hne, hfind], by
          simp only [afterCall]
          rw [hk, if_pos (by rw [hid, hne])]⟩
      · exact .inl (by
          simp only [afterCall]
          rw [hk, if_neg (by rw [hid]; exact hne)])

lemma foldl_earlierJob_mem (rows : List DurableJob) (best : Option DurableJob) {r : DurableJob}
    (h : rows.foldl earlierJob best = some r) : best = some r ∨ r ∈ rows := by
  induction rows generalizing best with
  | nil => exact .inl h
  | cons q rows ih =>
    rw [List.foldl_cons] at h
    rcases ih _ h with hbest | hmem
    · unfold earlierJob at hbest
      cases best with
      | none =>
        cases hbest
        exact .inr List.mem_cons_self
      | some b =>
        dsimp only at hbest
        split at hbest
        · cases hbest
          exact .inr List.mem_cons_self
        · exact .inl hbest
    · exact .inr (List.mem_cons_of_mem _ hmem)

lemma selectJob_spec {queues : List String} {now : Time} {jobs : JobTable} {r : DurableJob}
    (h : selectJob queues now jobs = some r) :
    jobs.find r.id = some r ∧ r.status = .queued ∧ r.queue ∈ queues ∧ r.runAt ≤ now := by
  obtain ⟨queue, hqueue, hfirst⟩ := List.exists_of_findSome?_eq_some h
  rcases foldl_earlierJob_mem _ _ hfirst with hnone | hmem
  · cases hnone
  · obtain ⟨hrow, hready⟩ := List.mem_filter.mp hmem
    simp only [readyJob, decide_eq_true_eq] at hready
    obtain ⟨hstatus, hq, hrun⟩ := hready
    refine ⟨Table.find_of_mem hrow, hstatus, ?_, hrun⟩
    rw [hq]
    exact (List.mem_filter.mp hqueue).1

/-- What a step does under the key `k`: nothing is there before and after, a row changes by
`RowStep`, or an `enqueue` inserts a row with the next id. -/
inductive KeyStep (settings : QueueSettings) (a : QueueAction) (jobs jobs' : JobTable)
    (k : Nat) : Prop
  | absent : jobs.find k = none → jobs'.find k = none → KeyStep settings a jobs jobs' k
  | changed {r r' : DurableJob} : jobs.find k = some r → jobs'.find k = some r' →
      RowStep settings a r r' → KeyStep settings a jobs jobs' k
  | inserted {req : EnqueueRequest} {now : Time} : a = .enqueue req now → k = jobs.next →
      jobs.find k = none → jobs'.find k = some (req.job now k) →
      KeyStep settings a jobs jobs' k

section Inversion

variable {settings : QueueSettings} {a : QueueAction} {jobs jobs' : JobTable} {k : Nat}

lemma KeyStep.of_eq (h : jobs'.find k = jobs.find k) : KeyStep settings a jobs jobs' k := by
  cases hk : jobs.find k with
  | none => exact .absent hk (h.trans hk)
  | some r => exact .changed hk (h.trans hk) .keep

lemma keyStep_updateJobs {p : DurableJob → Bool} {f : DurableJob → DurableJob}
    (hf : ∀ r, (f r).id = r.id)
    (hrow : ∀ r ∈ jobs.rows, p r → RowStep settings a r (f r)) :
    KeyStep settings a jobs (updateJobs p f hf jobs) k := by
  have hfind := find_updateJobs p f hf jobs k
  cases hk : jobs.find k with
  | none =>
    rw [hk] at hfind
    exact .absent hk hfind
  | some r =>
    rw [hk, Option.map_some] at hfind
    refine .changed hk hfind ?_
    unfold onRows
    split
    · next hp => exact hrow r (Table.mem_of_find hk) hp
    · exact .keep

lemma keyStep_insertJob (req : EnqueueRequest) (now : Time) :
    KeyStep settings (.enqueue req now) jobs (insertJob req now jobs).1 k := by
  unfold insertJob
  split
  · exact .of_eq rfl
  · by_cases hk : k = jobs.next
    · subst hk
      exact .inserted rfl rfl Table.find_next (Table.find_insert_next (id_job req now))
    · cases hfind : jobs.find k with
      | some r => exact .changed hfind (Table.find_insert_some (id_job req now) hfind) .keep
      | none =>
        refine .absent hfind ?_
        cases hnew : (jobs.insert (req.job now) (id_job req now)).find k with
        | none => rfl
        | some r =>
          have hlt := Table.find_lt_next hnew
          have hlt' : k < jobs.next := by
            simp only [Table.insert] at hlt
            omega
          rw [Table.find_insert_of_ne (id_job req now) (Nat.ne_of_lt hlt'), hfind] at hnew
          cases hnew

theorem queueStep_find (h : queueStep settings jobs a = some jobs') (k : Nat) :
    KeyStep settings a jobs jobs' k := by
  cases a with
  | enqueue req now =>
    cases h
    unfold enqueue
    cases req.find jobs with
    | some existing => exact .of_eq rfl
    | none => exact keyStep_insertJob req now
  | recoverStaleLocks now dbNow =>
    cases h
    exact keyStep_updateJobs (id_requeueStale dbNow) (fun r _ hp => .stale hp)
  | recoverStartupLocks socketHostname workerId queues now =>
    cases h
    exact keyStep_updateJobs (id_requeueStartup now) (fun r _ hp => .startup hp)
  | claim workerId queues now =>
    cases h
    unfold claimSelect
    split
    · exact .of_eq rfl
    · next job hselect =>
      refine keyStep_updateJobs (id_lockJob workerId now) ?_
      intro r hr hp
      have hspec := selectJob_spec hselect
      have hr' : r = job := by
        apply Table.eq_of_key_eq hr (Table.mem_of_find hspec.1)
        simpa using hp
      rw [hr']
      exact .claim hspec.2.1
  | markSucceeded workerId jobId now =>
    cases h
    rcases find_markStep (sameJob_succeedJob now) workerId jobId jobs k with
      h | ⟨r, hk, hr, howns, h⟩
    · exact .of_eq h
    · have hid := Table.key_of_find hr
      subst hk
      subst hid
      exact .changed hr h (.succeed howns)
  | markFailed workerId jobId err traceback now =>
    cases h
    rcases find_markStep (sameJob_failJob settings err traceback now) workerId jobId jobs k with
      h | ⟨r, hk, hr, howns, h⟩
    · exact .of_eq h
    · have hid := Table.key_of_find hr
      subst hk
      subst hid
      exact .changed hr h (.fail howns)
  | forceFailed workerId jobId dbNow =>
    cases h
    refine keyStep_updateJobs (id_forceFailJob dbNow) ?_
    intro r _ hp
    obtain ⟨hid, howns⟩ := of_decide_eq_true hp
    subst hid
    exact .force howns
  | refreshJobLock workerId jobId now =>
    cases h
    refine keyStep_updateJobs (id_refreshLock now) ?_
    intro r _ hp
    obtain ⟨hid, howns⟩ := of_decide_eq_true hp
    subst hid
    exact .refresh howns
  | retry jobId now =>
    cases h
    rcases find_editJob (sameJob_retryJob now) jobId jobs k with h | ⟨r, hk, hr, h⟩
    · exact .of_eq h
    · have hid := Table.key_of_find hr
      subst hk
      subst hid
      exact .changed hr h .retry
  | cancel jobId now =>
    cases h
    rcases find_editJob (sameJob_cancelJob now) jobId jobs k with h | ⟨r, hk, hr, h⟩
    · exact .of_eq h
    · have hid := Table.key_of_find hr
      subst hk
      subst hid
      exact .changed hr h .cancel

end Inversion

end IpDocket.Ops
