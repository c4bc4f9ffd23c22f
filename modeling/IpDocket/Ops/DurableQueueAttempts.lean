import IpDocket.Ops.DurableQueueLease

/-!
# The number of claims of a job

`claim_one` counts `attempts` and `mark_failed` compares them with `max_attempts`. The
recoveries put a job back into the queue without looking at either, and a late commit of
`mark_failed` compares the attempts it read. A history variable counts the claims of one
job until it first reaches a final status.
-/

namespace IpDocket.Ops
open IpDocket.Lib

structure ClaimHistory where
  claims : Nat
  ended : Bool
  deriving DecidableEq

/-- The job that a step claims. -/
def LeaseAction.claimed (s : LeaseState) : LeaseAction → Option Nat
  | .op (.claim _ queues now) => (selectJob queues now s.jobs).map DurableJob.id
  | _ => none

def recordClaim (j : Nat) (h : ClaimHistory) (s : LeaseState) (a : LeaseAction)
    (s' : LeaseState) : ClaimHistory where
  claims := if h.ended = false ∧ a.claimed s = some j then h.claims + 1 else h.claims
  ended := h.ended || (s'.jobs.find j).any (fun r => r.status.terminal)

/-- The queue with the history of the job `j`. -/
def claimStep (settings : QueueSettings) (j : Nat) :
    LeaseState × ClaimHistory → LeaseAction → Option (LeaseState × ClaimHistory) :=
  track (leaseStep settings) (recordClaim j)

def claimInitial : LeaseState × ClaimHistory := (LeaseState.initial, ⟨0, false⟩)

def notRetried (j : Nat) : LeaseAction → Bool
  | .op (.retry jobId _) => jobId ≠ j
  | _ => true

def attemptLimit (r : DurableJob) : Int := max 1 r.maxAttempts

def belowLimit (r : DurableJob) : Bool := r.attempts < attemptLimit r

/-- The step does not put the job `j` back into the queue once its attempts have reached
the limit: no stale recovery of such a row, and no commit of a startup recovery or of
`mark_failed` over such a row. The check of `mark_failed` itself is on the row that it read. -/
def requeuesBelowLimit (settings : QueueSettings) (j : Nat) (s : LeaseState) :
    LeaseAction → Bool
  | .op (.recoverStaleLocks now _) =>
    (s.jobs.find j).all (fun r =>
      staleLocked (now - seconds settings.lockTtlSeconds) r → belowLimit r)
  | .markCommit w =>
    s.inFlight.all (fun p => p.1 = w ∧ p.2.loaded.id = j ∧ p.2.new.status = .queued →
      (s.jobs.find j).all belowLimit)
  | .startupCommit i =>
    (s.startups[i]?).all (fun loads => loads.all (fun l => l.loaded.id = j →
      (s.jobs.find j).all belowLimit))
  | _ => true

/-- The history fits the row: before the job has ended, its claims are its attempts, and
a queued row is below the limit. -/
structure Counted (h : ClaimHistory) (r : DurableJob) : Prop where
  bound : (h.claims : Int) ≤ attemptLimit r
  claims_eq : h.ended = false → h.claims = r.attempts
  queued : h.ended = false → r.status = .queued → (r.attempts : Int) < attemptLimit r

def CountedAt (j : Nat) (jobs : JobTable) (h : ClaimHistory) : Prop :=
  match jobs.find j with
  | none => h = ⟨0, false⟩
  | some r => Counted h r

/-- Completions and recoveries do not touch `attempts`. -/
structure MarksKeepAttempts (s : LeaseState) : Prop where
  marks : ∀ p ∈ s.inFlight, p.2.new.attempts = p.2.loaded.attempts
  loads : ∀ loads ∈ s.startups, ∀ l ∈ loads, l.new.attempts = l.loaded.attempts

lemma counted_of_find {j : Nat} {jobs : JobTable} {h : ClaimHistory} {r : DurableJob}
    (hc : CountedAt j jobs h) (hr : jobs.find j = some r) : Counted h r := by
  unfold CountedAt at hc
  rw [hr] at hc
  exact hc

/-- The history after a step that claims no job. -/
def ClaimHistory.seen (h : ClaimHistory) (r : DurableJob) : ClaimHistory :=
  { h with ended := h.ended || r.status.terminal }

/-- A change of a row without a claim: it ends the job, or keeps the row out of the queue,
or leaves a row in the queue that is below its limit. -/
lemma Counted.change {h : ClaimHistory} {r r' : DurableJob} (hc : Counted h r)
    (hattempts : r'.attempts = r.attempts) (hmax : r'.maxAttempts = r.maxAttempts)
    (hqueued : h.ended = false → r'.status = .queued → (r.attempts : Int) < attemptLimit r) :
    Counted (h.seen r') r' := by
  have hlimit : attemptLimit r' = attemptLimit r := by
    unfold attemptLimit
    rw [hmax]
  have hended : (h.seen r').ended = false → h.ended = false := by
    intro hfalse
    simp only [ClaimHistory.seen, Bool.or_eq_false_iff] at hfalse
    exact hfalse.1
  constructor
  · rw [hlimit]
    exact hc.bound
  · intro he
    rw [hattempts]
    exact hc.claims_eq (hended he)
  · intro he hq
    rw [hlimit, hattempts]
    exact hqueued (hended he) hq

/-- A claim of a queued row. -/
lemma Counted.claim {h : ClaimHistory} {r : DurableJob} (hc : Counted h r)
    (hqueued : r.status = .queued) (w : String) (now : Time) :
    Counted ⟨if h.ended = false then h.claims + 1 else h.claims, h.ended⟩ (lockJob w now r) := by
  constructor
  · change _ ≤ attemptLimit r
    by_cases he : h.ended = false
    · have hlt := hc.queued he hqueued
      have heq := hc.claims_eq he
      rw [if_pos he, heq]
      dsimp only
      omega
    · rw [if_neg he]
      exact hc.bound
  · intro he
    dsimp only at he ⊢
    rw [if_pos he, hc.claims_eq he]
    rfl
  · intro _ hstatus
    cases hstatus

section Unclaimed

variable {j : Nat} {s : LeaseState} {h : ClaimHistory} {a : LeaseAction}

lemma recordClaim_none {s' : LeaseState} (hclaim : a.claimed s ≠ some j) (hfind : s'.jobs.find j = none) :
    recordClaim j h s a s' = h := by
  unfold recordClaim
  rw [hfind]
  simp [hclaim]

lemma recordClaim_some {s' : LeaseState} {r : DurableJob} (hclaim : a.claimed s ≠ some j)
    (hfind : s'.jobs.find j = some r) : recordClaim j h s a s' = h.seen r := by
  unfold recordClaim ClaimHistory.seen
  rw [hfind]
  simp [hclaim]

lemma countedAt_same (s' : LeaseState) (hc : CountedAt j s.jobs h)
    (hclaim : a.claimed s ≠ some j) (hfind : s'.jobs.find j = s.jobs.find j) :
    CountedAt j s'.jobs (recordClaim j h s a s') := by
  unfold CountedAt at hc ⊢
  rw [hfind]
  cases hr : s.jobs.find j with
  | none =>
    rw [hr] at hc hfind
    rw [recordClaim_none hclaim hfind]
    exact hc
  | some r =>
    rw [hr] at hc hfind
    rw [recordClaim_some hclaim hfind]
    exact hc.change rfl rfl hc.queued

lemma countedAt_change (s' : LeaseState) {r r' : DurableJob} (hc : CountedAt j s.jobs h)
    (hclaim : a.claimed s ≠ some j) (hr : s.jobs.find j = some r)
    (hr' : s'.jobs.find j = some r') (hattempts : r'.attempts = r.attempts)
    (hmax : r'.maxAttempts = r.maxAttempts)
    (hqueued : h.ended = false → r'.status = .queued → (r.attempts : Int) < attemptLimit r) :
    CountedAt j s'.jobs (recordClaim j h s a s') := by
  unfold CountedAt
  rw [hr', recordClaim_some hclaim hr']
  exact (counted_of_find hc hr).change hattempts hmax hqueued

end Unclaimed

lemma attempts_failJob (settings : QueueSettings) (err : HandlerError) (traceback : String)
    (now : Time) (r : DurableJob) :
    (failJob settings err traceback now r).attempts = r.attempts := by
  unfold failJob
  dsimp only
  split <;> rfl

/-- `mark_failed` requeues the row it read only below the limit. -/
lemma belowLimit_of_failJob_queued {settings : QueueSettings} {err : HandlerError}
    {traceback : String} {now : Time} {r : DurableJob}
    (h : (failJob settings err traceback now r).status = .queued) :
    (r.attempts : Int) < attemptLimit r := by
  unfold failJob at h
  dsimp only at h
  split at h
  · next hlt =>
    unfold attemptLimit
    omega
  · cases h

/-- An operation other than a claim and a retry of `j`, on the row of `j`. -/
lemma rowStep_requeues {settings : QueueSettings} {s : LeaseState} {a : QueueAction}
    {r r' : DurableJob} (hr : s.jobs.find r.id = some r)
    (hatomic : a.atomic) (hretry : notRetried r.id (.op a))
    (hguard : requeuesBelowLimit settings r.id s (.op a))
    (hclaim : ∀ w queues now, a ≠ .claim w queues now) (hrow : RowStep settings a r r') :
    r'.attempts = r.attempts ∧ r'.maxAttempts = r.maxAttempts ∧
      (r'.status = .queued → r.status = .queued ∨ (r.attempts : Int) < attemptLimit r) := by
  cases hrow with
  | keep => exact ⟨rfl, rfl, fun hq => .inl hq⟩
  | stale hstale =>
    simp only [requeuesBelowLimit, hr, Option.all_some, decide_eq_true_eq] at hguard
    have hlt := hguard hstale
    simp only [belowLimit, decide_eq_true_eq] at hlt
    exact ⟨rfl, rfl, fun _ => .inr hlt⟩
  | startup _ => cases hatomic
  | claim _ => exact absurd rfl (hclaim _ _ _)
  | succeed _ => exact ⟨rfl, rfl, fun hq => by cases hq⟩
  | fail _ =>
    refine ⟨attempts_failJob _ _ _ _ _, (sameJob_failJob _ _ _ _ _).2.2.2.2.2, fun hq => .inr ?_⟩
    exact belowLimit_of_failJob_queued hq
  | force _ => exact ⟨rfl, rfl, fun hq => by cases hq⟩
  | refresh _ => exact ⟨rfl, rfl, fun hq => .inl hq⟩
  | retry => simp [notRetried] at hretry
  | cancel => exact ⟨rfl, rfl, fun hq => by cases hq⟩

/-! ### The steps of the queue -/

lemma find_claimSelect (w : String) (queues : List String) (now : Time) (jobs : JobTable)
    (k : Nat) :
    (claimSelect w queues now jobs).1.find k =
      match selectJob queues now jobs with
      | none => jobs.find k
      | some job => if job.id = k then some (lockJob w now job) else jobs.find k := by
  unfold claimSelect
  cases hselect : selectJob queues now jobs with
  | none => rfl
  | some job =>
    have hjob := (selectJob_spec hselect).1
    dsimp only
    rw [find_updateJobs_id]
    by_cases hk : job.id = k
    · subst hk
      rw [if_pos rfl, if_pos rfl, hjob, Option.map_some]
    · rw [if_neg hk, if_neg (Ne.symm hk)]

lemma countedAt_claim {j : Nat} {s : LeaseState} {h : ClaimHistory} {w : String}
    {queues : List String} {now : Time} (hc : CountedAt j s.jobs h) :
    CountedAt j (claimSelect w queues now s.jobs).1
      (recordClaim j h s (.op (.claim w queues now))
        { s with jobs := (claimSelect w queues now s.jobs).1 }) := by
  have hfind := find_claimSelect w queues now s.jobs j
  cases hselect : selectJob queues now s.jobs with
  | none =>
    rw [hselect] at hfind
    exact countedAt_same ⟨_, _, _⟩ hc (by simp [LeaseAction.claimed, hselect]) hfind
  | some job =>
    rw [hselect] at hfind
    dsimp only at hfind
    by_cases hj : job.id = j
    · rw [if_pos hj] at hfind
      have hspec := selectJob_spec hselect
      have hjob : s.jobs.find j = some job := by rw [← hj, hspec.1]
      have hcount := (counted_of_find hc hjob).claim hspec.2.1 w now
      unfold CountedAt
      rw [hfind]
      have hrecord : recordClaim j h s (.op (.claim w queues now))
          { s with jobs := (claimSelect w queues now s.jobs).1 } =
          ⟨if h.ended = false then h.claims + 1 else h.claims, h.ended⟩ := by
        simp [recordClaim, LeaseAction.claimed, hselect, hj, hfind, lockJob, JobStatus.terminal]
      rw [hrecord]
      exact hcount
    · rw [if_neg hj] at hfind
      exact countedAt_same ⟨_, _, _⟩ hc (by simp [LeaseAction.claimed, hselect, hj]) hfind

lemma countedAt_op {settings : QueueSettings} {j : Nat} {s : LeaseState} {h : ClaimHistory}
    {a : QueueAction} {jobs : JobTable} (hc : CountedAt j s.jobs h) (hatomic : a.atomic)
    (hretry : notRetried j (.op a)) (hguard : requeuesBelowLimit settings j s (.op a))
    (hstep : queueStep settings s.jobs a = some jobs) :
    CountedAt j jobs (recordClaim j h s (.op a) { s with jobs := jobs }) := by
  by_cases hclaim : ∃ w queues now, a = .claim w queues now
  · obtain ⟨w, queues, now, rfl⟩ := hclaim
    cases hstep
    exact countedAt_claim hc
  · have hnot : ∀ w queues now, a ≠ .claim w queues now := by
      intro w queues now ha
      exact hclaim ⟨w, queues, now, ha⟩
    have hclaimed : LeaseAction.claimed s (.op a) ≠ some j := by
      cases a with
      | claim w queues now => exact absurd rfl (hnot w queues now)
      | _ => simp [LeaseAction.claimed]
    cases queueStep_find hstep j with
    | absent hnone hnone' => exact countedAt_same ⟨_, _, _⟩ hc hclaimed (hnone'.trans hnone.symm)
    | @changed r r' hr hr' hrow =>
      have hid := Table.key_of_find hr
      subst hid
      obtain ⟨hattempts, hmax, hqueued⟩ := rowStep_requeues hr hatomic hretry hguard hnot hrow
      refine countedAt_change ⟨_, _, _⟩ hc hclaimed hr hr' hattempts hmax ?_
      intro he hq
      rcases hqueued hq with hq' | hlt
      · exact (counted_of_find hc hr).queued he hq'
      · exact hlt
    | @inserted req now ha hk hnone hnew =>
      unfold CountedAt at hc ⊢
      rw [hnone] at hc
      rw [hnew, recordClaim_some hclaimed hnew, hc]
      constructor
      · simp only [ClaimHistory.seen, attemptLimit]
        omega
      · intro _
        rfl
      · intro _ _
        simp only [EnqueueRequest.job, attemptLimit]
        omega

/-- A late commit keeps the stored attempts and the limit. -/
lemma flush_counts {loaded new : DurableJob} (stored : DurableJob)
    (h : new.attempts = loaded.attempts) :
    (loaded.flush new stored).attempts = stored.attempts ∧
      (loaded.flush new stored).maxAttempts = stored.maxAttempts := by
  constructor
  · change flushColumn loaded.attempts new.attempts stored.attempts = stored.attempts
    unfold flushColumn
    rw [if_pos h]
  · rfl

/-- The commit leaves the table alone, or flushes the object over the stored row. -/
lemma find_commitMark_self (mark : LoadedJob) (jobs : JobTable) :
    (commitMark mark jobs).find mark.loaded.id = jobs.find mark.loaded.id ∨
      ∃ stored, jobs.find mark.loaded.id = some stored ∧
        (commitMark mark jobs).find mark.loaded.id =
          some (mark.loaded.flush mark.new stored) := by
  unfold commitMark commitJob
  cases hstored : jobs.find mark.loaded.id with
  | none => exact .inl hstored
  | some stored =>
    dsimp only
    by_cases hconflict : dedupeConflict (mark.loaded.flush mark.new stored) jobs
    · rw [if_pos hconflict]
      exact .inl hstored
    · rw [if_neg hconflict]
      refine .inr ⟨stored, rfl, ?_⟩
      dsimp only
      rw [find_updateJobs_id, if_pos rfl, hstored, Option.map_some]

/-- A flushed row is queued because the object is, or because the stored row was. -/
lemma flush_queued {loaded new stored : DurableJob}
    (h : (loaded.flush new stored).status = .queued) :
    new.status = .queued ∨ stored.status = .queued := by
  change flushColumn loaded.status new.status stored.status = .queued at h
  unfold flushColumn at h
  split at h
  · exact .inr h
  · exact .inl h

lemma countedAt_commit {settings : QueueSettings} {j : Nat} {s s' : LeaseState}
    {h : ClaimHistory} {w : String} (hc : CountedAt j s.jobs h) (hmarks : MarksKeepAttempts s)
    (hguard : requeuesBelowLimit settings j s (.markCommit w))
    (hstep : leaseStep settings s (.markCommit w) = some s') :
    CountedAt j s'.jobs (recordClaim j h s (.markCommit w) s') := by
  have hclaimed : LeaseAction.claimed s (.markCommit w) ≠ some j := by simp [LeaseAction.claimed]
  obtain ⟨p, hp, hw, rfl⟩ := leaseStep_commit hstep
  by_cases hj : j = p.2.loaded.id
  · subst hj
    rcases find_commitMark_self p.2 s.jobs with hsame | ⟨stored, hstored, hflush⟩
    · exact countedAt_same ⟨_, _, _⟩ hc hclaimed hsame
    · obtain ⟨hattempts, hmax⟩ := flush_counts stored (hmarks.marks p hp)
      refine countedAt_change ⟨_, _, _⟩ hc hclaimed hstored hflush hattempts hmax ?_
      intro he hq
      rcases flush_queued hq with hnew | hold
      · have hall := List.all_eq_true.mp hguard p hp
        simp only [hw, hnew, true_and, decide_eq_true_eq, hstored, Option.all_some,
          forall_const, belowLimit] at hall
        exact hall
      · exact (counted_of_find hc hstored).queued he hold
  · exact countedAt_same ⟨_, _, _⟩ hc hclaimed (find_commitMark_ne hj)

/-- The commit of a recovery keeps the stored attempts and the limit, and it queues the row of
`j` only below its limit. -/
lemma countedAt_startup {settings : QueueSettings} {j i : Nat} {s s' : LeaseState}
    {h : ClaimHistory} (hc : CountedAt j s.jobs h) (hmarks : MarksKeepAttempts s)
    (hguard : requeuesBelowLimit settings j s (.startupCommit i))
    (hstep : leaseStep settings s (.startupCommit i) = some s') :
    CountedAt j s'.jobs (recordClaim j h s (.startupCommit i) s') := by
  have hclaimed : LeaseAction.claimed s (.startupCommit i) ≠ some j := by simp [LeaseAction.claimed]
  obtain ⟨loads, hloads, rfl⟩ := leaseStep_startupCommit hstep
  simp only [requeuesBelowLimit, hloads, Option.all_some] at hguard
  cases hr : s.jobs.find j with
  | none =>
    have hnone := (@find_commitStartup loads j (fun _ => True) s.jobs (fun _ _ _ _ => id)).1 hr
    exact countedAt_same ⟨_, _, _⟩ hc hclaimed (hnone.trans hr.symm)
  | some r =>
    have hkeep : ∀ l ∈ loads, l.loaded.id = j → ∀ q,
        q.attempts = r.attempts ∧ q.maxAttempts = r.maxAttempts ∧
          (q.status = .queued → r.status = .queued ∨ (r.attempts : Int) < attemptLimit r) →
        (l.loaded.flush l.new q).attempts = r.attempts ∧
          (l.loaded.flush l.new q).maxAttempts = r.maxAttempts ∧
          ((l.loaded.flush l.new q).status = .queued →
            r.status = .queued ∨ (r.attempts : Int) < attemptLimit r) := by
      rintro l hl hid q ⟨hattempts, hmax, -⟩
      obtain ⟨hattempts', hmax'⟩ :=
        flush_counts q (hmarks.loads loads (List.mem_of_getElem? hloads) l hl)
      refine ⟨hattempts'.trans hattempts, hmax'.trans hmax, fun _ => .inr ?_⟩
      have hbelow := of_decide_eq_true (List.all_eq_true.mp hguard l hl) hid
      simpa only [hr, Option.all_some, belowLimit, decide_eq_true_eq] using hbelow
    obtain ⟨r', hr', hattempts, hmax, hqueued⟩ :=
      (find_commitStartup s.jobs hkeep).2 r hr ⟨rfl, rfl, .inl⟩
    refine countedAt_change ⟨_, _, _⟩ hc hclaimed hr hr' hattempts hmax ?_
    intro he hq
    exact (hqueued hq).elim ((counted_of_find hc hr).queued he) id

lemma marksKeepAttempts_read {s s' : LeaseState} {w : String} {mark : Option LoadedJob}
    (h : MarksKeepAttempts s) (hmark : ∀ m, mark = some m → m.new.attempts = m.loaded.attempts)
    (hstep : s.read w mark = some s') : MarksKeepAttempts s' ∧ s'.jobs = s.jobs := by
  obtain ⟨hjobs, hstartups, hflight⟩ := read_eq_some hstep
  refine ⟨⟨?_, ?_⟩, hjobs⟩
  · intro p hp
    rcases hflight p hp with ⟨m, hm, rfl⟩ | hold
    · exact hmark m hm
    · exact h.marks p hold
  · rw [hstartups]
    exact h.loads

lemma readOwned_attempts {w : String} {jobId : Nat} {edit : DurableJob → DurableJob}
    {jobs : JobTable} {m : LoadedJob} (hedit : ∀ r, (edit r).attempts = r.attempts)
    (h : readOwned w jobId edit jobs = some m) : m.new.attempts = m.loaded.attempts := by
  obtain ⟨_, _, hnew⟩ := readOwned_some h
  rw [hnew]
  exact hedit m.loaded

lemma attempts_succeedJob (now : Time) (r : DurableJob) :
    (succeedJob now r).attempts = r.attempts := rfl

/-- One step of the queue with interleaved completions. -/
lemma countedAt_step {settings : QueueSettings} {j : Nat} {s s' : LeaseState}
    {h : ClaimHistory} {a : LeaseAction} (hc : CountedAt j s.jobs h)
    (hmarks : MarksKeepAttempts s) (hretry : notRetried j a)
    (hguard : requeuesBelowLimit settings j s a) (hstep : leaseStep settings s a = some s') :
    CountedAt j s'.jobs (recordClaim j h s a s') ∧ MarksKeepAttempts s' := by
  cases a with
  | op a =>
    obtain ⟨⟨hatomic, -⟩, jobs, hq, rfl⟩ := leaseStep_op hstep
    exact ⟨countedAt_op hc hatomic hretry hguard hq, ⟨hmarks.marks, hmarks.loads⟩⟩
  | markSucceededRead w jobId now =>
    obtain ⟨hkeep, hjobs⟩ := marksKeepAttempts_read hmarks
      (fun _ hm => readOwned_attempts (attempts_succeedJob now) hm) hstep
    refine ⟨countedAt_same s' hc ?_ (by rw [hjobs]), hkeep⟩
    simp [LeaseAction.claimed]
  | markFailedRead w jobId err traceback now =>
    obtain ⟨hkeep, hjobs⟩ := marksKeepAttempts_read hmarks
      (fun _ hm => readOwned_attempts (attempts_failJob settings err traceback now) hm) hstep
    refine ⟨countedAt_same s' hc ?_ (by rw [hjobs]), hkeep⟩
    simp [LeaseAction.claimed]
  | markCommit w =>
    refine ⟨countedAt_commit hc hmarks hguard hstep, ?_⟩
    obtain ⟨_, _, _, rfl⟩ := leaseStep_commit hstep
    exact ⟨fun p hp => hmarks.marks p (mem_of_mem_release hp).1, hmarks.loads⟩
  | startupRead socketHostname workerId queues now =>
    cases hstep
    refine ⟨countedAt_same ⟨_, _, _⟩ hc (by simp [LeaseAction.claimed]) rfl, hmarks.marks, ?_⟩
    intro loads hloads l hl
    rcases List.mem_append.mp hloads with hold | hnew
    · exact hmarks.loads loads hold l hl
    · rw [List.mem_singleton.mp hnew] at hl
      obtain ⟨r, -, rfl⟩ := List.mem_map.mp hl
      rfl
  | startupCommit i =>
    refine ⟨countedAt_startup hc hmarks hguard hstep, ?_⟩
    obtain ⟨_, _, rfl⟩ := leaseStep_startupCommit hstep
    exact ⟨hmarks.marks, fun loads hloads => hmarks.loads loads (List.mem_of_mem_eraseIdx hloads)⟩
  | crash w =>
    cases hstep
    constructor
    · refine countedAt_same ⟨_, _, _⟩ hc ?_ rfl
      simp [LeaseAction.claimed]
    · exact ⟨fun p hp => hmarks.marks p (mem_of_mem_release hp).1, hmarks.loads⟩

/-- In every run without a manual retry of `j` whose steps put `j` back into the queue only
below its limit, `j` is claimed at most `max(1, max_attempts)` times before it reaches a
final status. -/
theorem claims_le_attemptLimit (settings : QueueSettings) (j : Nat) {as : List LeaseAction}
    {p : LeaseState × ClaimHistory}
    (h : GuardedRun (claimStep settings j)
      (fun p a => notRetried j a ∧ requeuesBelowLimit settings j p.1 a) claimInitial as p)
    {r : DurableJob} (hr : p.1.jobs.find j = some r) :
    (p.2.claims : Int) ≤ max 1 r.maxAttempts := by
  have hinv : CountedAt j p.1.jobs p.2 ∧ MarksKeepAttempts p.1 := by
    refine GuardedRun.invariant (I := fun p => CountedAt j p.1.jobs p.2 ∧ MarksKeepAttempts p.1)
      h ?_ ?_
    · refine ⟨rfl, ?_, ?_⟩
      · intro q hq
        cases hq
      · intro loads hloads
        cases hloads
    · rintro q a q' ⟨hc, hmarks⟩ ⟨hretry, hguard⟩ hs
      obtain ⟨hstep, hrecord⟩ := track_eq_some.mp hs
      rw [hrecord]
      exact countedAt_step hc hmarks hretry hguard hstep
  exact (counted_of_find hinv.1 hr).bound

/-- A job with three attempts is recovered twice, by the age of its lock and by a starting
worker that reads the row and commits later, and then fails for good. -/
theorem claims_le_attemptLimit_recovered :
    ∃ p : LeaseState × ClaimHistory,
      GuardedRun (claimStep {} 1) (fun p a => notRetried 1 a ∧ requeuesBelowLimit {} 1 p.1 a)
        claimInitial
        [.op (.enqueue ⟨"task", "null", "default", none, 3, none⟩ 0),
          .op (.claim "web:1" ["default"] 1), .crash "web:1",
          .op (.recoverStaleLocks (seconds 700) (seconds 700)),
          .op (.claim "web:2" ["default"] (seconds 701)), .crash "web:2",
          .startupRead "web" "web:3" ["default"] (seconds 702), .startupCommit 0,
          .op (.claim "web:3" ["default"] (seconds 703)),
          .markFailedRead "web:3" 1 ⟨"ValueError", "bad"⟩ "" (seconds 704),
          .markCommit "web:3"] p ∧
      p.2 = ⟨3, true⟩ ∧ (p.2.claims : Int) ≤ max 1 3 :=
  exists_guardedRun rfl (fun hrun => ⟨by decide, claims_le_attemptLimit {} 1 hrun rfl⟩)

/-- A job with one attempt is claimed, its worker dies, the stale lock is recovered, and the
job is claimed again. -/
theorem recoverStaleLocks_exceeds_attemptLimit :
    ¬∀ (settings : QueueSettings) (j : Nat) (as : List LeaseAction)
      (p : LeaseState × ClaimHistory),
      GuardedRun (claimStep settings j) (fun _ a => notRetried j a) claimInitial as p →
      ∀ r, p.1.jobs.find j = some r → (p.2.claims : Int) ≤ max 1 r.maxAttempts := by
  intro h
  have hle := h {} 1 [.op (.enqueue ⟨"task", "null", "default", none, 1, none⟩ 0),
    .op (.claim "host:1" ["default"] 1), .crash "host:1",
    .op (.recoverStaleLocks (seconds 700) (seconds 700)),
    .op (.claim "host:2" ["default"] (seconds 701))] _ (guardedRun_of_execute rfl) _ rfl
  revert hle
  decide

end IpDocket.Ops
