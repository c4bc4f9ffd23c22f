import IpDocket.Ops.DurableQueueInvariant

/-!
# Leases under interleaving

`mark_succeeded` and `mark_failed` read the row, check that it is running and locked by
the calling worker, and write it back with an `UPDATE` by primary key. Here the read and
the commit are two steps, and every other operation may come between them. A worker runs
its own operations one after another; only the thread that refreshes its lock overlaps.
The query and the commit of a recovery at the start of a worker are two steps as well.
-/

namespace IpDocket.Ops
open IpDocket.Lib

/-- The table, the objects that workers have read and not yet committed, and the rows of the
recoveries that have not yet committed. -/
structure LeaseState where
  jobs : JobTable
  inFlight : List (String × LoadedJob)
  startups : List (List LoadedJob)

def LeaseState.initial : LeaseState := ⟨Table.empty DurableJob.id, [], []⟩

inductive LeaseAction
  | op (a : QueueAction)
  | markSucceededRead (workerId : String) (jobId : Nat) (now : Time)
  | markFailedRead (workerId : String) (jobId : Nat) (err : HandlerError) (traceback : String)
      (now : Time)
  | markCommit (workerId : String)
  | startupRead (socketHostname workerId : String) (queues : List String) (now : Time)
  | startupCommit (i : Nat)
  | crash (workerId : String)

/-- The worker whose main thread performs the operation. -/
def QueueAction.worker : QueueAction → Option String
  | .claim workerId _ _ => some workerId
  | .markSucceeded workerId _ _ => some workerId
  | .markFailed workerId _ _ _ _ => some workerId
  | .forceFailed workerId _ _ => some workerId
  | _ => none

/-- The operation is one transaction, or its reads are locked until it commits. -/
def QueueAction.atomic : QueueAction → Bool
  | .recoverStartupLocks _ _ _ _ => false
  | _ => true

/-- The objects that `_recover_startup_locks_for_worker` loads, with their new values. -/
def startupLoads (socketHostname workerId : String) (queues : List String) (now : Time)
    (jobs : JobTable) : List LoadedJob :=
  (jobs.rows.filter
    (startupLocked (workerHostname socketHostname workerId) (queues.filter (· ≠ "")))).map
    (fun r => ⟨r, requeueStartup now r⟩)

/-- One transaction with an `UPDATE` for each object. -/
def commitJobs (loads : List LoadedJob) (jobs : JobTable) : Except DbError JobTable :=
  loads.foldlM (fun jobs l => commitJob l.loaded l.new jobs) jobs

/-- A refused commit is rolled back and reported. -/
def commitStartup (loads : List LoadedJob) (jobs : JobTable) : JobTable :=
  match commitJobs loads jobs with
  | .ok jobs => jobs
  | .error _ => jobs

def LeaseState.busy (s : LeaseState) (workerId : String) : Bool :=
  s.inFlight.any (fun p => p.1 = workerId)

def LeaseState.release (s : LeaseState) (workerId : String) : List (String × LoadedJob) :=
  s.inFlight.filter (fun p => p.1 ≠ workerId)

/-- The read of a completion: an object is kept only if the ownership check passes. -/
def LeaseState.read (s : LeaseState) (workerId : String) (mark : Option LoadedJob) :
    Option LeaseState :=
  if s.busy workerId then none
  else some { s with inFlight := (mark.map (workerId, ·)).toList ++ s.inFlight }

def leaseStep (settings : QueueSettings) (s : LeaseState) : LeaseAction → Option LeaseState
  | .op a =>
    if ¬a.atomic ∨ a.worker.any s.busy then none
    else (queueStep settings s.jobs a).map (fun jobs => { s with jobs := jobs })
  | .markSucceededRead workerId jobId now =>
    s.read workerId (markSucceededRead workerId jobId now s.jobs)
  | .markFailedRead workerId jobId err traceback now =>
    s.read workerId (markFailedRead settings workerId jobId err traceback now s.jobs)
  | .markCommit workerId =>
    match s.inFlight.find? (fun p => p.1 = workerId) with
    | none => none
    | some p => some { s with jobs := commitMark p.2 s.jobs, inFlight := s.release workerId }
  | .startupRead socketHostname workerId queues now =>
    some { s with startups := s.startups ++ [startupLoads socketHostname workerId queues now s.jobs] }
  | .startupCommit i =>
    match s.startups[i]? with
    | none => none
    | some loads =>
      some { s with jobs := commitStartup loads s.jobs, startups := s.startups.eraseIdx i }
  | .crash workerId => some { s with inFlight := s.release workerId }

section Inversion

variable {settings : QueueSettings} {s s' : LeaseState} {w : String}

lemma leaseStep_op {a : QueueAction} (h : leaseStep settings s (.op a) = some s') :
    (a.atomic = true ∧ a.worker.any s.busy = false) ∧
      ∃ jobs, queueStep settings s.jobs a = some jobs ∧ s' = { s with jobs := jobs } := by
  simp only [leaseStep] at h
  split at h
  · cases h
  · next hfree =>
    obtain ⟨jobs, hq, hs'⟩ := Option.map_eq_some_iff.mp h
    exact ⟨by simpa using hfree, jobs, hq, hs'.symm⟩

lemma leaseStep_commit (h : leaseStep settings s (.markCommit w) = some s') :
    ∃ p ∈ s.inFlight, p.1 = w ∧
      s' = { s with jobs := commitMark p.2 s.jobs, inFlight := s.release w } := by
  simp only [leaseStep] at h
  split at h
  · cases h
  · next p hp =>
    cases h
    exact ⟨p, List.mem_of_find?_eq_some hp, by simpa using List.find?_some hp, rfl⟩

lemma leaseStep_startupCommit {i : Nat} (h : leaseStep settings s (.startupCommit i) = some s') :
    ∃ loads, s.startups[i]? = some loads ∧
      s' = { s with jobs := commitStartup loads s.jobs, startups := s.startups.eraseIdx i } := by
  simp only [leaseStep] at h
  split at h
  · cases h
  · next loads hloads =>
    cases h
    exact ⟨loads, hloads, rfl⟩

lemma mem_of_mem_release {p : String × LoadedJob} (h : p ∈ s.release w) :
    p ∈ s.inFlight ∧ p.1 ≠ w := by
  obtain ⟨hmem, hne⟩ := List.mem_filter.mp h
  exact ⟨hmem, by simpa using hne⟩

/-- A read leaves the table alone and adds at most the object it made. -/
lemma read_eq_some {mark : Option LoadedJob} (h : s.read w mark = some s') :
    s'.jobs = s.jobs ∧ s'.startups = s.startups ∧
      ∀ p ∈ s'.inFlight, (∃ m, mark = some m ∧ p = (w, m)) ∨ p ∈ s.inFlight := by
  unfold LeaseState.read at h
  split at h
  · cases h
  · cases h
    refine ⟨rfl, rfl, ?_⟩
    intro p hp
    rcases List.mem_append.mp hp with hnew | hold
    · cases mark with
      | none => simp at hnew
      | some m =>
        simp only [Option.map_some, Option.toList_some, List.mem_singleton] at hnew
        exact .inl ⟨m, rfl, hnew⟩
    · exact .inr hold

end Inversion

section Startup

variable {loads : List LoadedJob} {jobs jobs' : JobTable} {k : Nat} {P : DurableJob → Prop}

lemma commitJobs_cons {l : LoadedJob} (h : commitJobs (l :: loads) jobs = .ok jobs') :
    ∃ mid, commitJob l.loaded l.new jobs = .ok mid ∧ commitJobs loads mid = .ok jobs' := by
  unfold commitJobs at h
  rw [List.foldlM_cons] at h
  exact except_bind_eq_ok.mp h

/-- What each `UPDATE` keeps of a row, the transaction keeps. -/
lemma find_commitStartup (jobs : JobTable)
    (hP : ∀ l ∈ loads, l.loaded.id = k → ∀ q, P q → P (l.loaded.flush l.new q)) :
    (jobs.find k = none → (commitStartup loads jobs).find k = none) ∧
      ∀ r, jobs.find k = some r → P r → ∃ r', (commitStartup loads jobs).find k = some r' ∧ P r' := by
  unfold commitStartup
  cases hc : commitJobs loads jobs with
  | error e => exact ⟨id, fun r hr hp => ⟨r, hr, hp⟩⟩
  | ok jobs' =>
    dsimp only
    induction loads generalizing jobs with
    | nil =>
      cases hc
      exact ⟨id, fun r hr hp => ⟨r, hr, hp⟩⟩
    | cons l loads ih =>
      obtain ⟨mid, hfirst, hrest⟩ := commitJobs_cons hc
      obtain ⟨hnone, hsome⟩ := ih mid (fun l hl => hP l (List.mem_cons_of_mem _ hl)) hrest
      have hfind := find_commitJob hfirst k
      constructor
      · intro hk
        apply hnone
        rw [hfind, hk, Option.map_none, ite_self]
      · intro r hr hp
        rw [hr, Option.map_some] at hfind
        split at hfind
        · next hk => exact hsome _ hfind (hP l List.mem_cons_self hk.symm r hp)
        · exact hsome r hfind hp

lemma find_commitStartup_ne (jobs : JobTable) (hk : ∀ l ∈ loads, l.loaded.id ≠ k) :
    (commitStartup loads jobs).find k = jobs.find k := by
  have hrow := fun r => @find_commitStartup loads k (· = r) jobs (fun l hl hid => absurd hid (hk l hl))
  cases hr : jobs.find k with
  | none => exact (@find_commitStartup loads k (fun _ => True) jobs (fun _ _ _ _ => id)).1 hr
  | some r =>
    obtain ⟨r', hr', rfl⟩ := (hrow r).2 r hr rfl
    exact hr'

end Startup

/-- The operation takes the running job `k` away from its owner. -/
def takesAway (settings : QueueSettings) (jobs : JobTable) (k : Nat) : QueueAction → Bool
  | .retry jobId _ => jobId = k
  | .cancel jobId _ => jobId = k
  | .recoverStaleLocks now _ =>
    (jobs.find k).any (staleLocked (now - seconds settings.lockTtlSeconds))
  | _ => false

/-- No retry, cancellation or recovery takes a job away between the read and the commit of
its owner's completion. -/
def leaseUndisturbed (settings : QueueSettings) (s : LeaseState) : LeaseAction → Bool
  | .op a => s.inFlight.all (fun p => !takesAway settings s.jobs p.2.loaded.id a)
  | .startupCommit i =>
    (s.startups[i]?).all (fun loads => loads.all (fun l =>
      s.inFlight.all (fun p => p.2.loaded.id ≠ l.loaded.id)))
  | _ => true

/-- Every object in flight still has its row, running and locked by the worker. -/
def LeaseHeld (s : LeaseState) : Prop :=
  ∀ p ∈ s.inFlight, ∃ r, s.jobs.find p.2.loaded.id = some r ∧ ownsJob p.1 r

lemma ownsJob_unique {v w : String} {r : DurableJob} (hv : ownsJob v r) (hw : ownsJob w r) :
    v = w := by
  have hv' := (ownsJob_iff.mp hv).2
  have hw' := (ownsJob_iff.mp hw).2
  rw [hv'] at hw'
  exact Option.some.inj hw'

/-- A row in flight stays with its owner through an admitted operation of anybody else. -/
lemma ownsJob_rowStep {settings : QueueSettings} {a : QueueAction} {jobs : JobTable}
    {w : String} {r r' : DurableJob} (hr : jobs.find r.id = some r) (howns : ownsJob w r)
    (hstep : RowStep settings a r r') (hatomic : a.atomic) (hworker : a.worker ≠ some w)
    (hquiet : takesAway settings jobs r.id a = false) : ownsJob w r' := by
  cases hstep with
  | keep => exact howns
  | stale hstale => simp [takesAway, hr, hstale] at hquiet
  | startup _ => cases hatomic
  | claim hqueued =>
    have hrun := (ownsJob_iff.mp howns).1
    rw [hqueued] at hrun
    cases hrun
  | succeed hv => exact absurd (congrArg some (ownsJob_unique hv howns)) hworker
  | fail hv => exact absurd (congrArg some (ownsJob_unique hv howns)) hworker
  | force hv => exact absurd (congrArg some (ownsJob_unique hv howns)) hworker
  | refresh _ => exact ownsJob_iff.mpr (ownsJob_iff.mp howns)
  | retry => simp [takesAway] at hquiet
  | cancel => simp [takesAway] at hquiet

lemma leaseHeld_op {settings : QueueSettings} {s s' : LeaseState} {a : QueueAction}
    (h : LeaseHeld s) (hguard : leaseUndisturbed settings s (.op a))
    (hstep : leaseStep settings s (.op a) = some s') : LeaseHeld s' := by
  obtain ⟨⟨hatomic, hbusy⟩, jobs, hq, rfl⟩ := leaseStep_op hstep
  intro p hp
  obtain ⟨r, hr, howns⟩ := h p hp
  have hid := Table.key_of_find hr
  have hquiet : takesAway settings s.jobs r.id a = false := by
    have hall := List.all_eq_true.mp hguard p hp
    rw [hid]
    simpa using hall
  have hworker : a.worker ≠ some p.1 := by
    intro hw
    have hbusy' : s.busy p.1 = true := List.any_eq_true.mpr ⟨p, hp, by simp⟩
    simp [hw, hbusy'] at hbusy
  cases queueStep_find hq p.2.loaded.id with
  | absent hnone _ =>
    rw [hr] at hnone
    cases hnone
  | @changed q r' hq' hr' hrow =>
    rw [hr] at hq'
    cases hq'
    rw [← hid] at hr
    exact ⟨r', hr', ownsJob_rowStep hr howns hrow hatomic hworker hquiet⟩
  | inserted _ _ hnone _ =>
    rw [hr] at hnone
    cases hnone

lemma leaseHeld_read {s s' : LeaseState} {w : String} {mark : Option LoadedJob}
    (h : LeaseHeld s)
    (hmark : ∀ m, mark = some m → s.jobs.find m.loaded.id = some m.loaded ∧ ownsJob w m.loaded)
    (hstep : s.read w mark = some s') : LeaseHeld s' := by
  obtain ⟨hjobs, -, hflight⟩ := read_eq_some hstep
  intro p hp
  rw [hjobs]
  rcases hflight p hp with ⟨m, hm, rfl⟩ | hold
  · obtain ⟨hfind, howns⟩ := hmark m hm
    exact ⟨m.loaded, hfind, howns⟩
  · exact h p hold

lemma readOwned_held {w : String} {jobId : Nat} {edit : DurableJob → DurableJob}
    {jobs : JobTable} {m : LoadedJob} (h : readOwned w jobId edit jobs = some m) :
    jobs.find m.loaded.id = some m.loaded ∧ ownsJob w m.loaded := by
  obtain ⟨hfind, howns, _⟩ := readOwned_some h
  exact ⟨by rw [Table.key_of_find hfind, hfind], howns⟩

/-- A commit writes the row of its own object only. -/
lemma find_commitMark_ne {mark : LoadedJob} {jobs : JobTable} {k : Nat}
    (hk : k ≠ mark.loaded.id) : (commitMark mark jobs).find k = jobs.find k := by
  unfold commitMark commitJob
  cases hstored : jobs.find mark.loaded.id with
  | none => rfl
  | some stored =>
    dsimp only
    split
    · next jobs' hok =>
      split at hok
      · cases hok
      · cases hok
        rw [find_updateJobs_id, if_neg hk]
    · rfl

lemma leaseHeld_commit {settings : QueueSettings} {s s' : LeaseState} {w : String}
    (h : LeaseHeld s) (hstep : leaseStep settings s (.markCommit w) = some s') :
    LeaseHeld s' := by
  obtain ⟨p, hp, hw, rfl⟩ := leaseStep_commit hstep
  obtain ⟨r, hr, howns⟩ := h p hp
  intro q hq
  obtain ⟨hmem, hne⟩ := mem_of_mem_release hq
  obtain ⟨r', hr', howns'⟩ := h q hmem
  have hid : q.2.loaded.id ≠ p.2.loaded.id := by
    intro heq
    rw [heq, hr] at hr'
    cases hr'
    exact hne ((ownsJob_unique howns' howns).trans hw)
  exact ⟨r', by rw [find_commitMark_ne hid, hr'], howns'⟩

lemma leaseHeld_startup {settings : QueueSettings} {s s' : LeaseState} {i : Nat}
    (h : LeaseHeld s) (hguard : leaseUndisturbed settings s (.startupCommit i))
    (hstep : leaseStep settings s (.startupCommit i) = some s') : LeaseHeld s' := by
  obtain ⟨loads, hloads, rfl⟩ := leaseStep_startupCommit hstep
  simp only [leaseUndisturbed, hloads, Option.all_some] at hguard
  intro p hp
  obtain ⟨r, hr, howns⟩ := h p hp
  refine ⟨r, ?_, howns⟩
  rw [← hr]
  apply find_commitStartup_ne
  intro l hl hid
  have hall := List.all_eq_true.mp (List.all_eq_true.mp hguard l hl) p hp
  exact (of_decide_eq_true hall) hid.symm

lemma leaseHeld_step {settings : QueueSettings} {s s' : LeaseState} {a : LeaseAction}
    (h : LeaseHeld s) (hguard : leaseUndisturbed settings s a)
    (hstep : leaseStep settings s a = some s') : LeaseHeld s' := by
  cases a with
  | op a => exact leaseHeld_op h hguard hstep
  | markSucceededRead w jobId now =>
    exact leaseHeld_read h (fun _ hm => readOwned_held hm) hstep
  | markFailedRead w jobId err traceback now =>
    exact leaseHeld_read h (fun _ hm => readOwned_held hm) hstep
  | markCommit w => exact leaseHeld_commit h hstep
  | startupRead socketHostname workerId queues now =>
    cases hstep
    exact h
  | startupCommit i => exact leaseHeld_startup h hguard hstep
  | crash w =>
    cases hstep
    intro p hp
    exact h p (mem_of_mem_release hp).1

/-- In every interleaving that does not take a job away between the read and the commit of
a completion, the commit of worker `w` changes a row only if that row is, at this moment,
running and locked by `w`. -/
theorem markCommit_changes_owned_row (settings : QueueSettings) {as : List LeaseAction}
    {s s' : LeaseState} {w : String}
    (h : GuardedRun (leaseStep settings) (fun s a => leaseUndisturbed settings s a)
      LeaseState.initial as s)
    (hcommit : leaseStep settings s (.markCommit w) = some s') (k : Nat)
    (hchange : s'.jobs.find k ≠ s.jobs.find k) :
    ∃ r, s.jobs.find k = some r ∧ r.status = .running ∧ r.lockedBy = some w := by
  have hheld : LeaseHeld s := by
    refine h.invariant ?_ (fun _ _ _ hi hg hs => leaseHeld_step hi hg hs)
    intro p hp
    cases hp
  obtain ⟨p, hp, hw, rfl⟩ := leaseStep_commit hcommit
  obtain ⟨r, hr, howns⟩ := hheld p hp
  by_cases hk : k = p.2.loaded.id
  · subst hk
    rw [hw] at howns
    exact ⟨r, hr, ownsJob_iff.mp howns⟩
  · exact absurd (find_commitMark_ne hk) hchange

/-- Two workers complete different jobs in overlapping calls. -/
theorem markCommit_changes_owned_row_two_workers :
    ∃ s : LeaseState,
      GuardedRun (leaseStep {}) (fun s a => leaseUndisturbed {} s a) LeaseState.initial
        [.op (.enqueue ⟨"a", "null", "default", none, 5, none⟩ 0),
          .op (.enqueue ⟨"b", "null", "default", none, 5, none⟩ 0),
          .op (.claim "host:1" ["default"] 1), .op (.claim "host:2" ["default"] 1),
          .markSucceededRead "host:1" 1 2, .op (.cancel 2 2)] s ∧
      ∃ r, s.jobs.find 1 = some r ∧ r.status = .running ∧ r.lockedBy = some "host:1" :=
  exists_guardedRun rfl (fun hrun => markCommit_changes_owned_row {} hrun rfl 1 (by decide))

/-- A job is cancelled between the read and the commit of its completion, and the commit
turns the cancelled row into a succeeded one. -/
theorem markCommit_overwrites_cancelled :
    ¬∀ (settings : QueueSettings) (as : List LeaseAction) (s s' : LeaseState) (w : String),
      Run (leaseStep settings) LeaseState.initial as s →
      leaseStep settings s (.markCommit w) = some s' →
      ∀ k, s'.jobs.find k ≠ s.jobs.find k →
        ∃ r, s.jobs.find k = some r ∧ r.status = .running ∧ r.lockedBy = some w := by
  intro h
  obtain ⟨r, hr, hrun, _⟩ := h {} [.op (.enqueue ⟨"task", "null", "default", none, 5, none⟩ 0),
    .op (.claim "host:1" ["default"] 1), .markSucceededRead "host:1" 1 2, .op (.cancel 1 3)] _ _
    "host:1" (guardedRun_of_execute rfl) rfl 1 (by decide)
  cases hr
  cases hrun

end IpDocket.Ops
