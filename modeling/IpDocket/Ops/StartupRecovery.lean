import IpDocket.Ops.DurableQueueAttempts

/-!
# Recovery at the start of a worker

A worker process that starts looks for running jobs whose `locked_by` is `LIKE 'host:%'`
and puts them back into the queue, before it claims its first job. Processes start and stop
on any hosts here, the query and the commit of the recovery are two steps, and all other
operations of the queue run between them. Which process holds a job is recorded beside the
table, since its row has only the text `host:pid`.
-/

namespace IpDocket.Ops
open IpDocket.Lib

/-- A row of the startup query with its new values; `holder` is a history variable. -/
structure StartupLoad where
  job : LoadedJob
  holder : Option Nat
  deriving DecidableEq

/-- `worker_loop` recovers once and then claims jobs; a process may stop at any time. -/
inductive WorkerPhase
  | starting
  | recovering (loads : List StartupLoad)
  | working
  | stopped
  deriving DecidableEq

structure WorkerProcess where
  host : String
  pid : Nat
  queues : List String
  phase : WorkerPhase
  deriving DecidableEq

def WorkerProcess.workerId (p : WorkerProcess) : String := p.host ++ ":" ++ toString p.pid

def WorkerProcess.live (p : WorkerProcess) : Bool := p.phase ≠ .stopped

def WorkerProcess.queueNames (p : WorkerProcess) : List String := p.queues.filter (· ≠ "")

/-- The rows that `_recover_startup_locks_for_worker` loads. -/
def WorkerProcess.startupRows (p : WorkerProcess) (jobs : JobTable) : List DurableJob :=
  jobs.rows.filter (startupLocked (workerHostname p.host p.workerId) p.queueNames)

/-- One transaction with an `UPDATE` for each loaded row. -/
def commitLoads (loads : List StartupLoad) (jobs : JobTable) : Except DbError JobTable :=
  loads.foldlM (fun jobs l => commitJob l.job.loaded l.job.new jobs) jobs

/-- A running job that a startup recovery has changed: its row before, the process that
held it and whether that process had stopped, and the process that recovered it. -/
structure Requeue where
  job : DurableJob
  holder : Option Nat
  stopped : Bool
  starter : Nat
  deriving DecidableEq

/-- `holders` and `requeued` are history variables. -/
structure FleetState where
  lease : LeaseState
  processes : List WorkerProcess
  holders : Nat → Option Nat
  requeued : List Requeue

def FleetState.initial : FleetState := ⟨LeaseState.initial, [], fun _ => none, []⟩

/-- The worker that performs the action. -/
def LeaseAction.actor : LeaseAction → Option String
  | .op (.refreshJobLock workerId _ _) => some workerId
  | .op a => a.worker
  | .markSucceededRead workerId _ _ => some workerId
  | .markFailedRead workerId _ _ _ _ => some workerId
  | .markCommit workerId => some workerId
  | .startupRead _ workerId _ _ => some workerId
  | .startupCommit _ => none
  | .crash workerId => some workerId

/-- The working process with a worker id. -/
def FleetState.working (s : FleetState) (workerId : String) : Option Nat :=
  s.processes.findIdx? (fun p => p.phase = .working ∧ p.workerId = workerId)

def FleetState.holderStopped (s : FleetState) (jobId : Nat) : Bool :=
  (s.holders jobId).any (fun h => (s.processes[h]?).any (fun q => !q.live))

/-- The running rows that a commit changes. -/
def FleetState.touched (s : FleetState) (starter : Nat) (jobs : JobTable) : List Requeue :=
  (s.lease.jobs.rows.filter (fun r => r.status = .running ∧ jobs.find r.id ≠ some r)).map
    (fun r => ⟨r, s.holders r.id, s.holderStopped r.id, starter⟩)

def FleetState.setPhase (s : FleetState) (i : Nat) (p : WorkerProcess) (phase : WorkerPhase) :
    FleetState :=
  { s with processes := s.processes.set i { p with phase := phase } }

inductive FleetAction
  | start (host : String) (pid : Nat) (queues : List String)
  | stop (i : Nat)
  | recoverRead (i : Nat) (now : Time)
  | recoverCommit (i : Nat)
  | op (a : LeaseAction)

/-- The actions of the queue that are not steps of `start` or `stop`. -/
def LeaseAction.ordinary : LeaseAction → Bool
  | .startupRead _ _ _ _ => false
  | .startupCommit _ => false
  | .crash _ => false
  | _ => true

/-- A host runs one process with a pid at a time. A refused commit of the recovery is
reported and the worker goes on. -/
def fleetStep (settings : QueueSettings) (s : FleetState) : FleetAction → Option FleetState
  | .start host pid queues =>
    if s.processes.any (fun p => p.live ∧ p.host = host ∧ p.pid = pid) then none
    else some { s with processes := s.processes ++ [⟨host, pid, queues, .starting⟩] }
  | .stop i =>
    match s.processes[i]? with
    | none => none
    | some p =>
      if p.live then
        some { s.setPhase i p .stopped with
          lease := { s.lease with inFlight := s.lease.release p.workerId } }
      else none
  | .recoverRead i now =>
    match s.processes[i]? with
    | none => none
    | some p =>
      if p.phase = .starting then
        some (s.setPhase i p (.recovering ((p.startupRows s.lease.jobs).map
          (fun r => ⟨⟨r, requeueStartup now r⟩, s.holders r.id⟩))))
      else none
  | .recoverCommit i =>
    match s.processes[i]? with
    | none => none
    | some p =>
      match p.phase with
      | .recovering loads =>
        match commitLoads loads s.lease.jobs with
        | .error _ => some (s.setPhase i p .working)
        | .ok jobs =>
          some { s.setPhase i p .working with
            lease := { s.lease with jobs := jobs }
            requeued := s.requeued ++ s.touched i jobs }
      | _ => none
  | .op a =>
    if a.ordinary ∧ a.actor.all (fun w => (s.working w).isSome) then
      (leaseStep settings s.lease a).map (fun lease =>
        { s with
          lease := lease
          holders := fun k =>
            if a.claimed s.lease = some k then a.actor.bind s.working else s.holders k })
    else none

/-- When a worker starts, every process that holds a running job of its queues and has a
worker id that matches `host:%` has stopped and was one of the same host; and no job that
the recovery has loaded is held by another process when it commits. -/
def startsAfterDeath (s : FleetState) : FleetAction → Bool
  | .recoverRead i _ =>
    (s.processes[i]?).all (fun p => s.lease.jobs.rows.all (fun r =>
      r.status = .running ∧ r.queue ∈ p.queueNames →
        (s.holders r.id).all (fun h => (s.processes[h]?).all (fun q =>
          sqlLike (p.host.toList ++ [':', '%']) q.workerId.toList →
            q.host = p.host ∧ q.phase = .stopped))))
  | .recoverCommit i =>
    (s.processes[i]?).all (fun p =>
      match p.phase with
      | .recovering loads => loads.all (fun l => (s.lease.jobs.find l.job.loaded.id).all (fun r =>
          r.status = .running → s.holders r.id = l.holder))
      | _ => true)
  | _ => true

/-- The job was locked by a process of the starting worker's host, and that process had
stopped when the job was put back. -/
def Requeue.OfDead (processes : List WorkerProcess) (e : Requeue) : Prop :=
  ∃ h q starter, e.holder = some h ∧ processes[h]? = some q ∧
    processes[e.starter]? = some starter ∧ e.job.lockedBy = some q.workerId ∧
    q.host = starter.host ∧ e.stopped = true

lemma colon_notMem_digits (n : Nat) : ':' ∉ Nat.toDigits 10 n := by
  intro h
  have hdigit := Nat.isDigit_of_mem_toDigits (by decide) (by decide) h
  revert hdigit
  decide

lemma rsplitColon_append {t d : Text} (h : ':' ∉ d) : rsplitColon (t ++ ':' :: d) = t := by
  have hskip : (d.reverse ++ ':' :: t.reverse).dropWhile (· != ':') = ':' :: t.reverse := by
    rw [List.dropWhile_append_of_pos]
    · rfl
    · intro c hc
      have hne : c ≠ ':' := by
        rintro rfl
        exact h (List.mem_reverse.mp hc)
      simpa using hne
  unfold rsplitColon
  rw [if_pos (by simp)]
  simp only [List.reverse_append, List.reverse_cons, List.append_assoc, List.singleton_append]
  rw [hskip, List.drop_one, List.tail_cons, List.reverse_reverse]

lemma workerHostname_workerId (p : WorkerProcess) :
    workerHostname p.host p.workerId = p.host.toList := by
  have htext : p.workerId.toList = p.host.toList ++ ':' :: Nat.toDigits 10 p.pid := by
    simp [WorkerProcess.workerId, String.toList_append]
  unfold workerHostname
  rw [htext, if_pos (by simp)]
  exact rsplitColon_append (colon_notMem_digits p.pid)

/-- Processes keep their names and stay stopped. -/
def Outlives (processes processes' : List WorkerProcess) : Prop :=
  ∀ (i : Nat) (q : WorkerProcess), processes[i]? = some q →
    ∃ q' : WorkerProcess, processes'[i]? = some q' ∧ q'.host = q.host ∧
      q'.workerId = q.workerId ∧ (q.phase = .stopped → q'.phase = .stopped)

lemma outlives_concat (processes : List WorkerProcess) (p : WorkerProcess) :
    Outlives processes (processes ++ [p]) := by
  intro i q hq
  refine ⟨q, ?_, rfl, rfl, id⟩
  rw [List.getElem?_append_left (List.getElem?_eq_some_iff.mp hq).1, hq]

lemma outlives_set {processes : List WorkerProcess} {i : Nat} {p : WorkerProcess}
    (hp : processes[i]? = some p) (hlive : p.phase ≠ .stopped) (phase : WorkerPhase) :
    Outlives processes (processes.set i { p with phase := phase }) := by
  intro j q hq
  by_cases hj : i = j
  · subst hj
    rw [hp] at hq
    cases hq
    refine ⟨_, List.getElem?_set_self (List.getElem?_eq_some_iff.mp hp).1, rfl, rfl, ?_⟩
    intro hstopped
    exact absurd hstopped hlive
  · exact ⟨q, by rw [List.getElem?_set_ne hj, hq], rfl, rfl, id⟩

/-- The row is locked by the process that holds the job. -/
def HeldRow (processes : List WorkerProcess) (holders : Nat → Option Nat) (r : DurableJob) : Prop :=
  ∃ h q, holders r.id = some h ∧ processes[h]? = some q ∧ r.lockedBy = some q.workerId

/-- A loaded row was held by a stopped process of the same host. -/
structure LoadOk (processes : List WorkerProcess) (host : String) (l : StartupLoad) : Prop where
  loaded : l.job.loaded.status = .running
  new : l.job.new.status = .queued
  dead : ∃ h q, l.holder = some h ∧ processes[h]? = some q ∧ q.host = host ∧ q.phase = .stopped

structure FleetOk (s : FleetState) : Prop where
  held : ∀ r ∈ s.lease.jobs.rows, r.status = .running → HeldRow s.processes s.holders r
  marks : ∀ m ∈ s.lease.inFlight, m.2.loaded.status = .running ∧ m.2.new.status ≠ .running
  loads : ∀ (i : Nat) (p : WorkerProcess) loads, s.processes[i]? = some p →
    p.phase = .recovering loads → ∀ l ∈ loads, LoadOk s.processes p.host l
  dead : ∀ e ∈ s.requeued, e.OfDead s.processes

section Outliving

variable {processes processes' : List WorkerProcess} (ho : Outlives processes processes')
include ho

lemma HeldRow.outlive {holders : Nat → Option Nat} {r : DurableJob}
    (h : HeldRow processes holders r) : HeldRow processes' holders r := by
  obtain ⟨k, q, hk, hq, hby⟩ := h
  obtain ⟨q', hq', _, hid, _⟩ := ho k q hq
  exact ⟨k, q', hk, hq', by rw [hid, hby]⟩

lemma LoadOk.outlive {host : String} {l : StartupLoad} (h : LoadOk processes host l) :
    LoadOk processes' host l := by
  obtain ⟨k, q, hk, hq, hhost, hstopped⟩ := h.dead
  obtain ⟨q', hq', hhost', _, hstill⟩ := ho k q hq
  exact ⟨h.loaded, h.new, k, q', hk, hq', hhost'.trans hhost, hstill hstopped⟩

lemma Requeue.OfDead.outlive {e : Requeue} (h : e.OfDead processes) : e.OfDead processes' := by
  obtain ⟨k, q, p, hk, hq, hp, hby, hhost, hstopped⟩ := h
  obtain ⟨q', hq', hqhost, hid, _⟩ := ho k q hq
  obtain ⟨p', hp', hphost, _, _⟩ := ho e.starter p hp
  exact ⟨k, q', p', hk, hq', hp', by rw [hid, hby], by rw [hqhost, hphost, hhost], hstopped⟩

end Outliving

section Rows

variable {settings : QueueSettings} {s s' : LeaseState} {r' : DurableJob}

/-- A row that runs after a step was running under the same lock, and was not claimed; or
the step claimed it. -/
def RunsOn (s : LeaseState) (a : LeaseAction) (r' : DurableJob) : Prop :=
  (∃ r ∈ s.jobs.rows, r.id = r'.id ∧ r.status = .running ∧ r.lockedBy = r'.lockedBy ∧
    a.claimed s ≠ some r'.id) ∨
  ∃ w, a.actor = some w ∧ a.claimed s = some r'.id ∧ r'.lockedBy = some w

lemma runsOn_keep {a : LeaseAction} (hr' : r' ∈ s.jobs.rows) (hrun : r'.status = .running) :
    RunsOn s a r' := by
  refine .inl ⟨r', hr', rfl, hrun, rfl, ?_⟩
  intro hclaimed
  unfold LeaseAction.claimed at hclaimed
  split at hclaimed
  · obtain ⟨job, hselect, hid⟩ := Option.map_eq_some_iff.mp hclaimed
    obtain ⟨hfind, hqueued, _⟩ := selectJob_spec hselect
    have hsame := Table.find_of_mem hr'
    rw [hid, hsame] at hfind
    cases hfind
    rw [hrun] at hqueued
    cases hqueued
  · cases hclaimed

lemma runsOn_claim {w : String} {queues : List String} {now : Time}
    (hr' : r' ∈ (claimSelect w queues now s.jobs).1.rows) (hrun : r'.status = .running) :
    RunsOn s (.op (.claim w queues now)) r' := by
  have hfind := Table.find_of_mem hr'
  rw [find_claimSelect] at hfind
  cases hselect : selectJob queues now s.jobs with
  | none =>
    rw [hselect] at hfind
    exact runsOn_keep (Table.mem_of_find hfind) hrun
  | some job =>
    rw [hselect] at hfind
    dsimp only at hfind
    split at hfind
    · next hid =>
      refine .inr ⟨w, rfl, ?_, ?_⟩
      · simp [LeaseAction.claimed, hselect, hid]
      · rw [← Option.some.inj hfind]
        rfl
    · exact runsOn_keep (Table.mem_of_find hfind) hrun

lemma runsOn_op {a : QueueAction} {jobs : JobTable} (hatomic : a.atomic)
    (hstep : queueStep settings s.jobs a = some jobs) (hr' : r' ∈ jobs.rows)
    (hrun : r'.status = .running) : RunsOn s (.op a) r' := by
  by_cases hclaim : ∃ w queues now, a = .claim w queues now
  · obtain ⟨w, queues, now, rfl⟩ := hclaim
    cases hstep
    exact runsOn_claim hr' hrun
  · have hfind := Table.find_of_mem hr'
    cases queueStep_find hstep r'.id with
    | absent _ hnone =>
      rw [hfind] at hnone
      cases hnone
    | @changed r q hr hq hrow =>
      rw [hfind] at hq
      cases hq
      cases hrow with
      | keep => exact runsOn_keep (Table.mem_of_find hr) hrun
      | stale _ => cases hrun
      | startup _ => cases hatomic
      | claim _ => exact absurd ⟨_, _, _, rfl⟩ hclaim
      | succeed _ => cases hrun
      | fail _ =>
        unfold failJob at hrun
        dsimp only at hrun
        split at hrun <;> cases hrun
      | force _ => cases hrun
      | refresh _ =>
        refine .inl ⟨r, Table.mem_of_find hr, rfl, hrun, rfl, ?_⟩
        intro hclaimed
        cases hclaimed
      | retry => cases hrun
      | cancel => cases hrun
    | inserted _ _ _ hnew =>
      rw [hfind] at hnew
      rw [Option.some.inj hnew] at hrun
      cases hrun

/-- An object whose status was changed from `running` leaves no running row behind. -/
lemma find_commitJob_running {loaded new : DurableJob} {jobs jobs' : JobTable}
    (hloaded : loaded.status = .running) (hnew : new.status ≠ .running)
    (h : commitJob loaded new jobs = .ok jobs') {k : Nat} {r : DurableJob}
    (hr : jobs'.find k = some r) (hrun : r.status = .running) : jobs.find k = some r := by
  rw [find_commitJob h] at hr
  split at hr
  · exfalso
    obtain ⟨stored, _, rfl⟩ := Option.map_eq_some_iff.mp hr
    have hstatus : (loaded.flush new stored).status = new.status := by
      simp [DurableJob.flush, flushColumn, hloaded, hnew]
    rw [hstatus] at hrun
    exact hnew hrun
  · exact hr

lemma runsOn_lease {a : LeaseAction}
    (hmarks : ∀ m ∈ s.inFlight, m.2.loaded.status = .running ∧ m.2.new.status ≠ .running)
    (hord : a.ordinary) (hstep : leaseStep settings s a = some s') (hr' : r' ∈ s'.jobs.rows)
    (hrun : r'.status = .running) : RunsOn s a r' := by
  cases a with
  | op a =>
    obtain ⟨⟨hatomic, -⟩, jobs, hq, rfl⟩ := leaseStep_op hstep
    exact runsOn_op hatomic hq hr' hrun
  | markSucceededRead w jobId now =>
    rw [(read_eq_some hstep).1] at hr'
    exact runsOn_keep hr' hrun
  | markFailedRead w jobId err traceback now =>
    rw [(read_eq_some hstep).1] at hr'
    exact runsOn_keep hr' hrun
  | markCommit w =>
    obtain ⟨m, hm, _, rfl⟩ := leaseStep_commit hstep
    obtain ⟨hloaded, hnew⟩ := hmarks m hm
    have hfind := Table.find_of_mem hr'
    simp only [commitMark] at hfind
    split at hfind
    · next hc =>
      have hbefore := find_commitJob_running hloaded hnew hc hfind hrun
      exact runsOn_keep (Table.mem_of_find hbefore) hrun
    · exact runsOn_keep (Table.mem_of_find hfind) hrun
  | startupRead socketHostname workerId queues now => cases hord
  | startupCommit i => cases hord
  | crash w => cases hord

lemma marks_lease {a : LeaseAction}
    (hmarks : ∀ m ∈ s.inFlight, m.2.loaded.status = .running ∧ m.2.new.status ≠ .running)
    (hstep : leaseStep settings s a = some s') :
    ∀ m ∈ s'.inFlight, m.2.loaded.status = .running ∧ m.2.new.status ≠ .running := by
  -- the object that a completion reads is running, and its edit ends or requeues it
  have hread : ∀ {w jobId} {edit : DurableJob → DurableJob}, (∀ r, (edit r).status ≠ .running) →
      s.read w (readOwned w jobId edit s.jobs) = some s' →
      ∀ m ∈ s'.inFlight, m.2.loaded.status = .running ∧ m.2.new.status ≠ .running := by
    intro w jobId edit hedit hread m hm
    rcases (read_eq_some hread).2.2 m hm with ⟨mark, hmark, rfl⟩ | hold
    · obtain ⟨_, howns, hnew⟩ := readOwned_some hmark
      refine ⟨(ownsJob_iff.mp howns).1, ?_⟩
      dsimp only
      rw [hnew]
      exact hedit _
    · exact hmarks m hold
  cases a with
  | op a =>
    obtain ⟨_, jobs, _, rfl⟩ := leaseStep_op hstep
    exact hmarks
  | markSucceededRead w jobId now => exact hread (fun r => by simp [succeedJob]) hstep
  | markFailedRead w jobId err traceback now =>
    refine hread ?_ hstep
    intro r
    unfold failJob
    dsimp only
    split <;> simp
  | markCommit w =>
    obtain ⟨_, _, _, rfl⟩ := leaseStep_commit hstep
    intro m hm
    exact hmarks m (mem_of_mem_release hm).1
  | startupRead socketHostname workerId queues now =>
    cases hstep
    exact hmarks
  | startupCommit i =>
    obtain ⟨_, _, rfl⟩ := leaseStep_startupCommit hstep
    exact hmarks
  | crash w =>
    cases hstep
    intro m hm
    exact hmarks m (mem_of_mem_release hm).1

end Rows

section Loads

variable {loads : List StartupLoad} {jobs jobs' : JobTable} {k : Nat} {r : DurableJob}

lemma find_commitLoads_ne (h : commitLoads loads jobs = .ok jobs')
    (hk : ∀ l ∈ loads, l.job.loaded.id ≠ k) : jobs'.find k = jobs.find k := by
  induction loads generalizing jobs with
  | nil =>
    cases h
    rfl
  | cons l loads ih =>
    unfold commitLoads at h
    rw [List.foldlM_cons] at h
    obtain ⟨mid, hfirst, hrest⟩ := except_bind_eq_ok.mp h
    rw [ih hrest (fun l hl => hk l (List.mem_cons_of_mem _ hl)), find_commitJob hfirst,
      if_neg (Ne.symm (hk l List.mem_cons_self))]

lemma find_commitLoads_running (h : commitLoads loads jobs = .ok jobs')
    (hloads : ∀ l ∈ loads, l.job.loaded.status = .running ∧ l.job.new.status = .queued)
    (hr : jobs'.find k = some r) (hrun : r.status = .running) : jobs.find k = some r := by
  induction loads generalizing jobs with
  | nil =>
    cases h
    exact hr
  | cons l loads ih =>
    unfold commitLoads at h
    rw [List.foldlM_cons] at h
    obtain ⟨mid, hfirst, hrest⟩ := except_bind_eq_ok.mp h
    have hmid := ih hrest (fun l hl => hloads l (List.mem_cons_of_mem _ hl))
    obtain ⟨hloaded, hnew⟩ := hloads l List.mem_cons_self
    exact find_commitJob_running hloaded (by rw [hnew]; decide) hfirst hmid hrun

end Loads

/-! ### Steps of the fleet -/

section Fleet

variable {settings : QueueSettings} {s s' : FleetState}

/-- A step that leaves the table and the completions alone and adds no recovery. -/
lemma FleetOk.outlive (h : FleetOk s) {processes : List WorkerProcess}
    {inFlight : List (String × LoadedJob)} (ho : Outlives s.processes processes)
    (hflight : ∀ m ∈ inFlight, m ∈ s.lease.inFlight)
    (hloads : ∀ (i : Nat) (p : WorkerProcess) loads, processes[i]? = some p →
      p.phase = .recovering loads → ∀ l ∈ loads, LoadOk processes p.host l) :
    FleetOk { s with lease := { s.lease with inFlight := inFlight }, processes := processes } where
  held r hr hrun := (h.held r hr hrun).outlive ho
  marks m hm := h.marks m (hflight m hm)
  loads := hloads
  dead e he := (h.dead e he).outlive ho

/-- The recoveries in flight after process `i` has moved to a phase that is none. -/
lemma loads_setPhase (h : FleetOk s) {i : Nat} {p : WorkerProcess} {phase : WorkerPhase}
    (hp : s.processes[i]? = some p) (hlive : p.phase ≠ .stopped)
    (hphase : ∀ loads, phase = .recovering loads → ∀ l ∈ loads, LoadOk s.processes p.host l) :
    ∀ (j : Nat) (q : WorkerProcess) loads, (s.setPhase i p phase).processes[j]? = some q →
      q.phase = .recovering loads → ∀ l ∈ loads, LoadOk (s.setPhase i p phase).processes q.host l := by
  have ho := outlives_set hp hlive phase
  intro j q loads hq hq' l hl
  rcases getElem?_set_cases hq with ⟨_, rfl⟩ | ⟨_, hold⟩
  · exact (hphase loads hq' l hl).outlive ho
  · exact (h.loads j q loads hold hq' l hl).outlive ho

lemma fleetOk_start (h : FleetOk s) (p : WorkerProcess) (hp : p.phase = .starting) :
    FleetOk { s with processes := s.processes ++ [p] } := by
  have ho := outlives_concat s.processes p
  refine h.outlive ho (fun _ hm => hm) ?_
  intro i q loads hq hphase l hl
  rcases getElem?_concat_cases hq with ⟨_, rfl⟩ | hold
  · rw [hp] at hphase
    cases hphase
  · exact (h.loads i q loads hold hphase l hl).outlive ho

lemma fleetOk_stop (h : FleetOk s) {i : Nat} (hstep : fleetStep settings s (.stop i) = some s') :
    FleetOk s' := by
  simp only [fleetStep] at hstep
  split at hstep
  · cases hstep
  · next p hp =>
    split at hstep
    · next hlive =>
      cases hstep
      have hphase : p.phase ≠ .stopped := by simpa [WorkerProcess.live] using hlive
      refine h.outlive (outlives_set hp hphase _) (fun m hm => (mem_of_mem_release hm).1) ?_
      apply loads_setPhase h hp hphase
      intro loads hloads
      cases hloads
    · cases hstep

/-- A loaded row is locked by its holder, so the guard speaks of the process that has it. -/
lemma fleetOk_recoverRead (h : FleetOk s) {i : Nat} {now : Time}
    (hguard : startsAfterDeath s (.recoverRead i now))
    (hstep : fleetStep settings s (.recoverRead i now) = some s') : FleetOk s' := by
  simp only [fleetStep] at hstep
  split at hstep
  · cases hstep
  · next p hp =>
    split at hstep
    · next hstarting =>
      cases hstep
      have hphase : p.phase ≠ .stopped := by simp [hstarting]
      refine h.outlive (outlives_set hp hphase _) (fun m hm => hm) ?_
      apply loads_setPhase h hp hphase
      intro loads hloads l hl
      cases hloads
      obtain ⟨r, hr, rfl⟩ := List.mem_map.mp hl
      obtain ⟨hrow, hlocked⟩ := List.mem_filter.mp hr
      rw [workerHostname_workerId] at hlocked
      obtain ⟨hrun, hqueue, howner⟩ := of_decide_eq_true hlocked
      refine ⟨hrun, rfl, ?_⟩
      obtain ⟨k, q, hk, hq, hby⟩ := h.held r hrow hrun
      rw [hby, Option.any_some] at howner
      simp only [startsAfterDeath, hp, Option.all_some, List.all_eq_true, decide_eq_true_eq] at hguard
      have hdead := hguard r hrow ⟨hrun, hqueue⟩
      simp only [hk, hq, Option.all_some, decide_eq_true_eq] at hdead
      obtain ⟨hhost, hstopped⟩ := hdead howner
      exact ⟨k, q, hk, hq, hhost, hstopped⟩
    · cases hstep

/-- What the commit of a recovery has changed. -/
lemma ofDead_touched (h : FleetOk s) {i : Nat} {p : WorkerProcess} {loads : List StartupLoad}
    {jobs : JobTable} (hp : s.processes[i]? = some p) (hphase : p.phase = .recovering loads)
    (hguard : startsAfterDeath s (.recoverCommit i)) (hc : commitLoads loads s.lease.jobs = .ok jobs) :
    ∀ e ∈ s.touched i jobs, e.OfDead s.processes := by
  intro e he
  obtain ⟨r, hr, rfl⟩ := List.mem_map.mp he
  obtain ⟨hrow, hchanged⟩ := List.mem_filter.mp hr
  obtain ⟨hrun, hchanged⟩ := of_decide_eq_true hchanged
  have hfind := Table.find_of_mem hrow
  have hloaded : ∃ l ∈ loads, l.job.loaded.id = r.id := by
    by_contra hnone
    push Not at hnone
    exact hchanged ((find_commitLoads_ne hc hnone).trans hfind)
  obtain ⟨l, hl, hid⟩ := hloaded
  simp only [startsAfterDeath, hp, hphase, Option.all_some, List.all_eq_true] at hguard
  have hholder := hguard l hl
  rw [hid, hfind, Option.all_some, decide_eq_true_eq] at hholder
  have hsame := hholder hrun
  obtain ⟨k, q, hk, hq, hhost, hstopped⟩ := (h.loads i p loads hp hphase l hl).dead
  obtain ⟨k', q', hk', hq', hby⟩ := h.held r hrow hrun
  rw [hsame, hk] at hk'
  cases hk'
  rw [hq] at hq'
  cases hq'
  refine ⟨k, q, p, hsame.trans hk, hq, hp, hby, hhost, ?_⟩
  simp [FleetState.holderStopped, hsame, hk, hq, WorkerProcess.live, hstopped]

lemma fleetOk_recoverCommit (h : FleetOk s) {i : Nat}
    (hguard : startsAfterDeath s (.recoverCommit i))
    (hstep : fleetStep settings s (.recoverCommit i) = some s') : FleetOk s' := by
  simp only [fleetStep] at hstep
  split at hstep
  · cases hstep
  · next p hp =>
    split at hstep
    · next loads hphase =>
      have hlive : p.phase ≠ .stopped := by simp [hphase]
      have ho := outlives_set hp hlive .working
      have hmoved : FleetOk (s.setPhase i p .working) := by
        refine h.outlive ho (fun _ hm => hm) (loads_setPhase h hp hlive ?_)
        intro loads hloads
        cases hloads
      split at hstep
      · cases hstep
        exact hmoved
      · next jobs hc =>
        cases hstep
        have hloads := h.loads i p loads hp hphase
        refine ⟨?_, hmoved.marks, hmoved.loads, ?_⟩
        · intro r hr hrun
          have hbefore := find_commitLoads_running hc
            (fun l hl => ⟨(hloads l hl).loaded, (hloads l hl).new⟩) (Table.find_of_mem hr) hrun
          exact hmoved.held r (Table.mem_of_find hbefore) hrun
        · intro e he
          rcases List.mem_append.mp he with hold | hnew
          · exact hmoved.dead e hold
          · exact (ofDead_touched h hp hphase hguard hc e hnew).outlive ho
    · cases hstep

lemma working_eq_some {w : String} {k : Nat} (h : s.working w = some k) :
    ∃ q, s.processes[k]? = some q ∧ q.workerId = w := by
  obtain ⟨hk, hq, _⟩ := List.findIdx?_eq_some_iff_getElem.mp h
  exact ⟨s.processes[k], List.getElem?_eq_getElem hk, (of_decide_eq_true hq).2⟩

lemma fleetOk_op (h : FleetOk s) {a : LeaseAction} (hstep : fleetStep settings s (.op a) = some s') :
    FleetOk s' := by
  simp only [fleetStep] at hstep
  split at hstep
  · next hallowed =>
    obtain ⟨hord, hactor⟩ := hallowed
    obtain ⟨lease, hlease, rfl⟩ := Option.map_eq_some_iff.mp hstep
    refine ⟨?_, marks_lease h.marks hlease, h.loads, h.dead⟩
    intro r' hr' hrun
    rcases runsOn_lease h.marks hord hlease hr' hrun with
      ⟨r, hr, hid, hrrun, hby, hunclaimed⟩ | ⟨w, hw, hclaimed, hby⟩
    · obtain ⟨k, q, hk, hq, hrby⟩ := h.held r hr hrrun
      refine ⟨k, q, ?_, hq, by rw [← hby, hrby]⟩
      dsimp only
      rw [if_neg hunclaimed, ← hid, hk]
    · rw [hw, Option.all_some] at hactor
      obtain ⟨k, hk⟩ := Option.isSome_iff_exists.mp hactor
      obtain ⟨q, hq, hid⟩ := working_eq_some hk
      refine ⟨k, q, ?_, hq, by rw [hby, hid]⟩
      dsimp only
      rw [if_pos hclaimed, hw, Option.bind_some, hk]
  · cases hstep

lemma fleetOk_step {a : FleetAction} (h : FleetOk s) (hguard : startsAfterDeath s a)
    (hstep : fleetStep settings s a = some s') : FleetOk s' := by
  cases a with
  | start host pid queues =>
    simp only [fleetStep] at hstep
    split at hstep
    · cases hstep
    · cases hstep
      exact fleetOk_start h _ rfl
  | stop i => exact fleetOk_stop h hstep
  | recoverRead i now => exact fleetOk_recoverRead h hguard hstep
  | recoverCommit i => exact fleetOk_recoverCommit h hguard hstep
  | op a => exact fleetOk_op h hstep

end Fleet

/-- In every run in which `startsAfterDeath` holds before each step, every running job that
a startup recovery has changed was locked by a process of the same host that had stopped. -/
theorem startup_recovery_of_dead (settings : QueueSettings) {as : List FleetAction} {s : FleetState}
    (h : GuardedRun (fleetStep settings) (fun s a => startsAfterDeath s a) FleetState.initial as s) :
    ∀ e ∈ s.requeued, e.OfDead s.processes := by
  have hok : FleetOk s := by
    refine h.invariant ?_ (fun _ _ _ hi hg hs => fleetOk_step hi hg hs)
    constructor
    · intro r hr
      cases hr
    · intro m hm
      cases hm
    · intro i p loads hp
      cases hp
    · intro e he
      cases he
  exact hok.dead

/-- A worker claims a job and dies, and the next process of its host puts the job back
while a worker of another host goes on with its own. -/
def restartActions : List FleetAction :=
  [.start "web-1" 7 ["deferred"], .recoverRead 0 0, .recoverCommit 0,
    .start "web-2" 7 ["deferred"], .recoverRead 1 0, .recoverCommit 1,
    .op (.op (.enqueue ⟨"a", "null", "deferred", none, 5, none⟩ 0)),
    .op (.op (.enqueue ⟨"b", "null", "deferred", none, 5, none⟩ 0)),
    .op (.op (.claim "web-1:7" ["deferred"] 1)), .op (.op (.claim "web-2:7" ["deferred"] 1)),
    .stop 0, .start "web-1" 8 ["deferred"], .recoverRead 2 2, .recoverCommit 2]

theorem startup_recovery_of_dead_restart :
    ∃ s : FleetState,
      GuardedRun (fleetStep {}) (fun s a => startsAfterDeath s a) FleetState.initial
        restartActions s ∧
      s.requeued.map (fun e => (e.job.id, e.holder)) = [(1, some 0)] ∧
      ∀ e ∈ s.requeued, e.OfDead s.processes := by
  have hended : ∃ s : FleetState,
      GuardedRun (fleetStep {}) (fun s a => startsAfterDeath s a) FleetState.initial
        restartActions s ∧
      decide (s.requeued.map (fun e => (e.job.id, e.holder)) = [(1, some 0)]) = true :=
    exists_guardedRun_of_any _ _ _ _ _ (by decide +kernel)
  obtain ⟨s, hrun, hs⟩ := hended
  exact ⟨s, hrun, of_decide_eq_true hs, startup_recovery_of_dead {} hrun⟩

/-- A second worker of a host puts back the job that the first one is executing, and a
worker of the host `web_1` puts back a dead worker's job of the host `web-1`. -/
theorem startup_recovery_of_live_or_foreign :
    (¬∀ (settings : QueueSettings) (as : List FleetAction) (s : FleetState),
      Run (fleetStep settings) FleetState.initial as s → ∀ e ∈ s.requeued, e.stopped = true) ∧
    ¬∀ (settings : QueueSettings) (as : List FleetAction) (s : FleetState),
      Run (fleetStep settings) FleetState.initial as s →
        ∀ e ∈ s.requeued, ∀ h q starter, e.holder = some h → s.processes[h]? = some q →
          s.processes[e.starter]? = some starter → q.host = starter.host := by
  constructor
  · intro h
    have hended : ∃ s : FleetState,
        Run (fleetStep {}) FleetState.initial
          [.start "web-1" 7 ["deferred"], .recoverRead 0 0, .recoverCommit 0,
            .op (.op (.enqueue ⟨"a", "null", "deferred", none, 5, none⟩ 0)),
            .op (.op (.claim "web-1:7" ["deferred"] 1)),
            .start "web-1" 8 ["deferred"], .recoverRead 1 2, .recoverCommit 1] s ∧
        decide (∃ e ∈ s.requeued, e.stopped = false) = true :=
      exists_guardedRun_of_any _ _ _ _ _ (by decide +kernel)
    obtain ⟨s, hrun, hs⟩ := hended
    obtain ⟨e, he, hlive⟩ := of_decide_eq_true hs
    rw [h {} _ s hrun e he] at hlive
    cases hlive
  · intro h
    have hended : ∃ s : FleetState,
        Run (fleetStep {}) FleetState.initial
          [.start "web-1" 7 ["deferred"], .recoverRead 0 0, .recoverCommit 0,
            .op (.op (.enqueue ⟨"a", "null", "deferred", none, 5, none⟩ 0)),
            .op (.op (.claim "web-1:7" ["deferred"] 1)), .stop 0,
            .start "web_1" 7 ["deferred"], .recoverRead 1 2, .recoverCommit 1] s ∧
        decide (∃ e ∈ s.requeued, e.holder = some 0 ∧ e.starter = 1 ∧
          (s.processes[0]?).map WorkerProcess.host = some "web-1" ∧
          (s.processes[1]?).map WorkerProcess.host = some "web_1") = true :=
      exists_guardedRun_of_any _ _ _ _ _ (by decide +kernel)
    obtain ⟨s, hrun, hs⟩ := hended
    obtain ⟨e, he, hholder, hstarter, hfirst, hsecond⟩ := of_decide_eq_true hs
    obtain ⟨q, hq, hqhost⟩ := Option.map_eq_some_iff.mp hfirst
    obtain ⟨p, hp, hphost⟩ := Option.map_eq_some_iff.mp hsecond
    have hsame := h {} _ s hrun e he 0 q p hholder hq (by rw [hstarter, hp])
    rw [hqhost, hphost] at hsame
    revert hsame
    decide

end IpDocket.Ops
