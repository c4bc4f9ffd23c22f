import IpDocket.Ops.DurableQueueAttempts

/-!
# Deduplicated requests

`enqueue` looks for an active job with the same queue, task and key, and inserts one only
if there is none; when the unique index refuses the row it looks once more. The lookup,
the `INSERT` with its commit and the second lookup are separate steps here, and any number
of callers run them between the steps of the workers. Each call has its own session, as in
all callers of the application.
-/

namespace IpDocket.Ops
open IpDocket.Lib

inductive EnqueuePhase
  | lookup
  | insert
  | lookupAgain
  | returned (job : DurableJob)
  | raised
  deriving DecidableEq

/-- A call of `enqueue`. `claimedSince` is a history variable: a job with the queue, task
and key of the request has been claimed since the call began. -/
structure EnqueueCall where
  req : EnqueueRequest
  phase : EnqueuePhase
  claimedSince : Bool
  deriving DecidableEq

def EnqueueRequest.names (req : EnqueueRequest) (r : DurableJob) : Bool :=
  r.queue = req.queue ∧ r.task = req.task ∧ r.dedupeKey = req.cleanDedupeKey

/-- The next statement of a call. -/
def EnqueueCall.advance (c : EnqueueCall) (now : Time) (jobs : JobTable) :
    Option (JobTable × EnqueuePhase) :=
  match c.phase with
  | .lookup =>
    match c.req.find jobs with
    | some existing => some (jobs, .returned existing)
    | none => some (jobs, .insert)
  | .insert =>
    match insertJob c.req now jobs with
    | (jobs', .ok job) => some (jobs', .returned job)
    | (jobs', .error _) =>
      some (jobs', if c.req.cleanDedupeKey.isNone then .raised else .lookupAgain)
  | .lookupAgain =>
    match c.req.find jobs with
    | some existing => some (jobs, .returned existing)
    | none => some (jobs, .raised)
  | .returned _ => none
  | .raised => none

def EnqueueCall.note (s : LeaseState) (a : LeaseAction) (c : EnqueueCall) : EnqueueCall :=
  { c with
    claimedSince := c.claimedSince ||
      (a.claimed s).any (fun k => (s.jobs.find k).any c.req.names) }

structure DedupeState where
  lease : LeaseState
  calls : List EnqueueCall

def DedupeState.initial : DedupeState := ⟨LeaseState.initial, []⟩

inductive DedupeAction
  | lease (a : LeaseAction)
  | begin (req : EnqueueRequest)
  | advance (call : Nat) (now : Time)

def dedupeStep (settings : QueueSettings) (s : DedupeState) : DedupeAction → Option DedupeState
  | .lease a =>
    (leaseStep settings s.lease a).map
      (fun lease => ⟨lease, s.calls.map (EnqueueCall.note s.lease a)⟩)
  | .begin req => some { s with calls := s.calls ++ [⟨req, .lookup, false⟩] }
  | .advance i now =>
    match s.calls[i]? with
    | none => none
    | some c =>
      (c.advance now s.lease.jobs).map (fun r =>
        ⟨{ s.lease with jobs := r.1 }, s.calls.set i { c with phase := r.2 }⟩)

/-- A completion commits over a row that its worker still has. -/
def dedupeUndisturbed (s : DedupeState) : DedupeAction → Bool
  | .lease (.markCommit w) =>
    s.lease.inFlight.all (fun p =>
      p.1 = w → (s.lease.jobs.find p.2.loaded.id).all (ownsJob w))
  | _ => true

/-- The job is in the table under the names of the request, and no worker has it. -/
def Waiting (req : EnqueueRequest) (jobId : Nat) (jobs : JobTable) : Prop :=
  ∃ r, jobs.find jobId = some r ∧ req.names r ∧ (r.status = .queued ∨ r.status = .cancelled)

/-- What a returned call can rely on. -/
def CallServed (jobs : JobTable) (c : EnqueueCall) : Prop :=
  ∀ job, c.phase = .returned job →
    c.claimedSince ∨ job.status = .running ∨ Waiting c.req job.id jobs

lemma names_of_sameJob {req : EnqueueRequest} {r r' : DurableJob} (h : SameJob r' r)
    (hnames : req.names r) : req.names r' := by
  obtain ⟨_, hqueue, htask, _, hkey, _⟩ := h
  simp only [EnqueueRequest.names, decide_eq_true_eq] at hnames ⊢
  rw [hqueue, htask, hkey]
  exact hnames

/-- A waiting row that no worker claims stays waiting. -/
lemma waiting_rowStep {settings : QueueSettings} {a : QueueAction} {r r' : DurableJob}
    (h : r.status = .queued ∨ r.status = .cancelled)
    (hclaim : ∀ w queues now, a ≠ .claim w queues now) (hrow : RowStep settings a r r') :
    SameJob r' r ∧ (r'.status = .queued ∨ r'.status = .cancelled) := by
  have hnot : ∀ w, ¬ownsJob w r := by
    intro w howns
    have hrun := (ownsJob_iff.mp howns).1
    rcases h with h | h <;> rw [h] at hrun <;> cases hrun
  cases hrow with
  | keep => exact ⟨⟨rfl, rfl, rfl, rfl, rfl, rfl⟩, h⟩
  | stale _ => exact ⟨⟨rfl, rfl, rfl, rfl, rfl, rfl⟩, .inl rfl⟩
  | startup _ => exact ⟨⟨rfl, rfl, rfl, rfl, rfl, rfl⟩, .inl rfl⟩
  | claim _ => exact absurd rfl (hclaim _ _ _)
  | succeed howns => exact absurd howns (hnot _)
  | fail howns => exact absurd howns (hnot _)
  | force howns => exact absurd howns (hnot _)
  | refresh howns => exact absurd howns (hnot _)
  | retry => exact ⟨sameJob_retryJob _ _, .inl rfl⟩
  | cancel => exact ⟨sameJob_cancelJob _ _, .inr rfl⟩

/-- A claim takes a waiting job, or leaves it as it is. -/
lemma waiting_claim {req : EnqueueRequest} {k : Nat} {s : LeaseState} {w : String}
    {queues : List String} {now : Time} (h : Waiting req k s.jobs) :
    (LeaseAction.claimed s (.op (.claim w queues now))).any
        (fun k => (s.jobs.find k).any req.names) ∨
      Waiting req k (claimSelect w queues now s.jobs).1 := by
  obtain ⟨r, hr, hnames, hstatus⟩ := h
  have hfind := find_claimSelect w queues now s.jobs k
  cases hselect : selectJob queues now s.jobs with
  | none =>
    rw [hselect] at hfind
    exact .inr ⟨r, hfind.trans hr, hnames, hstatus⟩
  | some job =>
    rw [hselect] at hfind
    dsimp only at hfind
    by_cases hk : job.id = k
    · left
      simp [LeaseAction.claimed, hselect, hk, hr, hnames]
    · rw [if_neg hk] at hfind
      exact .inr ⟨r, hfind.trans hr, hnames, hstatus⟩

lemma waiting_op {settings : QueueSettings} {req : EnqueueRequest} {k : Nat} {s : LeaseState}
    {a : QueueAction} {jobs : JobTable} (h : Waiting req k s.jobs)
    (hstep : queueStep settings s.jobs a = some jobs) :
    (LeaseAction.claimed s (.op a)).any (fun k => (s.jobs.find k).any req.names) ∨
      Waiting req k jobs := by
  by_cases hclaim : ∃ w queues now, a = .claim w queues now
  · obtain ⟨w, queues, now, rfl⟩ := hclaim
    cases hstep
    exact waiting_claim h
  · right
    obtain ⟨r, hr, hnames, hstatus⟩ := h
    have hnot : ∀ w queues now, a ≠ .claim w queues now := by
      intro w queues now ha
      exact hclaim ⟨w, queues, now, ha⟩
    cases queueStep_find hstep k with
    | absent hnone _ =>
      rw [hr] at hnone
      cases hnone
    | @changed q r' hq hr' hrow =>
      rw [hr] at hq
      cases hq
      obtain ⟨hsame, hstatus'⟩ := waiting_rowStep hstatus hnot hrow
      exact ⟨r', hr', names_of_sameJob hsame hnames, hstatus'⟩
    | inserted _ _ hnone _ =>
      rw [hr] at hnone
      cases hnone

/-- A recovery puts a waiting job back into the queue, where it waits on. -/
lemma waiting_startup {req : EnqueueRequest} {k : Nat} {loads : List LoadedJob} {jobs : JobTable}
    (hloads : ∀ l ∈ loads, l.new.status = .queued) (h : Waiting req k jobs) :
    Waiting req k (commitStartup loads jobs) := by
  obtain ⟨r, hr, hnames, hstatus⟩ := h
  have hkeep : ∀ l ∈ loads, l.loaded.id = k → ∀ q,
      req.names q ∧ (q.status = .queued ∨ q.status = .cancelled) →
      req.names (l.loaded.flush l.new q) ∧
        ((l.loaded.flush l.new q).status = .queued ∨ (l.loaded.flush l.new q).status = .cancelled) := by
    rintro l hl - q ⟨hnamed, hwaits⟩
    refine ⟨hnamed, ?_⟩
    change flushColumn l.loaded.status l.new.status q.status = .queued ∨
      flushColumn l.loaded.status l.new.status q.status = .cancelled
    unfold flushColumn
    split
    · exact hwaits
    · exact .inl (hloads l hl)
  obtain ⟨r', hr', hnamed, hwaits⟩ := (find_commitStartup jobs hkeep).2 r hr ⟨hnames, hstatus⟩
  exact ⟨r', hr', hnamed, hwaits⟩

lemma waiting_lease {settings : QueueSettings} {req : EnqueueRequest} {k : Nat}
    {s : DedupeState} {lease : LeaseState} {a : LeaseAction}
    (hloads : ∀ loads ∈ s.lease.startups, ∀ l ∈ loads, l.new.status = .queued)
    (hguard : dedupeUndisturbed s (.lease a)) (h : Waiting req k s.lease.jobs)
    (hstep : leaseStep settings s.lease a = some lease) :
    (a.claimed s.lease).any (fun k => (s.lease.jobs.find k).any req.names) ∨
      Waiting req k lease.jobs := by
  cases a with
  | op a =>
    obtain ⟨_, jobs, hq, rfl⟩ := leaseStep_op hstep
    exact waiting_op h hq
  | markSucceededRead w jobId now =>
    rw [(read_eq_some hstep).1]
    exact .inr h
  | markFailedRead w jobId err traceback now =>
    rw [(read_eq_some hstep).1]
    exact .inr h
  | markCommit w =>
    right
    obtain ⟨p, hp, hw, rfl⟩ := leaseStep_commit hstep
    obtain ⟨r, hr, hnames, hstatus⟩ := h
    have hne : k ≠ p.2.loaded.id := by
      rintro rfl
      have howns := of_decide_eq_true (List.all_eq_true.mp hguard p hp) hw
      rw [hr, Option.all_some] at howns
      have hrun := (ownsJob_iff.mp howns).1
      rcases hstatus with h | h <;> rw [h] at hrun <;> cases hrun
    exact ⟨r, by rw [find_commitMark_ne hne, hr], hnames, hstatus⟩
  | startupRead socketHostname workerId queues now =>
    cases hstep
    exact .inr h
  | startupCommit i =>
    obtain ⟨loads, hget, rfl⟩ := leaseStep_startupCommit hstep
    exact .inr (waiting_startup (hloads loads (List.mem_of_getElem? hget)) h)
  | crash w =>
    cases hstep
    exact .inr h

/-- What a recovery has loaded goes back into the queue. -/
lemma startupLoads_queued {settings : QueueSettings} {s s' : LeaseState} {a : LeaseAction}
    (h : ∀ loads ∈ s.startups, ∀ l ∈ loads, l.new.status = .queued)
    (hstep : leaseStep settings s a = some s') :
    ∀ loads ∈ s'.startups, ∀ l ∈ loads, l.new.status = .queued := by
  cases a with
  | op a =>
    obtain ⟨_, jobs, _, rfl⟩ := leaseStep_op hstep
    exact h
  | markSucceededRead w jobId now =>
    rw [(read_eq_some hstep).2.1]
    exact h
  | markFailedRead w jobId err traceback now =>
    rw [(read_eq_some hstep).2.1]
    exact h
  | markCommit w =>
    obtain ⟨_, _, _, rfl⟩ := leaseStep_commit hstep
    exact h
  | startupRead socketHostname workerId queues now =>
    cases hstep
    intro loads hloads l hl
    rcases List.mem_append.mp hloads with hold | hnew
    · exact h loads hold l hl
    · rw [List.mem_singleton.mp hnew] at hl
      obtain ⟨r, -, rfl⟩ := List.mem_map.mp hl
      rfl
  | startupCommit i =>
    obtain ⟨_, _, rfl⟩ := leaseStep_startupCommit hstep
    exact fun loads hloads => h loads (List.mem_of_mem_eraseIdx hloads)
  | crash w =>
    cases hstep
    exact h

/-- A statement of a caller leaves the rows that are there as they are. -/
lemma find_advance {c : EnqueueCall} {now : Time} {jobs jobs' : JobTable} {phase : EnqueuePhase}
    {k : Nat} {r : DurableJob} (h : c.advance now jobs = some (jobs', phase))
    (hr : jobs.find k = some r) : jobs'.find k = some r := by
  have hinsert : (insertJob c.req now jobs).1.find k = some r := by
    unfold insertJob
    split
    · exact hr
    · exact Table.find_insert_some (id_job c.req now) hr
  unfold EnqueueCall.advance at h
  split at h
  · split at h <;> cases h <;> exact hr
  · split at h
    · next jobs' job heq =>
      rw [heq] at hinsert
      cases h
      exact hinsert
    · next jobs' e heq =>
      rw [heq] at hinsert
      cases h
      exact hinsert
  · split at h <;> cases h <;> exact hr
  · cases h
  · cases h

lemma find_request {req : EnqueueRequest} {jobs : JobTable} {r : DurableJob}
    (h : req.find jobs = some r) :
    r.status = .running ∨ Waiting req r.id jobs := by
  unfold EnqueueRequest.find findExistingDedupedJob at h
  cases hkey : req.cleanDedupeKey with
  | none =>
    rw [hkey] at h
    cases h
  | some key =>
    rw [hkey] at h
    have hmem := List.mem_of_find?_eq_some h
    have hp := List.find?_some h
    simp only [decide_eq_true_eq] at hp
    obtain ⟨hqueue, htask, hdedupe, hactive⟩ := hp
    have hnames : req.names r := by simp [EnqueueRequest.names, hqueue, htask, hdedupe, hkey]
    cases hstatus : r.status with
    | queued => exact .inr ⟨r, Table.find_of_mem hmem, hnames, .inl hstatus⟩
    | running => exact .inl rfl
    | _ =>
      rw [hstatus] at hactive
      cases hactive

lemma insertJob_waiting {req : EnqueueRequest} {now : Time} {jobs jobs' : JobTable}
    {r : DurableJob} (h : insertJob req now jobs = (jobs', .ok r)) : Waiting req r.id jobs' := by
  unfold insertJob at h
  split at h
  · cases h
  · cases h
    refine ⟨_, Table.find_insert_next (id_job req now), ?_, .inl rfl⟩
    simp [EnqueueRequest.names, EnqueueRequest.job]

/-- A call returns a job that is running or waiting at that moment. -/
lemma advance_returned {c : EnqueueCall} {now : Time} {jobs jobs' : JobTable}
    {job : DurableJob} (h : c.advance now jobs = some (jobs', .returned job)) :
    job.status = .running ∨ Waiting c.req job.id jobs' := by
  unfold EnqueueCall.advance at h
  split at h
  · split at h
    · next existing hfind =>
      cases h
      exact find_request hfind
    · cases h
  · split at h
    · next jobs' r heq =>
      cases h
      exact .inr (insertJob_waiting heq)
    · simp only [Option.some.injEq, Prod.mk.injEq] at h
      obtain ⟨_, hphase⟩ := h
      split at hphase <;> cases hphase
  · split at h
    · next existing hfind =>
      cases h
      exact find_request hfind
    · cases h
  · cases h
  · cases h

lemma callServed_advance {c d : EnqueueCall} {now : Time} {jobs jobs' : JobTable}
    {phase : EnqueuePhase} (hd : CallServed jobs d) (h : c.advance now jobs = some (jobs', phase)) :
    CallServed jobs' d := by
  intro job hphase
  rcases hd job hphase with hclaimed | hrunning | ⟨r, hr, hnames, hstatus⟩
  · exact .inl hclaimed
  · exact .inr (.inl hrunning)
  · exact .inr (.inr ⟨r, find_advance h hr, hnames, hstatus⟩)

lemma callServed_note {settings : QueueSettings} {s : DedupeState} {lease : LeaseState}
    {a : LeaseAction} {c : EnqueueCall}
    (hloads : ∀ loads ∈ s.lease.startups, ∀ l ∈ loads, l.new.status = .queued)
    (hguard : dedupeUndisturbed s (.lease a)) (hc : CallServed s.lease.jobs c)
    (hstep : leaseStep settings s.lease a = some lease) :
    CallServed lease.jobs (c.note s.lease a) := by
  intro job hphase
  rcases hc job hphase with hclaimed | hrunning | hwaiting
  · left
    simp [EnqueueCall.note, hclaimed]
  · exact .inr (.inl hrunning)
  · rcases waiting_lease hloads hguard hwaiting hstep with hclaim | hstill
    · left
      simp [EnqueueCall.note, hclaim]
    · exact .inr (.inr hstill)

structure DedupeInvariant (s : DedupeState) : Prop where
  loads : ∀ loads ∈ s.lease.startups, ∀ l ∈ loads, l.new.status = .queued
  served : ∀ c ∈ s.calls, CallServed s.lease.jobs c

lemma dedupeInvariant_step {settings : QueueSettings} {s s' : DedupeState} {a : DedupeAction}
    (h : DedupeInvariant s) (hguard : dedupeUndisturbed s a)
    (hstep : dedupeStep settings s a = some s') : DedupeInvariant s' := by
  cases a with
  | lease a =>
    obtain ⟨lease, hlease, rfl⟩ := Option.map_eq_some_iff.mp hstep
    refine ⟨startupLoads_queued h.loads hlease, ?_⟩
    intro d hd
    obtain ⟨c, hc, rfl⟩ := List.mem_map.mp hd
    exact callServed_note h.loads hguard (h.served c hc) hlease
  | begin req =>
    cases hstep
    refine ⟨h.loads, ?_⟩
    intro c hc
    rcases List.mem_append.mp hc with hold | hnew
    · exact h.served c hold
    · rw [List.mem_singleton.mp hnew]
      intro job hphase
      cases hphase
  | advance i now =>
    simp only [dedupeStep] at hstep
    split at hstep
    · cases hstep
    · next c hc =>
      obtain ⟨⟨jobs, phase⟩, hadvance, rfl⟩ := Option.map_eq_some_iff.mp hstep
      refine ⟨h.loads, ?_⟩
      intro d hd
      rcases List.mem_or_eq_of_mem_set hd with hold | rfl
      · exact callServed_advance (h.served d hold) hadvance
      · intro job hphase
        dsimp only at hphase
        subst hphase
        have hreturned := advance_returned hadvance
        exact .inr hreturned

/-! ### A queued job will be claimed -/

lemma foldl_earlierJob_isSome (rows : List DurableJob) (best : Option DurableJob)
    (h : best.isSome ∨ rows ≠ []) : (rows.foldl earlierJob best).isSome := by
  induction rows generalizing best with
  | nil => simpa using h
  | cons r rows ih =>
    rw [List.foldl_cons]
    apply ih
    left
    unfold earlierJob
    cases best with
    | none => rfl
    | some b =>
      dsimp only
      split <;> rfl

lemma selectJob_of_ready {jobs : JobTable} {now : Time} {r : DurableJob} (hr : r ∈ jobs.rows)
    (hqueue : r.queue ≠ "") (hready : readyJob now r.queue r) :
    ∃ b, selectJob [r.queue] now jobs = some b ∧ readyJob now r.queue b := by
  have hne : jobs.rows.filter (readyJob now r.queue) ≠ [] :=
    List.ne_nil_of_mem (List.mem_filter.mpr ⟨hr, hready⟩)
  have hsome := foldl_earlierJob_isSome _ none (.inr hne)
  obtain ⟨b, hb⟩ := Option.isSome_iff_exists.mp hsome
  have hfilter : [r.queue].filter (· ≠ "") = [r.queue] := by simp [hqueue]
  refine ⟨b, ?_, ?_⟩
  · unfold selectJob
    rw [hfilter, List.findSome?_cons, firstReady, hb]
  · rcases foldl_earlierJob_mem _ _ hb with hnone | hmem
    · cases hnone
    · exact (List.mem_filter.mp hmem).2

/-- Locking a ready row leaves one ready row less. -/
lemma countP_ready_lock {rows : List DurableJob} {now : Time} {queue : String} {b : DurableJob}
    (w : String) (hb : b ∈ rows) (hready : readyJob now queue b) :
    (rows.map (onRows (fun q => q.id = b.id) (lockJob w now))).countP (readyJob now queue) <
      rows.countP (readyJob now queue) := by
  have hle : ∀ l : List DurableJob,
      (l.map (onRows (fun q => q.id = b.id) (lockJob w now))).countP (readyJob now queue) ≤
        l.countP (readyJob now queue) := by
    intro l
    rw [List.countP_map]
    apply List.countP_mono_left
    intro q _ hq
    simp only [Function.comp, onRows] at hq
    split at hq
    · simp [readyJob, lockJob] at hq
    · exact hq
  obtain ⟨before, after, rfl⟩ := List.append_of_mem hb
  have hbefore := hle before
  have hafter := hle after
  have hlocked : readyJob now queue (onRows (fun q => q.id = b.id) (lockJob w now) b) = false := by
    simp [onRows, readyJob, lockJob]
  rw [List.map_append, List.map_cons, List.countP_append, List.countP_append, List.countP_cons,
    List.countP_cons, if_pos hready, hlocked]
  simp only [Bool.false_eq_true, if_false]
  omega

/-- An idle worker that serves the queue claims the job after at most as many claims as
there are ready jobs in that queue. -/
lemma claims_reach (settings : QueueSettings) {w : String} {now : Time} {queue : String}
    {i k : Nat} {r : DurableJob} (hqueue : queue ≠ "") (n : Nat) (s : DedupeState)
    (hn : s.lease.jobs.rows.countP (readyJob now queue) ≤ n) (hidle : s.lease.busy w = false)
    {c : EnqueueCall} (hc : s.calls[i]? = some c) (hr : s.lease.jobs.find k = some r)
    (hnames : c.req.names r) (hready : readyJob now queue r) :
    ∃ m ≤ n, ∃ t : DedupeState,
      GuardedRun (dedupeStep settings) (fun s a => dedupeUndisturbed s a) s
        (List.replicate m (.lease (.op (.claim w [queue] now)))) t ∧
      (t.calls[i]?).any EnqueueCall.claimedSince := by
  induction n generalizing s c with
  | zero =>
    have hpos := List.countP_pos_iff.mpr ⟨r, Table.mem_of_find hr, hready⟩
    omega
  | succ n ih =>
    have hrq : r.queue = queue := by
      simp only [readyJob, decide_eq_true_eq] at hready
      exact hready.2.1
    obtain ⟨b, hselect, hbready⟩ := selectJob_of_ready (Table.mem_of_find hr)
      (by rw [hrq]; exact hqueue) (by rw [hrq]; exact hready)
    rw [hrq] at hselect hbready
    have hb := (selectJob_spec hselect).1
    obtain ⟨t, ht⟩ : ∃ t, t = (⟨{ s.lease with jobs := (claimSelect w [queue] now s.lease.jobs).1 },
        s.calls.map (EnqueueCall.note s.lease (.op (.claim w [queue] now)))⟩ : DedupeState) :=
      ⟨_, rfl⟩
    have hstep : dedupeStep settings s (.lease (.op (.claim w [queue] now))) = some t := by
      simp [dedupeStep, leaseStep, QueueAction.atomic, QueueAction.worker, hidle, queueStep, ht]
    have hguard : dedupeUndisturbed s (.lease (.op (.claim w [queue] now))) = true := rfl
    have hcall : t.calls[i]? = some (c.note s.lease (.op (.claim w [queue] now))) := by
      rw [ht, List.getElem?_map, hc, Option.map_some]
    by_cases hbk : b.id = k
    · refine ⟨1, by omega, t, .cons hguard hstep (.nil t), ?_⟩
      rw [hcall, Option.any_some]
      simp [EnqueueCall.note, LeaseAction.claimed, hselect, hbk, hr, hnames]
    · have hfind : t.lease.jobs.find k = some r := by
        rw [ht, find_claimSelect, hselect]
        dsimp only
        rw [if_neg hbk, hr]
      have hcount : t.lease.jobs.rows.countP (readyJob now queue) ≤ n := by
        have hlt := countP_ready_lock w (Table.mem_of_find hb) hbready
        have hrows : t.lease.jobs.rows =
            s.lease.jobs.rows.map (onRows (fun q => q.id = b.id) (lockJob w now)) := by
          rw [ht]
          simp [claimSelect, hselect, updateJobs]
        rw [hrows]
        omega
      have hidle' : t.lease.busy w = false := by
        rw [ht]
        exact hidle
      obtain ⟨m, hm, u, hrun, hclaimed⟩ := ih t hcount hidle' hcall hfind hnames
      refine ⟨m + 1, by omega, u, ?_, hclaimed⟩
      rw [List.replicate_succ]
      exact .cons hguard hstep hrun

/-- A returned call is followed by a claim of a job with its queue, task and key, or its
job is cancelled, or its job is queued and every idle worker that serves the queue reaches
it with finitely many claims, or the call found its job already running. -/
theorem enqueue_returned_claimed (settings : QueueSettings) {as : List DedupeAction}
    {s : DedupeState}
    (h : GuardedRun (dedupeStep settings) (fun s a => dedupeUndisturbed s a)
      DedupeState.initial as s)
    (i : Nat) {c : EnqueueCall} (hc : s.calls[i]? = some c) (job : DurableJob)
    (hret : c.phase = .returned job) :
    c.claimedSince ∨ job.status = .running ∨
      ∃ r, s.lease.jobs.find job.id = some r ∧ c.req.names r ∧
        (r.status = .cancelled ∨
          (r.status = .queued ∧
            ∀ w now, s.lease.busy w = false → r.queue ≠ "" → r.runAt ≤ now →
              ∃ n t, GuardedRun (dedupeStep settings)
                  (fun s a => dedupeUndisturbed s a) s
                  (List.replicate n (.lease (.op (.claim w [r.queue] now)))) t ∧
                (t.calls[i]?).any EnqueueCall.claimedSince)) := by
  have hinv : DedupeInvariant s := by
    refine h.invariant ?_ (fun _ _ _ hi hg hs => dedupeInvariant_step hi hg hs)
    constructor
    · intro loads hloads
      cases hloads
    · intro c hc
      cases hc
  rcases hinv.served c (List.mem_of_getElem? hc) job hret with
    hclaimed | hrunning | ⟨r, hr, hnames, hqueued | hcancelled⟩
  · exact .inl hclaimed
  · exact .inr (.inl hrunning)
  · refine .inr (.inr ⟨r, hr, hnames, .inr ⟨hqueued, ?_⟩⟩)
    intro w now hidle hqueue hrun
    have hready : readyJob now r.queue r := by simp [readyJob, hqueued, hrun]
    obtain ⟨n, _, t, hclaims, hclaimed⟩ :=
      claims_reach settings hqueue _ s (Nat.le_refl _) hidle hc hr hnames hready
    exact ⟨n, t, hclaims, hclaimed⟩
  · exact .inr (.inr ⟨r, hr, hnames, .inl hcancelled⟩)

def syncRequest : EnqueueRequest := ⟨"deferred.sync", "null", "deferred", none, 5, some "k"⟩

/-- Two callers look up the same key, the unique index refuses the second row, and the
second lookup finds the first one's job. -/
theorem enqueue_returned_claimed_race :
    ∃ s : DedupeState,
      GuardedRun (dedupeStep {}) (fun s a => dedupeUndisturbed s a) DedupeState.initial
        [.begin syncRequest, .begin syncRequest, .advance 0 1, .advance 1 1, .advance 0 2,
          .advance 1 2, .advance 1 3, .lease (.op (.claim "host:1" ["deferred"] 4))] s ∧
      ((s.calls[1]?).any EnqueueCall.claimedSince ∨ JobStatus.queued = .running ∨
        ∃ r, s.lease.jobs.find 1 = some r ∧ syncRequest.names r ∧
          (r.status = .cancelled ∨
            (r.status = .queued ∧
              ∀ w now, s.lease.busy w = false → r.queue ≠ "" → r.runAt ≤ now →
                ∃ n t, GuardedRun (dedupeStep {}) (fun s a => dedupeUndisturbed s a) s
                    (List.replicate n (.lease (.op (.claim w [r.queue] now)))) t ∧
                  (t.calls[1]?).any EnqueueCall.claimedSince))) :=
  exists_guardedRun rfl (fun hrun =>
    enqueue_returned_claimed {} hrun 1 rfl (syncRequest.job 2 1) rfl)

/-- A call finds its job running, the job succeeds, and no job with the key is left. -/
theorem enqueue_folded_into_running :
    ¬∀ (settings : QueueSettings) (as : List DedupeAction) (s : DedupeState),
      GuardedRun (dedupeStep settings) (fun s a => dedupeUndisturbed s a)
        DedupeState.initial as s →
      ∀ c ∈ s.calls, ∀ job, c.phase = .returned job →
        c.claimedSince ∨
          ∃ r ∈ s.lease.jobs.rows, c.req.names r ∧ r.status ≠ .succeeded := by
  intro h
  have hserved := h {} [.lease (.op (.enqueue syncRequest 0)),
    .lease (.op (.claim "host:1" ["deferred"] 1)), .begin syncRequest, .advance 0 2,
    .lease (.op (.markSucceeded "host:1" 1 3))] _ (guardedRun_of_execute rfl) _
    List.mem_cons_self _ rfl
  revert hserved
  decide

end IpDocket.Ops
