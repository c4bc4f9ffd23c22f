import IpDocket.Ops.EnqueueSessions
import Mathlib.Data.List.Basic

/-!
# The unique index over committed and uncommitted jobs

`OneActive` is the index over the committed rows, and every operation of the queue keeps
it. `StorageOk` adds the rows of open transactions: they have ids of their own and are kept
apart from all others by the index as well.
-/

namespace IpDocket.Ops
open IpDocket.Lib

lemma sameDedupe_iff {r q : DurableJob} :
    sameDedupe r q ↔ r.dedupeKey.isSome ∧ r.dedupeKey = q.dedupeKey ∧ r.queue = q.queue ∧
      r.task = q.task ∧ r.status.active ∧ q.status.active := by
  simp [sameDedupe]

lemma sameDedupe_symm {r q : DurableJob} (h : sameDedupe r q) : sameDedupe q r := by
  obtain ⟨hsome, hkey, hqueue, htask, hr, hq⟩ := sameDedupe_iff.mp h
  exact sameDedupe_iff.mpr ⟨hkey ▸ hsome, hkey.symm, hqueue.symm, htask.symm, hq, hr⟩

/-- Rows that are both active before a change of other columns. -/
lemma sameDedupe_of_sameJob {r r' q q' : DurableJob} (hr : SameJob r' r) (hq : SameJob q' q)
    (hractive : r.status.active) (hqactive : q.status.active) (h : sameDedupe r' q') :
    sameDedupe r q := by
  obtain ⟨_, hrqueue, hrtask, _, hrkey, _⟩ := hr
  obtain ⟨_, hqqueue, hqtask, _, hqkey, _⟩ := hq
  obtain ⟨hsome, hkey, hqueue, htask, _, _⟩ := sameDedupe_iff.mp h
  rw [sameDedupe_iff, ← hrkey, ← hqkey, ← hrqueue, ← hqqueue, ← hrtask, ← hqtask]
  exact ⟨hsome, hkey, hqueue, htask, hractive, hqactive⟩

lemma dedupeConflict_iff {r : DurableJob} {jobs : JobTable} :
    dedupeConflict r jobs ↔ ∃ q ∈ jobs.rows, q.id ≠ r.id ∧ sameDedupe r q := by
  simp [dedupeConflict]

def OneActive (jobs : JobTable) : Prop :=
  ∀ r ∈ jobs.rows, ∀ q ∈ jobs.rows, sameDedupe r q → r.id = q.id

/-- A table in which only the row `k` may have become active, and it conflicts with none. -/
lemma OneActive.change {jobs jobs' : JobTable} (h : OneActive jobs) (k : Nat)
    (hrows : ∀ r' ∈ jobs'.rows, r'.id ≠ k →
      ∃ r ∈ jobs.rows, SameJob r' r ∧ (r'.status.active → r.status.active))
    (hk : ∀ r' ∈ jobs'.rows, r'.id = k → ∀ q' ∈ jobs'.rows, sameDedupe r' q' → q'.id = k) :
    OneActive jobs' := by
  intro r' hr' q' hq' hsame
  by_cases hrk : r'.id = k
  · rw [hrk, hk r' hr' hrk q' hq' hsame]
  · by_cases hqk : q'.id = k
    · exact absurd (hk q' hq' hqk r' hr' (sameDedupe_symm hsame)) hrk
    · obtain ⟨r, hr, hrsame, hractive⟩ := hrows r' hr' hrk
      obtain ⟨q, hq, hqsame, hqactive⟩ := hrows q' hq' hqk
      obtain ⟨_, _, _, _, hr1, hq1⟩ := sameDedupe_iff.mp hsame
      have hid := h r hr q hq (sameDedupe_of_sameJob hrsame hqsame (hractive hr1) (hqactive hq1) hsame)
      rw [hrsame.1, hqsame.1, hid]

lemma sameJob_refl (r : DurableJob) : SameJob r r := ⟨rfl, rfl, rfl, rfl, rfl, rfl⟩

lemma next_commitJob {loaded new : DurableJob} {jobs jobs' : JobTable}
    (h : commitJob loaded new jobs = .ok jobs') : jobs'.next = jobs.next := by
  obtain ⟨_, _, _, rfl⟩ := commitJob_ok h
  rfl

lemma find_commitJob_none {loaded new : DurableJob} {jobs jobs' : JobTable} {k : Nat}
    (h : commitJob loaded new jobs = .ok jobs') (hk : jobs.find k = none) : jobs'.find k = none := by
  obtain ⟨_, _, _, rfl⟩ := commitJob_ok h
  rw [find_updateJobs, hk, Option.map_none]

lemma next_commitMark (mark : LoadedJob) (jobs : JobTable) :
    (commitMark mark jobs).next = jobs.next := by
  unfold commitMark
  split
  · next hc => exact next_commitJob hc
  · rfl

lemma find_commitMark_none {mark : LoadedJob} {jobs : JobTable} {k : Nat}
    (hk : jobs.find k = none) : (commitMark mark jobs).find k = none := by
  unfold commitMark
  split
  · next hc => exact find_commitJob_none hc hk
  · exact hk

lemma oneActive_commitJob {loaded new : DurableJob} {jobs jobs' : JobTable} (h : OneActive jobs)
    (hc : commitJob loaded new jobs = .ok jobs') : OneActive jobs' := by
  obtain ⟨stored, hstored, hfree, rfl⟩ := commitJob_ok hc
  have hid := Table.key_of_find hstored
  have hkept : ∀ r' ∈ (updateJobs (fun q => q.id = loaded.id) (loaded.flush new)
      (id_flush loaded new) jobs).rows, r'.id ≠ loaded.id → r' ∈ jobs.rows := by
    intro r' hr' hne
    have hfind := Table.find_of_mem hr'
    rw [find_updateJobs_id, if_neg hne] at hfind
    exact Table.mem_of_find hfind
  refine h.change loaded.id ?_ ?_
  · intro r' hr' hne
    exact ⟨r', hkept r' hr' hne, sameJob_refl r', fun hactive => hactive⟩
  · intro r' hr' hk q' hq' hsame
    by_contra hne
    have hfind := Table.find_of_mem hr'
    rw [find_updateJobs_id, if_pos hk, hk, hstored, Option.map_some] at hfind
    rw [← Option.some.inj hfind] at hsame
    apply hfree
    rw [dedupeConflict_iff]
    exact ⟨q', hkept q' hq' hne, by rw [id_flush, hid]; exact hne, hsame⟩

lemma oneActive_commitMark {mark : LoadedJob} {jobs : JobTable} (h : OneActive jobs) :
    OneActive (commitMark mark jobs) := by
  unfold commitMark
  cases hc : commitJob mark.loaded mark.new jobs with
  | error e => exact h
  | ok jobs' => exact oneActive_commitJob h hc

lemma storage_commitStartup {loads : List LoadedJob} (jobs : JobTable) (h : OneActive jobs) :
    OneActive (commitStartup loads jobs) ∧ (commitStartup loads jobs).next = jobs.next := by
  unfold commitStartup
  cases hc : commitJobs loads jobs with
  | error e => exact ⟨h, rfl⟩
  | ok jobs' =>
    dsimp only
    induction loads generalizing jobs with
    | nil =>
      cases hc
      exact ⟨h, rfl⟩
    | cons l loads ih =>
      obtain ⟨mid, hfirst, hrest⟩ := commitJobs_cons hc
      obtain ⟨hone, hnext⟩ := ih mid (oneActive_commitJob h hfirst) hrest
      exact ⟨hone, hnext.trans (next_commitJob hfirst)⟩

/-- A change of a row other than a retry leaves its names and makes no row active. -/
lemma sameJob_rowStep {settings : QueueSettings} {a : QueueAction} {r r' : DurableJob}
    (hrow : RowStep settings a r r') :
    SameJob r' r ∧ (r'.status.active → r.status.active ∨ ∃ now, a = .retry r.id now) := by
  cases hrow with
  | keep => exact ⟨sameJob_refl r, .inl⟩
  | stale hstale =>
    refine ⟨⟨rfl, rfl, rfl, rfl, rfl, rfl⟩, fun _ => .inl ?_⟩
    rw [(of_decide_eq_true hstale).1]
    rfl
  | startup hlocked =>
    refine ⟨⟨rfl, rfl, rfl, rfl, rfl, rfl⟩, fun _ => .inl ?_⟩
    rw [(of_decide_eq_true hlocked).1]
    rfl
  | claim hqueued =>
    refine ⟨⟨rfl, rfl, rfl, rfl, rfl, rfl⟩, fun _ => .inl ?_⟩
    rw [hqueued]
    rfl
  | succeed _ =>
    refine ⟨sameJob_succeedJob _ r, ?_⟩
    intro hactive
    cases hactive
  | fail howns =>
    refine ⟨sameJob_failJob _ _ _ _ r, fun _ => .inl ?_⟩
    rw [(ownsJob_iff.mp howns).1]
    rfl
  | force _ =>
    refine ⟨⟨rfl, rfl, rfl, rfl, rfl, rfl⟩, ?_⟩
    intro hactive
    cases hactive
  | refresh _ => exact ⟨⟨rfl, rfl, rfl, rfl, rfl, rfl⟩, .inl⟩
  | retry => exact ⟨sameJob_retryJob _ r, fun _ => .inr ⟨_, rfl⟩⟩
  | cancel =>
    refine ⟨sameJob_cancelJob _ r, ?_⟩
    intro hactive
    cases hactive

lemma oneActive_insertJob {req : EnqueueRequest} {now : Time} {jobs : JobTable}
    (h : OneActive jobs) : OneActive (insertJob req now jobs).1 := by
  unfold insertJob
  split
  · exact h
  · next hfree =>
    have hmem : ∀ q ∈ (jobs.insert (req.job now) (id_job req now)).rows,
        q ∈ jobs.rows ∨ q = req.job now jobs.next := by
      intro q hq
      simpa [Table.insert] using hq
    refine h.change jobs.next ?_ ?_
    · intro r hr hne
      rcases hmem r hr with hold | rfl
      · exact ⟨r, hold, sameJob_refl r, fun hactive => hactive⟩
      · exact absurd rfl hne
    · intro r hr hk q hq hsame
      rcases hmem r hr with hold | rfl
      · have hlt := jobs.fresh r hold
        omega
      · rcases hmem q hq with hqold | rfl
        · exfalso
          apply hfree
          rw [dedupeConflict_iff]
          exact ⟨q, hqold, Nat.ne_of_lt (jobs.fresh q hqold), hsame⟩
        · rfl

lemma oneActive_retry {jobs : JobTable} {jobId : Nat} {now : Time} (h : OneActive jobs) :
    OneActive (afterCall jobs (retry jobId now jobs)) := by
  unfold retry editJob
  cases hfind : jobs.find jobId with
  | none => exact h
  | some job =>
    dsimp only
    cases hc : commitJob job (retryJob now job) jobs with
    | error e => exact h
    | ok jobs' => exact oneActive_commitJob h hc

lemma oneActive_queueStep {settings : QueueSettings} {a : QueueAction} {jobs jobs' : JobTable}
    (h : OneActive jobs) (hstep : queueStep settings jobs a = some jobs') : OneActive jobs' := by
  by_cases henqueue : ∃ req now, a = .enqueue req now
  · obtain ⟨req, now, rfl⟩ := henqueue
    cases hstep
    unfold enqueue
    cases req.find jobs with
    | some existing => exact h
    | none => exact oneActive_insertJob h
  by_cases hretry : ∃ jobId now, a = .retry jobId now
  · obtain ⟨jobId, now, rfl⟩ := hretry
    cases hstep
    exact oneActive_retry h
  -- every row comes from one that was active before
  have hrows : ∀ r' ∈ jobs'.rows,
      ∃ r ∈ jobs.rows, SameJob r' r ∧ (r'.status.active → r.status.active) := by
    intro r' hr'
    have hfind' := Table.find_of_mem hr'
    cases queueStep_find hstep r'.id with
    | absent _ hnone =>
      rw [hfind'] at hnone
      cases hnone
    | @changed r q hr hq hrow =>
      rw [hfind'] at hq
      cases hq
      obtain ⟨hsame, hactive⟩ := sameJob_rowStep hrow
      refine ⟨r, Table.mem_of_find hr, hsame, ?_⟩
      intro hr'active
      rcases hactive hr'active with hwas | ⟨now, ha⟩
      · exact hwas
      · exact absurd ⟨r.id, now, ha⟩ hretry
    | inserted ha _ _ _ => exact absurd ⟨_, _, ha⟩ henqueue
  -- no row has the id that comes next
  refine h.change jobs'.next (fun r' hr' _ => hrows r' hr') ?_
  intro r' hr' hk
  have hlt := jobs'.fresh r' hr'
  omega

/-- Apart from a new row with the next id, a step adds no row and takes back no id. -/
lemma next_queueStep {settings : QueueSettings} {a : QueueAction} {jobs jobs' : JobTable}
    (hstep : queueStep settings jobs a = some jobs') :
    jobs.next ≤ jobs'.next ∧ ∀ k < jobs.next, jobs.find k = none → jobs'.find k = none := by
  constructor
  · have hmark : ∀ mark, jobs.next ≤ (markStep jobs mark).next := by
      intro mark
      cases mark with
      | none => exact Nat.le_refl _
      | some mark => exact Nat.le_of_eq (next_commitMark mark jobs).symm
    have hedit : ∀ edit jobId, jobs.next ≤ (afterCall jobs (editJob edit jobId jobs)).next := by
      intro edit jobId
      unfold editJob
      split
      · exact Nat.le_refl _
      · split
        · next hc => exact Nat.le_of_eq (next_commitJob hc).symm
        · exact Nat.le_refl _
    cases a with
    | enqueue req now =>
      cases hstep
      unfold enqueue insertJob
      split
      · exact Nat.le_refl _
      · split <;> exact Nat.le_succ _
    | claim workerId queues now =>
      cases hstep
      unfold claimSelect
      split <;> exact Nat.le_refl _
    | markSucceeded workerId jobId now =>
      cases hstep
      exact hmark _
    | markFailed workerId jobId err traceback now =>
      cases hstep
      exact hmark _
    | retry jobId now =>
      cases hstep
      exact hedit _ _
    | cancel jobId now =>
      cases hstep
      exact hedit _ _
    | _ =>
      cases hstep
      exact Nat.le_refl _
  · intro k hk hnone
    cases queueStep_find hstep k with
    | absent _ hnone' => exact hnone'
    | changed hr _ _ =>
      rw [hnone] at hr
      cases hr
    | inserted _ hnext _ _ => omega

/-! ### Rows of open transactions -/

/-- The committed rows `jobs` and the uncommitted rows `us` of all sessions. -/
structure StorageOk (jobs : JobTable) (us : List DurableJob) : Prop where
  absent : ∀ u ∈ us, jobs.find u.id = none
  fresh : ∀ u ∈ us, u.id < jobs.next
  apart : us.Pairwise (fun u v => u.id ≠ v.id)
  one : ∀ r q, r ∈ jobs.rows ∨ r ∈ us → q ∈ jobs.rows ∨ q ∈ us → sameDedupe r q → r.id = q.id

namespace StorageOk

variable {jobs jobs' : JobTable} {us us' own others : List DurableJob}

lemma perm (h : StorageOk jobs us) (hperm : us.Perm us') : StorageOk jobs us' where
  absent u hu := h.absent u (hperm.mem_iff.mpr hu)
  fresh u hu := h.fresh u (hperm.mem_iff.mpr hu)
  apart := (hperm.pairwise_iff (fun hne => Ne.symm hne)).mp h.apart
  one r q hr hq hsame :=
    h.one r q (hr.imp_right hperm.mem_iff.mpr) (hq.imp_right hperm.mem_iff.mpr) hsame

lemma oneActive (h : StorageOk jobs us) : OneActive jobs := by
  intro r hr q hq hsame
  exact h.one r q (.inl hr) (.inl hq) hsame

/-- Rows are rolled back, and ids may have been taken from the sequence. -/
lemma sub (h : StorageOk jobs us) (hrows : jobs'.rows = jobs.rows) (hnext : jobs.next ≤ jobs'.next)
    (hsub : us'.Sublist us) : StorageOk jobs' us' where
  absent u hu := by
    have hnone := h.absent u (hsub.subset hu)
    simp only [Table.find] at hnone ⊢
    rw [hrows, hnone]
  fresh u hu := Nat.lt_of_lt_of_le (h.fresh u (hsub.subset hu)) hnext
  apart := h.apart.sublist hsub
  one r q hr hq hsame := by
    rw [hrows] at hr hq
    exact h.one r q (hr.imp_right (hsub.subset ·)) (hq.imp_right (hsub.subset ·)) hsame

/-- One row becomes part of the table. -/
lemma put {u : DurableJob} (h : StorageOk jobs (u :: us)) : StorageOk (jobs.put u) us := by
  have hput : ∀ q, q ∈ (jobs.put u).rows → q ∈ jobs.rows ∨ q ∈ u :: us := by
    intro q hq
    rcases Table.mem_put.mp hq with rfl | ⟨hq, _⟩
    · exact .inr List.mem_cons_self
    · exact .inl hq
  have hlift : ∀ q, q ∈ (jobs.put u).rows ∨ q ∈ us → q ∈ jobs.rows ∨ q ∈ u :: us := by
    rintro q (hq | hq)
    · exact hput q hq
    · exact .inr (List.mem_cons_of_mem _ hq)
  have hapart := List.pairwise_cons.mp h.apart
  constructor
  · intro v hv
    cases hfind : (jobs.put u).find v.id with
    | none => rfl
    | some q =>
      obtain ⟨hq, hid⟩ := Table.find_eq_some.mp hfind
      rcases Table.mem_put.mp hq with rfl | ⟨hq, _⟩
      · exact absurd hid (hapart.1 v hv)
      · have hsome := Table.find_of_mem hq
        rw [hid, h.absent v (List.mem_cons_of_mem _ hv)] at hsome
        cases hsome
  · intro v hv
    have hlt := h.fresh v (List.mem_cons_of_mem _ hv)
    simp only [Table.put]
    omega
  · exact hapart.2
  · intro r q hr hq hsame
    exact h.one r q (hlift r hr) (hlift q hq) hsame

/-- A session commits its rows. -/
lemma publish (h : StorageOk jobs (own ++ others)) : StorageOk (own.foldl Table.put jobs) others := by
  induction own generalizing jobs with
  | nil => exact h
  | cons u own ih => exact ih h.put

/-- What the session sees. -/
lemma mem_view (h : StorageOk jobs (own ++ others)) {r : DurableJob} :
    r ∈ (own.foldl Table.put jobs).rows ↔ r ∈ own ∨ r ∈ jobs.rows := by
  induction own generalizing jobs with
  | nil => simp
  | cons u own ih =>
    rw [List.foldl_cons, ih h.put, Table.mem_put, List.mem_cons]
    constructor
    · rintro (hr | rfl | ⟨hr, _⟩)
      · exact .inl (.inr hr)
      · exact .inl (.inl rfl)
      · exact .inr hr
    · rintro ((rfl | hr) | hr)
      · exact .inr (.inl rfl)
      · exact .inl hr
      · refine .inr (.inr ⟨hr, ?_⟩)
        intro hid
        have hsome := Table.find_of_mem hr
        rw [hid, h.absent u List.mem_cons_self] at hsome
        cases hsome

/-- A session inserts a row that conflicts with nothing. -/
lemma insert {job : DurableJob} (h : StorageOk jobs (own ++ others)) (hid : job.id = jobs.next)
    (hothers : ¬others.any (sameDedupe job)) (hview : ¬dedupeConflict job (own.foldl Table.put jobs)) :
    StorageOk jobs.burn ((own ++ [job]) ++ others) := by
  have hfree : ∀ q, q ∈ jobs.rows ∨ q ∈ own ++ others → ¬sameDedupe job q := by
    intro q hq hsame
    have hlt : q.id < jobs.next := hq.elim (jobs.fresh q) (h.fresh q)
    by_cases hmem : q ∈ others
    · apply hothers
      rw [List.any_eq_true]
      exact ⟨q, hmem, hsame⟩
    · apply hview
      rw [dedupeConflict_iff]
      refine ⟨q, h.mem_view.mpr ?_, by omega, hsame⟩
      rcases hq with hq | hq
      · exact .inr hq
      · exact .inl ((List.mem_append.mp hq).resolve_right hmem)
  have hall : StorageOk jobs.burn (job :: (own ++ others)) := by
    constructor
    · intro u hu
      rcases List.mem_cons.mp hu with rfl | hu
      · rw [hid]
        exact Table.find_next
      · exact h.absent u hu
    · intro u hu
      rcases List.mem_cons.mp hu with rfl | hu
      · rw [hid]
        exact Nat.lt_succ_self _
      · exact Nat.lt_succ_of_lt (h.fresh u hu)
    · rw [List.pairwise_cons]
      refine ⟨?_, h.apart⟩
      intro u hu
      have hlt := h.fresh u hu
      omega
    · have hcases : ∀ q, q ∈ jobs.rows ∨ q ∈ job :: (own ++ others) →
          q = job ∨ (q ∈ jobs.rows ∨ q ∈ own ++ others) := by
        intro q hq
        rw [List.mem_cons] at hq
        grind
      intro r q hr hq hsame
      rcases hcases r hr with rfl | hrold
      · rcases hcases q hq with rfl | hqold
        · rfl
        · exact absurd hsame (hfree q hqold)
      · rcases hcases q hq with rfl | hqold
        · exact absurd (sameDedupe_symm hsame) (hfree r hrold)
        · exact h.one r q hrold hqold hsame
  apply hall.perm
  rw [List.append_assoc, List.singleton_append]
  exact List.perm_middle.symm

/-- A commit of another session that waits for no open transaction. -/
lemma table (h : StorageOk jobs us) (hone : OneActive jobs') (hnext : jobs.next ≤ jobs'.next)
    (hnone : ∀ k < jobs.next, jobs.find k = none → jobs'.find k = none)
    (hwaits : ∀ r ∈ jobs'.rows, ∀ u ∈ us, ¬sameDedupe r u) : StorageOk jobs' us where
  absent u hu := hnone u.id (h.fresh u hu) (h.absent u hu)
  fresh u hu := Nat.lt_of_lt_of_le (h.fresh u hu) hnext
  apart := h.apart
  one r q hr hq hsame := by
    rcases hr with hr | hr
    · rcases hq with hq | hq
      · exact hone r hr q hq hsame
      · exact absurd hsame (hwaits r hr q hq)
    · rcases hq with hq | hq
      · exact absurd (sameDedupe_symm hsame) (hwaits q hq r hr)
      · exact h.one r q (.inr hr) (.inr hq) hsame

end StorageOk

end IpDocket.Ops
