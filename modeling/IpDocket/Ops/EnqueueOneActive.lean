import IpDocket.Ops.EnqueueStorage

/-!
# One active job for each key

The unique index holds over the committed rows and the rows that sessions have flushed,
and every statement keeps it. What a losing call leaves behind depends on the session it
ran in: `enqueue` rolls that session back and with it everything its caller had flushed.
-/

namespace IpDocket.Ops
open IpDocket.Lib

section Sessions

variable {settings : QueueSettings} {s s' : ProducerState} {i : Nat} {p p' : ProducerSession}

lemma producerStep_advance {now : Time} (h : producerStep settings s (.advance i now) = some s') :
    ∃ p c, s.sessions[i]? = some p ∧ p.call = some c ∧
      ∃ r, c.advance p.transaction (s.others i) now s.lease.jobs = some r ∧
        (s.set i r.1 (p.after r.2.1 r.2.2)).drain (c.drained r.2.2 p.transaction) = s' := by
  simp only [producerStep] at h
  split at h
  · cases h
  · next p hp =>
    split at h
    · cases h
    · next c hc => exact ⟨p, c, hp, hc, Option.map_eq_some_iff.mp h⟩

lemma producerStep_fail (h : producerStep settings s (.fail i) = some s') :
    ∃ p c, s.sessions[i]? = some p ∧ p.call = some c ∧ c.phase = .insert ∧
      s' = s.set i s.lease.jobs (p.after .empty { c with phase := .raised }) := by
  simp only [producerStep] at h
  split at h
  · cases h
  · next p hp =>
    split at h
    · cases h
    · next c hc =>
      split at h
      · next hphase =>
        cases h
        exact ⟨p, c, hp, hc, hphase, rfl⟩
      · cases h

lemma producerStep_editCommit (h : producerStep settings s (.editCommit i) = some s') :
    ∃ job, (s.edits[i]?).bind AdminEdit.loaded = some job ∧
      ((∃ e, commitJob job.loaded job.new s.lease.jobs = .error e ∧
        s' = { s with edits := s.edits.set i (.refused e) }) ∨
      ∃ jobs, commitJob job.loaded job.new s.lease.jobs = .ok jobs ∧ ¬s.waits jobs = true ∧
        s' = { s with
          lease := { s.lease with jobs := jobs }
          edits := s.edits.set i .committed }) := by
  simp only [producerStep] at h
  split at h
  · cases h
  · next job hjob =>
    refine ⟨job, hjob, ?_⟩
    split at h
    · next e hc =>
      cases h
      exact .inl ⟨e, hc, rfl⟩
    · next jobs hc =>
      split at h
      · cases h
      · next hwaits =>
        cases h
        exact .inr ⟨jobs, hc, hwaits, rfl⟩

lemma uncommitted_perm (hp : s.sessions[i]? = some p) :
    s.uncommitted.Perm (p.transaction.jobs ++ s.others i) := by
  have hperm := (perm_cons_eraseIdx hp).flatMap_right (fun p => p.transaction.jobs)
  rwa [List.flatMap_cons] at hperm

lemma storageOk_set {jobs : JobTable} (hp : s.sessions[i]? = some p)
    (h : StorageOk jobs (p'.transaction.jobs ++ s.others i)) :
    StorageOk (s.set i jobs p').lease.jobs (s.set i jobs p').uncommitted := by
  have hget : (s.set i jobs p').sessions[i]? = some p' :=
    List.getElem?_set_self (List.getElem?_eq_some_iff.mp hp).1
  have hothers : (s.set i jobs p').others i = s.others i := by
    simp only [ProducerState.others, ProducerState.set, List.eraseIdx_set_eq]
  apply h.perm
  rw [← hothers]
  exact (uncommitted_perm hget).symm

lemma storageOk_session (h : StorageOk s.lease.jobs s.uncommitted) (hp : s.sessions[i]? = some p) :
    StorageOk s.lease.jobs (p.transaction.jobs ++ s.others i) :=
  h.perm (uncommitted_perm hp)

lemma storageOk_advance {c c' : SessionCall} {t t' : Transaction} {others : List DurableJob}
    {now : Time} {jobs jobs' : JobTable} (h : StorageOk jobs (t.jobs ++ others))
    (hadvance : c.advance t others now jobs = some (jobs', t', c')) :
    StorageOk jobs' (t'.jobs ++ others) := by
  unfold SessionCall.advance at hadvance
  split at hadvance
  · split at hadvance <;> cases hadvance <;> exact h
  · dsimp only at hadvance
    split at hadvance
    · cases hadvance
    · next hothers =>
      split at hadvance
      · cases hadvance
        exact h.sub rfl (Nat.le_succ _) (List.sublist_append_right _ _)
      · next hview =>
        have hinsert := h.insert (id_job c.req now jobs.next) hothers hview
        split at hadvance
        · cases hadvance
          exact hinsert.publish
        · cases hadvance
          exact hinsert
  · split at hadvance <;> cases hadvance <;> exact h
  · cases hadvance
  · cases hadvance

lemma jobs_after (t : Transaction) (c : SessionCall) :
    (p.after t c).transaction.jobs.Sublist t.jobs := by
  have hclose : (if p.owned then Transaction.empty else t).jobs.Sublist t.jobs := by
    split
    · exact List.nil_sublist _
    · exact List.Sublist.refl _
  unfold ProducerSession.after
  dsimp only
  split
  · exact hclose
  · exact hclose
  · exact List.Sublist.refl _

lemma storageOk_after {t : Transaction} {c : SessionCall} {jobs : JobTable}
    (hp : s.sessions[i]? = some p) (h : StorageOk jobs (t.jobs ++ s.others i)) :
    StorageOk (s.set i jobs (p.after t c)).lease.jobs (s.set i jobs (p.after t c)).uncommitted :=
  storageOk_set hp (h.sub rfl (Nat.le_refl _) ((jobs_after t c).append_right _))

lemma idle_eq_some (h : s.idle i = some p) :
    s.sessions[i]? = some p ∧ p.owned = false ∧ p.call = none := by
  obtain ⟨hp, hidle⟩ := Option.filter_eq_some_iff.mp h
  simpa [hp] using hidle

/-- New sessions have nothing uncommitted. -/
lemma storageOk_open {qs : List ProducerSession} (h : StorageOk s.lease.jobs s.uncommitted)
    (hqs : ∀ q ∈ qs, q.transaction = .empty) :
    StorageOk s.lease.jobs ({ s with sessions := s.sessions ++ qs } : ProducerState).uncommitted := by
  have hnone : qs.flatMap (fun q => q.transaction.jobs) = [] := by
    rw [List.flatMap_eq_nil_iff]
    intro q hq
    rw [hqs q hq]
    rfl
  have hsame : ({ s with sessions := s.sessions ++ qs } : ProducerState).uncommitted =
      s.uncommitted := by
    simp only [ProducerState.uncommitted, List.flatMap_append, hnone, List.append_nil]
  rw [hsame]
  exact h

lemma storageOk_drain {staged : List EnqueueRequest} (h : StorageOk s.lease.jobs s.uncommitted) :
    StorageOk (s.drain staged).lease.jobs (s.drain staged).uncommitted := by
  apply storageOk_open h
  intro q hq
  obtain ⟨req, -, rfl⟩ := List.mem_map.mp hq
  rfl

lemma not_sameDedupe_of_not_waits {jobs : JobTable} (h : ¬s.waits jobs = true) :
    ∀ r ∈ jobs.rows, ∀ u ∈ s.uncommitted, ¬sameDedupe r u := by
  intro r hr u hu hsame
  apply h
  simp only [ProducerState.waits, List.any_eq_true]
  exact ⟨r, hr, u, hu, hsame⟩

lemma storageOk_lease {a : LeaseAction} {lease : LeaseState}
    (h : StorageOk s.lease.jobs s.uncommitted) (hstep : leaseStep settings s.lease a = some lease)
    (hwaits : ¬s.waits lease.jobs = true) : StorageOk lease.jobs s.uncommitted := by
  have hfree := not_sameDedupe_of_not_waits hwaits
  cases a with
  | op a =>
    obtain ⟨_, jobs, hq, rfl⟩ := leaseStep_op hstep
    obtain ⟨hnext, hnone⟩ := next_queueStep hq
    exact h.table (oneActive_queueStep h.oneActive hq) hnext hnone hfree
  | markSucceededRead w jobId now =>
    rw [(read_eq_some hstep).1]
    exact h
  | markFailedRead w jobId err traceback now =>
    rw [(read_eq_some hstep).1]
    exact h
  | markCommit w =>
    obtain ⟨mark, _, _, rfl⟩ := leaseStep_commit hstep
    refine h.table (oneActive_commitMark h.oneActive) ?_ ?_ hfree
    · exact Nat.le_of_eq (next_commitMark mark.2 s.lease.jobs).symm
    · intro k _ hnone
      exact find_commitMark_none hnone
  | startupRead socketHostname workerId queues now =>
    cases hstep
    exact h
  | startupCommit i =>
    obtain ⟨loads, _, rfl⟩ := leaseStep_startupCommit hstep
    obtain ⟨hone, hnext⟩ := @storage_commitStartup loads s.lease.jobs h.oneActive
    refine h.table hone (Nat.le_of_eq hnext.symm) ?_ hfree
    intro k _ hnone
    exact (@find_commitStartup loads k (fun _ => True) s.lease.jobs (fun _ _ _ _ => id)).1 hnone
  | crash w =>
    cases hstep
    exact h

lemma storageOk_step {a : ProducerAction} (h : StorageOk s.lease.jobs s.uncommitted)
    (hstep : producerStep settings s a = some s') : StorageOk s'.lease.jobs s'.uncommitted := by
  cases a with
  | lease a =>
    simp only [producerStep] at hstep
    split at hstep
    · cases hstep
    · next lease hlease =>
      split at hstep
      · cases hstep
      · next hwaits =>
        cases hstep
        have hlater := storageOk_lease h hlease hwaits
        exact hlater
  | openSession =>
    cases hstep
    exact storageOk_open h (fun q hq => (List.mem_singleton.mp hq) ▸ rfl)
  | write i change =>
    obtain ⟨p, hidle, rfl⟩ := Option.map_eq_some_iff.mp hstep
    have hp := (idle_eq_some hidle).1
    have hsession := storageOk_session h hp
    exact storageOk_set hp hsession
  | stage i req =>
    obtain ⟨p, hidle, rfl⟩ := Option.map_eq_some_iff.mp hstep
    have hp := (idle_eq_some hidle).1
    have hsession := storageOk_session h hp
    exact storageOk_set hp hsession
  | commit i =>
    obtain ⟨p, hidle, rfl⟩ := Option.map_eq_some_iff.mp hstep
    have hp := (idle_eq_some hidle).1
    exact storageOk_drain (storageOk_set hp (storageOk_session h hp).publish)
  | rollback i =>
    obtain ⟨p, hidle, rfl⟩ := Option.map_eq_some_iff.mp hstep
    have hp := (idle_eq_some hidle).1
    refine storageOk_set hp ((storageOk_session h hp).sub rfl (Nat.le_refl _) ?_)
    exact List.sublist_append_right _ _
  | beginOwned req commit =>
    cases hstep
    exact storageOk_open h (fun q hq => (List.mem_singleton.mp hq) ▸ rfl)
  | begin i req commit =>
    obtain ⟨p, hidle, rfl⟩ := Option.map_eq_some_iff.mp hstep
    have hp := (idle_eq_some hidle).1
    have hsession := storageOk_session h hp
    exact storageOk_set hp hsession
  | advance i now =>
    obtain ⟨p, c, hp, _, ⟨jobs, t, c'⟩, hadvance, rfl⟩ := producerStep_advance hstep
    exact storageOk_drain (storageOk_after hp (storageOk_advance (storageOk_session h hp) hadvance))
  | fail i =>
    obtain ⟨p, c, hp, _, _, rfl⟩ := producerStep_fail hstep
    refine storageOk_after hp ((storageOk_session h hp).sub rfl (Nat.le_refl _) ?_)
    exact List.sublist_append_right _ _
  | retryRead jobId now =>
    obtain ⟨job, _, rfl⟩ := Option.map_eq_some_iff.mp hstep
    exact h
  | cancelRead jobId now =>
    obtain ⟨job, _, rfl⟩ := Option.map_eq_some_iff.mp hstep
    exact h
  | editCommit i =>
    obtain ⟨job, _, ⟨e, _, rfl⟩ | ⟨jobs, hc, hwaits, rfl⟩⟩ := producerStep_editCommit hstep
    · exact h
    · refine h.table (oneActive_commitJob h.oneActive hc) ?_ ?_ (not_sameDedupe_of_not_waits hwaits)
      · exact Nat.le_of_eq (next_commitJob hc).symm
      · intro k _ hnone
        exact find_commitJob_none hc hnone

/-! ### What a losing call leaves -/

lemma find_active {req : EnqueueRequest} {jobs : JobTable} {r : DurableJob}
    (h : req.find jobs = some r) : r.status.active ∧ req.names r := by
  unfold EnqueueRequest.find findExistingDedupedJob at h
  cases hkey : req.cleanDedupeKey with
  | none =>
    rw [hkey] at h
    cases h
  | some key =>
    rw [hkey] at h
    have hp := List.find?_some h
    simp only [decide_eq_true_eq] at hp
    obtain ⟨hqueue, htask, hdedupe, hactive⟩ := hp
    exact ⟨hactive, by simp [EnqueueRequest.names, hqueue, htask, hdedupe, hkey]⟩

lemma find_isSome_of_active {req : EnqueueRequest} {jobs : JobTable}
    (hkey : req.cleanDedupeKey.isSome)
    (h : jobs.rows.any (fun r => req.names r && r.status.active)) : (req.find jobs).isSome := by
  obtain ⟨key, hkey⟩ := Option.isSome_iff_exists.mp hkey
  obtain ⟨r, hr, hactive⟩ := List.any_eq_true.mp h
  unfold EnqueueRequest.find findExistingDedupedJob
  rw [hkey]
  dsimp only
  rw [List.find?_isSome]
  refine ⟨r, hr, ?_⟩
  simpa [EnqueueRequest.names, hkey, and_assoc] using hactive

/-- A call that has not returned: nothing in its session has changed since it began. -/
structure CallOk (p : ProducerSession) (c : SessionCall) : Prop where
  before : c.before = p.transaction
  owned : p.owned → p.transaction = .empty
  waiting : (c.phase = .lookup ∨ c.phase = .insert) ∧ c.lost = false ∨
    c.phase = .lookupAgain ∧ p.transaction = .empty ∧ c.req.cleanDedupeKey.isSome

structure SessionOk (p : ProducerSession) : Prop where
  kept : ∀ c ∈ p.ended, c.lost → c.Kept
  calling : ∀ c, p.call = some c → CallOk p c

lemma kept_append {p : ProducerSession} (h : SessionOk p) {c : SessionCall}
    (hc : c.lost → c.Kept) : ∀ d ∈ p.ended ++ [c], d.lost → d.Kept := by
  intro d hd
  rcases List.mem_append.mp hd with hold | hnew
  · exact h.kept d hold
  · rw [List.mem_singleton.mp hnew]
    exact hc

/-- The call returns. -/
lemma sessionOk_returned {p : ProducerSession} (h : SessionOk p) {t : Transaction} {c : SessionCall}
    {job : DurableJob} (hphase : c.phase = .returned job)
    (hkept : c.lost → job.status.active ∧ c.req.names job ∧
      (if p.owned then .empty else t) = c.before) : SessionOk (p.after t c) := by
  unfold ProducerSession.after
  rw [hphase]
  constructor
  · apply kept_append h
    intro hlost
    obtain ⟨hactive, hnames, hbefore⟩ := hkept hlost
    exact ⟨⟨job, rfl, hactive, hnames⟩, hbefore⟩
  · intro d hd
    cases hd

/-- The call raises without having lost. -/
lemma sessionOk_raised {p : ProducerSession} (h : SessionOk p) {t : Transaction} {c : SessionCall}
    (hphase : c.phase = .raised) (hlost : c.lost = false) : SessionOk (p.after t c) := by
  unfold ProducerSession.after
  rw [hphase]
  constructor
  · apply kept_append h
    intro hyes
    rw [hlost] at hyes
    cases hyes
  · intro d hd
    cases hd

lemma sessionOk_calling {p : ProducerSession} (h : SessionOk p) {t : Transaction} {c : SessionCall}
    (hc : CallOk { p with transaction := t } c) : SessionOk (p.after t c) := by
  have hafter : p.after t c = { p with transaction := t, call := some c } := by
    unfold ProducerSession.after
    rcases hc.waiting with ⟨hphase | hphase, _⟩ | ⟨hphase, _⟩ <;> rw [hphase]
  rw [hafter]
  refine ⟨h.kept, ?_⟩
  intro d hd
  cases hd
  exact ⟨hc.before, hc.owned, hc.waiting⟩

/-- A session that a call has just opened. -/
lemma sessionOk_opened (req : EnqueueRequest) (commit : Bool) : SessionOk (.opened req commit) := by
  refine ⟨(by simp [ProducerSession.opened]), ?_⟩
  intro c hc
  cases hc
  exact ⟨rfl, fun _ => rfl, .inl ⟨.inl rfl, rfl⟩⟩

lemma sessionOk_drain {staged : List EnqueueRequest} (hall : ∀ p ∈ s.sessions, SessionOk p) :
    ∀ p ∈ (s.drain staged).sessions, SessionOk p := by
  intro p hp
  rcases List.mem_append.mp hp with hold | hnew
  · exact hall p hold
  · obtain ⟨req, -, rfl⟩ := List.mem_map.mp hnew
    exact sessionOk_opened req true

lemma isSome_key_of_conflict {req : EnqueueRequest} {now : Time} {k : Nat} {jobs : JobTable}
    (h : dedupeConflict (req.job now k) jobs) : req.cleanDedupeKey.isSome := by
  obtain ⟨q, _, _, hsame⟩ := dedupeConflict_iff.mp h
  exact (sameDedupe_iff.mp hsame).1

lemma sessionOk_insert {p : ProducerSession} {c c' : SessionCall} {t' : Transaction}
    {others : List DurableJob} {now : Time} {jobs jobs' : JobTable} (h : SessionOk p)
    (hc : CallOk p c) (hphase : c.phase = .insert)
    (hguard : dedupeConflict (c.req.job now jobs.next) (p.transaction.view jobs) →
      p.owned ∨ p.transaction = .empty)
    (hadvance : c.advance p.transaction others now jobs = some (jobs', t', c')) :
    SessionOk (p.after t' c') := by
  have hlost : c.lost = false := by
    rcases hc.waiting with ⟨_, hlost⟩ | ⟨hagain, _⟩
    · exact hlost
    · rw [hphase] at hagain
      cases hagain
  unfold SessionCall.advance at hadvance
  rw [hphase] at hadvance
  dsimp only at hadvance
  split at hadvance
  · cases hadvance
  · split at hadvance
    · next hconflict =>
      have hkey := isSome_key_of_conflict hconflict
      have hempty : p.transaction = .empty := (hguard hconflict).elim hc.owned id
      have hnone : ¬c.req.cleanDedupeKey.isNone = true := by
        rw [← Option.not_isSome, hkey]
        simp
      rw [if_neg hnone] at hadvance
      cases hadvance
      apply sessionOk_calling h
      exact ⟨hc.before.trans hempty, fun _ => rfl, .inr ⟨rfl, rfl, hkey⟩⟩
    · split at hadvance
      · cases hadvance
        exact sessionOk_returned h rfl (fun hyes => by rw [hlost] at hyes; cases hyes)
      · cases hadvance
        exact sessionOk_returned h rfl (fun hyes => by rw [hlost] at hyes; cases hyes)

lemma sessionOk_lookup {p : ProducerSession} {c c' : SessionCall} {t' : Transaction}
    {others : List DurableJob} {now : Time} {jobs jobs' : JobTable} (h : SessionOk p)
    (hc : CallOk p c) (hphase : c.phase = .lookup)
    (hadvance : c.advance p.transaction others now jobs = some (jobs', t', c')) :
    SessionOk (p.after t' c') := by
  have hlost : c.lost = false := by
    rcases hc.waiting with ⟨_, hlost⟩ | ⟨hagain, _⟩
    · exact hlost
    · rw [hphase] at hagain
      cases hagain
  unfold SessionCall.advance at hadvance
  rw [hphase] at hadvance
  dsimp only at hadvance
  split at hadvance
  · cases hadvance
    exact sessionOk_returned h rfl (fun hyes => by rw [hlost] at hyes; cases hyes)
  · cases hadvance
    apply sessionOk_calling h
    exact ⟨hc.before, hc.owned, .inl ⟨.inr rfl, hlost⟩⟩

lemma sessionOk_lookupAgain {p : ProducerSession} {c c' : SessionCall} {t' : Transaction}
    {others : List DurableJob} {now : Time} {jobs jobs' : JobTable} (h : SessionOk p)
    (hc : CallOk p c) (hphase : c.phase = .lookupAgain)
    (hguard : jobs.rows.any (fun r => c.req.names r && r.status.active))
    (hadvance : c.advance p.transaction others now jobs = some (jobs', t', c')) :
    SessionOk (p.after t' c') := by
  have hwaiting : p.transaction = .empty ∧ c.req.cleanDedupeKey.isSome := by
    rcases hc.waiting with ⟨hfirst | hfirst, _⟩ | ⟨_, hempty, hkey⟩
    · rw [hphase] at hfirst
      cases hfirst
    · rw [hphase] at hfirst
      cases hfirst
    · exact ⟨hempty, hkey⟩
  obtain ⟨hempty, hkey⟩ := hwaiting
  have hview : p.transaction.view jobs = jobs := by
    rw [hempty]
    rfl
  obtain ⟨existing, hfind⟩ := Option.isSome_iff_exists.mp (find_isSome_of_active hkey hguard)
  unfold SessionCall.advance at hadvance
  rw [hphase, hview, hfind] at hadvance
  cases hadvance
  apply sessionOk_returned h rfl
  intro _
  obtain ⟨hactive, hnames⟩ := find_active hfind
  refine ⟨hactive, hnames, ?_⟩
  rw [hc.before, hempty, ite_self]

lemma sessionOk_advance {now : Time} (hall : ∀ p ∈ s.sessions, SessionOk p)
    (hguard : losesNothing s (.advance i now))
    (hstep : producerStep settings s (.advance i now) = some s') :
    ∀ p ∈ s'.sessions, SessionOk p := by
  obtain ⟨p, c, hp, hcall, ⟨jobs, t, c'⟩, hadvance, rfl⟩ := producerStep_advance hstep
  have h := hall p (List.mem_of_getElem? hp)
  have hc := h.calling c hcall
  simp only [losesNothing, hp, hcall, Option.all_some] at hguard
  have hnew : SessionOk (p.after t c') := by
    cases hphase : c.phase with
    | lookup => exact sessionOk_lookup h hc hphase hadvance
    | insert =>
      rw [hphase] at hguard
      refine sessionOk_insert h hc hphase ?_ hadvance
      intro hconflict
      simpa [hconflict] using hguard
    | lookupAgain =>
      rw [hphase] at hguard
      exact sessionOk_lookupAgain h hc hphase hguard hadvance
    | returned job =>
      unfold SessionCall.advance at hadvance
      rw [hphase] at hadvance
      cases hadvance
    | raised =>
      unfold SessionCall.advance at hadvance
      rw [hphase] at hadvance
      cases hadvance
  apply sessionOk_drain
  intro q hq
  rcases List.mem_or_eq_of_mem_set hq with hold | rfl
  · exact hall q hold
  · exact hnew

lemma sessionOk_step {a : ProducerAction} (hall : ∀ p ∈ s.sessions, SessionOk p)
    (hguard : losesNothing s a) (hstep : producerStep settings s a = some s') :
    ∀ p ∈ s'.sessions, SessionOk p := by
  -- a session that moves while it is idle
  have hset : ∀ {i jobs p'}, SessionOk p' → ∀ p ∈ (s.set i jobs p').sessions, SessionOk p := by
    intro i jobs p' hp' p hp
    rcases List.mem_or_eq_of_mem_set hp with hold | rfl
    · exact hall p hold
    · exact hp'
  have hadd : ∀ {q}, SessionOk q → ∀ p ∈ s.sessions ++ [q], SessionOk p := by
    intro q hq p hp
    rcases List.mem_append.mp hp with hold | hnew
    · exact hall p hold
    · rw [List.mem_singleton.mp hnew]
      exact hq
  have hidle : ∀ {i p}, s.idle i = some p → ∀ t, SessionOk { p with transaction := t } := by
    intro i p hp t
    obtain ⟨hget, _, hcall⟩ := idle_eq_some hp
    refine ⟨(hall p (List.mem_of_getElem? hget)).kept, ?_⟩
    intro c hc
    rw [show p.call = some c from hc] at hcall
    cases hcall
  cases a with
  | lease a =>
    simp only [producerStep] at hstep
    split at hstep
    · cases hstep
    · split at hstep
      · cases hstep
      · cases hstep
        exact hall
  | openSession =>
    cases hstep
    exact hadd ⟨(by simp), (by simp)⟩
  | write i change =>
    obtain ⟨p, hp, rfl⟩ := Option.map_eq_some_iff.mp hstep
    exact hset (hidle hp _)
  | stage i req =>
    obtain ⟨p, hp, rfl⟩ := Option.map_eq_some_iff.mp hstep
    exact hset (hidle hp _)
  | commit i =>
    obtain ⟨p, hp, rfl⟩ := Option.map_eq_some_iff.mp hstep
    exact sessionOk_drain (hset (hidle hp _))
  | rollback i =>
    obtain ⟨p, hp, rfl⟩ := Option.map_eq_some_iff.mp hstep
    exact hset (hidle hp _)
  | beginOwned req commit =>
    cases hstep
    exact hadd (sessionOk_opened req _)
  | begin i req commit =>
    obtain ⟨p, hp, rfl⟩ := Option.map_eq_some_iff.mp hstep
    obtain ⟨hget, howned, _⟩ := idle_eq_some hp
    refine hset ⟨(hall p (List.mem_of_getElem? hget)).kept, ?_⟩
    intro c hc
    cases hc
    refine ⟨rfl, ?_, .inl ⟨.inl rfl, rfl⟩⟩
    intro hyes
    rw [show p.owned = true from hyes] at howned
    cases howned
  | advance i now => exact sessionOk_advance hall hguard hstep
  | fail i =>
    obtain ⟨p, c, hp, hcall, hphase, rfl⟩ := producerStep_fail hstep
    have h := hall p (List.mem_of_getElem? hp)
    apply hset
    refine sessionOk_raised h rfl ?_
    rcases (h.calling c hcall).waiting with ⟨_, hlost⟩ | ⟨hagain, _⟩
    · exact hlost
    · rw [hphase] at hagain
      cases hagain
  | retryRead jobId now =>
    obtain ⟨job, _, rfl⟩ := Option.map_eq_some_iff.mp hstep
    exact hall
  | cancelRead jobId now =>
    obtain ⟨job, _, rfl⟩ := Option.map_eq_some_iff.mp hstep
    exact hall
  | editCommit i =>
    obtain ⟨job, _, ⟨e, _, rfl⟩ | ⟨jobs, _, _, rfl⟩⟩ := producerStep_editCommit hstep
    · exact hall
    · exact hall

def RetriesQueue (s : ProducerState) : Prop :=
  ∀ job, AdminEdit.retryLoaded job ∈ s.edits → job.new.status = .queued

lemma retriesQueue_step {a : ProducerAction} (h : RetriesQueue s)
    (hstep : producerStep settings s a = some s') : RetriesQueue s' := by
  have hadd : ∀ e, (∀ job, e = AdminEdit.retryLoaded job → job.new.status = .queued) →
      ∀ job, AdminEdit.retryLoaded job ∈ s.edits ++ [e] → job.new.status = .queued := by
    intro e he job hjob
    rcases List.mem_append.mp hjob with hold | hnew
    · exact h job hold
    · exact he job (List.mem_singleton.mp hnew).symm
  have hset : ∀ i e, (∀ job, e ≠ AdminEdit.retryLoaded job) →
      ∀ job, AdminEdit.retryLoaded job ∈ s.edits.set i e → job.new.status = .queued := by
    intro i e he job hjob
    rcases List.mem_or_eq_of_mem_set hjob with hold | hnew
    · exact h job hold
    · exact absurd hnew.symm (he job)
  cases a with
  | lease a =>
    simp only [producerStep] at hstep
    split at hstep
    · cases hstep
    · split at hstep
      · cases hstep
      · cases hstep
        exact h
  | openSession =>
    cases hstep
    exact h
  | write i change =>
    obtain ⟨p, _, rfl⟩ := Option.map_eq_some_iff.mp hstep
    exact h
  | stage i req =>
    obtain ⟨p, _, rfl⟩ := Option.map_eq_some_iff.mp hstep
    exact h
  | commit i =>
    obtain ⟨p, _, rfl⟩ := Option.map_eq_some_iff.mp hstep
    exact h
  | rollback i =>
    obtain ⟨p, _, rfl⟩ := Option.map_eq_some_iff.mp hstep
    exact h
  | beginOwned req commit =>
    cases hstep
    exact h
  | begin i req commit =>
    obtain ⟨p, _, rfl⟩ := Option.map_eq_some_iff.mp hstep
    exact h
  | advance i now =>
    obtain ⟨p, c, _, _, r, _, rfl⟩ := producerStep_advance hstep
    exact h
  | fail i =>
    obtain ⟨p, c, _, _, _, rfl⟩ := producerStep_fail hstep
    exact h
  | retryRead jobId now =>
    obtain ⟨job, _, rfl⟩ := Option.map_eq_some_iff.mp hstep
    apply hadd
    intro loaded hloaded
    cases hloaded
    rfl
  | cancelRead jobId now =>
    obtain ⟨job, _, rfl⟩ := Option.map_eq_some_iff.mp hstep
    apply hadd
    intro loaded hloaded
    cases hloaded
  | editCommit i =>
    obtain ⟨job, _, ⟨e, _, rfl⟩ | ⟨jobs, _, _, rfl⟩⟩ := producerStep_editCommit hstep
    · exact hset i _ (fun job => by simp)
    · exact hset i _ (fun job => by simp)

/-- The commit of a retry that brings a job back beside an active one with its key. -/
lemma commitJob_refused {job : LoadedJob} {jobs : JobTable} {r q : DurableJob}
    (hnew : job.new.status = .queued) (hfinished : job.loaded.status.terminal)
    (hr : jobs.find job.loaded.id = some r) (hq : q ∈ jobs.rows) (hne : q.id ≠ r.id)
    (hkey : q.dedupeKey.isSome ∧ q.dedupeKey = r.dedupeKey) (hqueue : q.queue = r.queue)
    (htask : q.task = r.task) (hactive : q.status.active) :
    commitJob job.loaded job.new jobs = .error .integrityError := by
  have hstatus : (job.loaded.flush job.new r).status = .queued := by
    simp only [DurableJob.flush, flushColumn, hnew]
    rw [if_neg]
    intro heq
    rw [← heq] at hfinished
    cases hfinished
  have hconflict : dedupeConflict (job.loaded.flush job.new r) jobs := by
    rw [dedupeConflict_iff]
    refine ⟨q, hq, hne, sameDedupe_iff.mpr ?_⟩
    rw [hstatus]
    exact ⟨hkey.2 ▸ hkey.1, hkey.2.symm, hqueue.symm, htask.symm, rfl, hactive⟩
  unfold commitJob
  rw [hr]
  dsimp only
  rw [if_pos hconflict]

lemma eq_of_stored (h : StorageOk s.lease.jobs s.uncommitted) {r q : DurableJob}
    (hr : s.Stored r) (hq : s.Stored q) (hid : r.id = q.id) : r = q := by
  have hmixed : ∀ r ∈ s.lease.jobs.rows, ∀ u ∈ s.uncommitted, r.id ≠ u.id := by
    intro r hr u hu hid
    have hsome := Table.find_of_mem hr
    rw [hid, h.absent u hu] at hsome
    cases hsome
  rcases hr with hr | hr
  · rcases hq with hq | hq
    · exact Table.eq_of_key_eq hr hq hid
    · exact absurd hid (hmixed r hr q hq)
  · rcases hq with hq | hq
    · exact absurd hid.symm (hmixed q hq r hr)
    · exact eq_of_key_eq_of_pairwise h.apart hr hq hid

end Sessions

/-- In every run at most one stored job of a queue, task and key is active, and a retry
that has loaded a finished job is refused while another job with its key is active. In
every run in which `losesNothing` holds before each step, a call whose `INSERT` was refused
returns an active job of its key and leaves its session as it was. -/
theorem enqueue_one_active (settings : QueueSettings) {as : List ProducerAction}
    {s : ProducerState} (h : Run (producerStep settings) ProducerState.initial as s) :
    (∀ r q, s.Stored r → s.Stored q → sameDedupe r q → r = q) ∧
    (∀ i job r q, s.edits[i]? = some (AdminEdit.retryLoaded job) → job.loaded.status.terminal →
      s.lease.jobs.find job.loaded.id = some r → q ∈ s.lease.jobs.rows → q.id ≠ r.id →
      q.dedupeKey.isSome ∧ q.dedupeKey = r.dedupeKey → q.queue = r.queue → q.task = r.task →
      q.status.active →
        producerStep settings s (.editCommit i) =
          some { s with edits := s.edits.set i (.refused .integrityError) }) ∧
    (GuardedRun (producerStep settings) (fun s a => losesNothing s a) ProducerState.initial as s →
      ∀ p ∈ s.sessions, ∀ c ∈ p.ended, c.lost → c.Kept) := by
  have hstorage : StorageOk s.lease.jobs s.uncommitted := by
    refine h.invariant ?_ (fun _ _ _ hi _ hs => storageOk_step hi hs)
    exact ⟨by simp [ProducerState.initial, ProducerState.uncommitted],
      by simp [ProducerState.initial, ProducerState.uncommitted], .nil,
      by simp [ProducerState.initial, ProducerState.uncommitted, LeaseState.initial, Table.empty]⟩
  have hretries : RetriesQueue s := by
    refine h.invariant ?_ (fun _ _ _ hi _ hs => retriesQueue_step hi hs)
    intro job hjob
    cases hjob
  refine ⟨?_, ?_, ?_⟩
  · intro r q hr hq hsame
    exact eq_of_stored hstorage hr hq (hstorage.one r q hr hq hsame)
  · intro i job r q hedit hfinished hr hq hne hkey hqueue htask hactive
    have hnew := hretries job (List.mem_of_getElem? hedit)
    have hc := commitJob_refused hnew hfinished hr hq hne hkey hqueue htask hactive
    simp only [producerStep, hedit, Option.bind_some, AdminEdit.loaded, hc]
  · intro hguarded
    have hsessions : ∀ p ∈ s.sessions, SessionOk p := by
      refine hguarded.invariant ?_ (fun _ _ _ hi hg hs => sessionOk_step hi hg hs)
      intro p hp
      cases hp
    intro p hp
    exact (hsessions p hp).kept

/-- A caller's session with nothing uncommitted loses against a call in a session of its
own. The job is finished and loaded by a retry, and a third call enqueues the key again. -/
def raceActions : List ProducerAction :=
  [.beginOwned syncRequest none, .openSession, .begin 1 syncRequest none, .advance 0 1,
    .advance 1 1, .advance 0 2, .advance 1 2, .advance 1 3,
    .lease (.op (.claim "host:1" ["deferred"] 4)), .lease (.op (.markSucceeded "host:1" 1 5)),
    .retryRead 1 6, .beginOwned syncRequest none, .advance 2 7, .advance 2 8]

/-- A retry has loaded a finished job beside an active one with its key. -/
def retryBesideActive (s : ProducerState) (job : LoadedJob) (r q : DurableJob) : Prop :=
  s.edits[0]? = some (AdminEdit.retryLoaded job) ∧ job.loaded.status.terminal ∧
    s.lease.jobs.find job.loaded.id = some r ∧ q ∈ s.lease.jobs.rows ∧ q.id ≠ r.id ∧
    (q.dedupeKey.isSome ∧ q.dedupeKey = r.dedupeKey) ∧ q.queue = r.queue ∧ q.task = r.task ∧
    q.status.active

instance (s : ProducerState) (job : LoadedJob) (r q : DurableJob) :
    Decidable (retryBesideActive s job r q) :=
  inferInstanceAs (Decidable (_ ∧ _))

theorem enqueue_one_active_race :
    ∃ s : ProducerState,
      GuardedRun (producerStep {}) (fun s a => losesNothing s a) ProducerState.initial
        raceActions s ∧
      (∀ r q, s.Stored r → s.Stored q → sameDedupe r q → r = q) ∧
      producerStep {} s (.editCommit 0) =
        some { s with edits := s.edits.set 0 (.refused .integrityError) } ∧
      ∃ p ∈ s.sessions, ∃ c ∈ p.ended, c.lost ∧ c.Kept := by
  have hended : ∃ s : ProducerState,
      GuardedRun (producerStep {}) (fun s a => losesNothing s a) ProducerState.initial
        raceActions s ∧
      decide ((∃ r ∈ s.lease.jobs.rows, ∃ q ∈ s.lease.jobs.rows,
          retryBesideActive s ⟨r, retryJob 6 r⟩ r q) ∧
        ∃ p ∈ s.sessions, ∃ c ∈ p.ended, c.lost) = true :=
    exists_guardedRun_of_any _ _ _ _ _ (by decide +kernel)
  obtain ⟨s, hrun, hs⟩ := hended
  obtain ⟨⟨r, _, q, _, hedit, hfinished, hr, hq, hne, hkey, hqueue, htask, hactive⟩,
    p, hp, c, hc, hlost⟩ := of_decide_eq_true hs
  obtain ⟨hone, hretry, hkept⟩ := enqueue_one_active {} hrun.run
  refine ⟨s, hrun, hone, ?_, p, hp, c, hc, hlost, hkept hrun p hp c hc hlost⟩
  exact hretry 0 _ r q hedit hfinished hr hq hne hkey hqueue htask hactive

/-- A call that loses rolls back what its caller had flushed, although it returns; and a
call that loses raises when the job that refused its row has ended before the second
lookup. -/
theorem enqueue_loser_rolls_back_or_raises :
    (¬∀ (settings : QueueSettings) (as : List ProducerAction) (s : ProducerState),
      Run (producerStep settings) ProducerState.initial as s →
        ∀ p ∈ s.sessions, ∀ c ∈ p.ended, c.lost → c.after = c.before) ∧
    ¬∀ (settings : QueueSettings) (as : List ProducerAction) (s : ProducerState),
      Run (producerStep settings) ProducerState.initial as s →
        ∀ p ∈ s.sessions, ∀ c ∈ p.ended, c.lost →
          ∃ job, c.phase = .returned job ∧ job.status.active ∧ c.req.names job := by
  constructor
  · intro h
    have hended : ∃ s : ProducerState,
        Run (producerStep {}) ProducerState.initial
          [.openSession, .write 0 7, .begin 0 syncRequest none, .beginOwned syncRequest none,
            .advance 0 1, .advance 1 1, .advance 1 2, .advance 0 2, .advance 0 3] s ∧
        decide (∃ p ∈ s.sessions, ∃ c ∈ p.ended, c.lost ∧ c.after ≠ c.before) = true :=
      exists_guardedRun_of_any _ _ _ _ _ (by decide +kernel)
    obtain ⟨s, hrun, hs⟩ := hended
    obtain ⟨p, hp, c, hc, hlost, hne⟩ := of_decide_eq_true hs
    exact hne (h {} _ s hrun p hp c hc hlost)
  · intro h
    have hended : ∃ s : ProducerState,
        Run (producerStep {}) ProducerState.initial
          [.beginOwned syncRequest none, .beginOwned syncRequest none, .advance 0 1,
            .advance 1 1, .advance 0 2, .advance 1 2,
            .lease (.op (.claim "host:1" ["deferred"] 3)),
            .lease (.op (.markSucceeded "host:1" 1 4)), .advance 1 5] s ∧
        decide (∃ p ∈ s.sessions, ∃ c ∈ p.ended, c.lost ∧ c.phase = .raised) = true :=
      exists_guardedRun_of_any _ _ _ _ _ (by decide +kernel)
    obtain ⟨s, hrun, hs⟩ := hended
    obtain ⟨p, hp, c, hc, hlost, hraised⟩ := of_decide_eq_true hs
    obtain ⟨job, hphase, _⟩ := h {} _ s hrun p hp c hc hlost
    rw [hraised] at hphase
    cases hphase

end IpDocket.Ops
