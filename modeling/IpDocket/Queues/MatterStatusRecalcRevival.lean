import IpDocket.Queues.MatterStatusRecalcLocks

/-!
# Requests that leave a row to be picked

A request resets the attempts of a row unless its lock is live, and a drain that fails
leaves the attempts as they are. So a row whose last permitted attempt fails, or whose lock
expires in it, stays behind with no attempt left, whatever was requested meanwhile.

`now` is the present: a lock is live or has expired at this time. The clock readings of
the statements are their own. `deleted` is a history variable: the deletions of rows, with
the step their recalculation began at.
-/

namespace IpDocket.Queues
open IpDocket.Lib

structure RevivalState where
  queue : RecalcState
  now : Time
  deleted : List (String × Nat)

def RevivalState.initial (now : Time) : RevivalState := ⟨RecalcState.initial, now, []⟩

inductive RevivalAction
  | act (a : RecalcAction)
  | tick (now : Time)

/-- The matter whose row the step deletes, and the start of the recalculation. -/
def RecalcState.deletes (s : RecalcState) : RecalcAction → Option (String × Nat)
  | .drain token (.finalizeWrite _) =>
    (s.drains.find? (fun d => d.token = token)).bind (fun d =>
      match d.phase with
      | .deleting mid start _ => if isHeld d.token mid s.queue then some (mid, start) else none
      | _ => none)
  | _ => none

def revivalStep (settings : DrainSettings) (s : RevivalState) : RevivalAction → Option RevivalState
  | .act a => (recalcStep settings s.queue a).map (fun t =>
      { s with queue := t, deleted := (s.queue.deletes a).toList ++ s.deleted })
  | .tick now => if s.now ≤ now then some { s with now := now } else none

def lastAttempt (settings : DrainSettings) (r : RecalcRow) : Bool :=
  settings.maxAttempts ≤ (r.attempts : Int)

/-- The lock of a last permitted attempt does not expire: not by the time that passes, and
not because it is written with a clock reading that is too old. -/
def lastLockLives (settings : DrainSettings) (s : RevivalState) : RevivalAction → Bool
  | .tick now => s.queue.queue.rows.all (fun r => lastAttempt settings r →
      r.lockedAt.all (expiredBefore settings now ≤ ·))
  | .act (.drain token a) =>
    (s.queue.drains.find? (fun d => d.token = token)).all (fun d =>
      match a, d.phase with
      | .pick _ now, _ => s.queue.queue.rows.all (fun r =>
          claimable settings now r ∧ settings.maxAttempts ≤ (r.attempts : Int) + 1 →
            expiredBefore settings s.now ≤ now)
      | .lockUpdate, .locking _ now => s.queue.queue.rows.all (fun r =>
          claimable settings now r ∧ settings.maxAttempts ≤ (r.attempts : Int) + 1 →
            expiredBefore settings s.now ≤ now)
      | .heartbeat _ now, _ => s.queue.queue.rows.all (fun r =>
          r.lockToken = some d.token ∧ lastAttempt settings r → expiredBefore settings s.now ≤ now)
      | _, _ => true)
  | _ => true

/-- A drain records no failure for the last permitted attempt. -/
def lastAttemptSucceeds (settings : DrainSettings) (s : RevivalState) : RevivalAction → Bool
  | .act (.drain token (.failureUpdate _ _)) =>
    (s.queue.drains.find? (fun d => d.token = token)).all (fun d =>
      match d.phase with
      | .recording mid _ _ => (s.queue.queue.find mid).all (fun r =>
          r.lockToken = some d.token → ¬lastAttempt settings r)
      | _ => true)
  | _ => true

/-- Last attempts neither fail nor lose their lock, and a row is deleted only if no request
has been committed since the drain selected the payload. -/
def leavesAttempts (settings : DrainSettings) (s : RevivalState) (a : RevivalAction) : Bool :=
  lastLockLives settings s a && lastAttemptSucceeds settings s a &&
    (match a with
    | .act a => deletesUnreplaced s.queue a
    | .tick _ => true)

/-- The row is gone with a recalculation that began after the request, or is under a live
lock, or may be locked by any drain from its `next_run_at` on. -/
def Revived (settings : DrainSettings) (s : RevivalState) (request : String × Nat) : Prop :=
  match s.queue.queue.find request.1 with
  | none => ∃ b, (request.1, b) ∈ s.deleted ∧ request.2 < b
  | some r => liveLock settings s.now r ∨
      ∀ later, s.now ≤ later → r.nextRunAt.all (· ≤ later) → claimable settings later r

structure RevivalOk (settings : DrainSettings) (s : RevivalState) : Prop where
  requests : RecalcInvariant s.queue
  locks : LocksOk settings s.queue
  last : ∀ m r, s.queue.queue.find m = some r → lastAttempt settings r →
    liveLock settings s.now r
  gone : ∀ m e, (m, e) ∈ s.queue.enqueued → s.queue.queue.find m = none →
    ∃ b, (m, b) ∈ s.deleted ∧ e < b

section Revival

variable {settings : DrainSettings} {s s' : RevivalState}

lemma not_lastAttempt_of_zero (hmax : 1 ≤ settings.maxAttempts) {r : RecalcRow}
    (h : r.attempts = 0) : ¬lastAttempt settings r := by
  intro hlast
  have hle := of_decide_eq_true hlast
  rw [h] at hle
  omega

lemma leavesAttempts_act {a : RecalcAction} (h : leavesAttempts settings s (.act a)) :
    lastLockLives settings s (.act a) ∧ lastAttemptSucceeds settings s (.act a) ∧
      deletesUnreplaced s.queue a := by
  simpa [leavesAttempts, and_assoc] using h

/-- A row of its last attempt after a statement of a drain. -/
lemma liveLock_rowStep {token : Nat} {d : RecalcDrain} {a : RecalcDrainAction} {m : String}
    {r r' : RecalcRow} (hmax : 1 ≤ settings.maxAttempts)
    (hlives : lastLockLives settings s (.act (.drain token a)))
    (hsucceeds : lastAttemptSucceeds settings s (.act (.drain token a)))
    (hd : s.queue.drains.find? (fun d => d.token = token) = some d)
    (hr : s.queue.queue.find m = some r)
    (hlive : lastAttempt settings r → liveLock settings s.now r)
    (hrow : RecalcRowStep settings d a r r') (hlast : lastAttempt settings r') :
    liveLock settings s.now r' := by
  have hmem := Keyed.mem_of_find hr
  simp only [lastLockLives, hd, Option.all_some] at hlives
  cases hrow with
  | keep => exact hlive hlast
  | @lock now hlocks hclaimable =>
    have hreached : settings.maxAttempts ≤ (r.attempts : Int) + 1 := by
      simpa [lastAttempt, lockRow] using hlast
    have hreading : expiredBefore settings s.now ≤ now := by
      obtain ⟨limit, rfl⟩ | ⟨rfl, mids, hphase⟩ := hlocks
      · simp only [List.all_eq_true, decide_eq_true_eq] at hlives
        exact hlives r hmem ⟨hclaimable, hreached⟩
      · simp only [hphase, List.all_eq_true, decide_eq_true_eq] at hlives
        exact hlives r hmem ⟨hclaimable, hreached⟩
    simpa [liveLock, lockRow] using hreading
  | @refresh mid now ha htoken =>
    subst ha
    simp only [List.all_eq_true, decide_eq_true_eq] at hlives
    have hreading := hlives r hmem ⟨htoken, hlast⟩
    simpa [liveLock, refreshRow, htoken] using hreading
  | release _ _ _ => exact absurd hlast (not_lastAttempt_of_zero hmax rfl)
  | @fail err attempts now later ha hphase htoken =>
    exfalso
    subst ha
    have hid := Keyed.key_of_find hr
    rw [hid] at hphase
    simp only [lastAttemptSucceeds, hd, hphase, hr, Option.all_some, decide_eq_true_eq] at hsucceeds
    exact hsucceeds htoken hlast

/-- A request keeps the attempts only of a live lock. -/
lemma liveLock_upsert {mid : String} {payload : RecalcPayload} {m : String} {r : RecalcRow}
    (hmax : 1 ≤ settings.maxAttempts)
    (hlive : ∀ m r, s.queue.queue.find m = some r → lastAttempt settings r →
      liveLock settings s.now r)
    (hr : (upsertRequest settings mid payload s.queue.queue).find m = some r)
    (hlast : lastAttempt settings r) : liveLock settings s.now r := by
  rw [find_upsertRequest] at hr
  split at hr
  · cases hold : s.queue.queue.find m with
    | none =>
      rw [hold] at hr
      cases hr
      exact absurd hlast (not_lastAttempt_of_zero hmax rfl)
    | some q =>
      rw [hold, Option.elim_some] at hr
      by_cases hkept : liveLock settings payload.enqueuedAt q
      · have hsame : r.attempts = q.attempts ∧ r.lockedAt = q.lockedAt ∧
            r.lockToken = q.lockToken := by
          rw [← Option.some.inj hr]
          simp [replaceRequest, hkept]
        obtain ⟨hattempts, hlocked, htoken⟩ := hsame
        unfold lastAttempt at hlast
        rw [hattempts] at hlast
        unfold liveLock
        rw [hlocked, htoken]
        exact hlive m q hold hlast
      · have hzero : r.attempts = 0 := by
          rw [← Option.some.inj hr]
          simp [replaceRequest, hkept]
        exact absurd hlast (not_lastAttempt_of_zero hmax hzero)
  · exact hlive m r hr hlast

lemma revivalOk_tick {now : Time} (h : RevivalOk settings s)
    (hguard : leavesAttempts settings s (.tick now)) :
    RevivalOk settings { s with now := now } := by
  refine ⟨h.requests, h.locks, ?_, h.gone⟩
  intro m r hr hlast
  have hold := h.last m r hr hlast
  simp only [leavesAttempts, lastLockLives, lastAttemptSucceeds, Bool.and_true, List.all_eq_true,
    decide_eq_true_eq] at hguard
  have hlives := hguard r (Keyed.mem_of_find hr) hlast
  obtain ⟨htoken, hlocked⟩ := of_decide_eq_true hold
  obtain ⟨t, ht, _⟩ := (Option.any_eq_true _ _).mp hlocked
  rw [ht, Option.all_some] at hlives
  unfold liveLock
  rw [ht, Option.any_some]
  exact decide_eq_true ⟨htoken, hlives⟩

/-- A step that is no statement of a drain and no commit of a request. -/
lemma RevivalOk.frame {a : RecalcAction} {t : RecalcState} (h : RevivalOk settings s)
    (hguard : leavesAttempts settings s (.act a)) (hstep : recalcStep settings s.queue a = some t)
    (hqueue : t.queue = s.queue.queue) (henqueued : t.enqueued = s.queue.enqueued) :
    RevivalOk settings { s with queue := t, deleted := (s.queue.deletes a).toList ++ s.deleted } := by
  obtain ⟨_, _, hunreplaced⟩ := leavesAttempts_act hguard
  refine ⟨recalcInvariant_step h.requests hunreplaced hstep, locksOk_step h.locks hstep, ?_, ?_⟩
  · intro m r hr
    rw [show t.queue.find m = s.queue.queue.find m by rw [hqueue]] at hr
    exact h.last m r hr
  · intro m e he hnone
    rw [show t.queue.find m = s.queue.queue.find m by rw [hqueue]] at hnone
    rw [henqueued] at he
    obtain ⟨b, hb, hlt⟩ := h.gone m e he hnone
    exact ⟨b, List.mem_append_right _ hb, hlt⟩

lemma revivalOk_commit {id : Nat} {t : RecalcState} (hmax : 1 ≤ settings.maxAttempts)
    (h : RevivalOk settings s) (hguard : leavesAttempts settings s (.act (.commit id)))
    (hstep : recalcStep settings s.queue (.commit id) = some t) :
    RevivalOk settings { s with queue := t, deleted := s.deleted } := by
  obtain ⟨_, _, hunreplaced⟩ := leavesAttempts_act hguard
  refine ⟨recalcInvariant_step h.requests hunreplaced hstep, locksOk_step h.locks hstep, ?_, ?_⟩
  all_goals
    simp only [recalcStep] at hstep
    split at hstep
    · cases hstep
  · next u hu =>
    cases hstep
    intro m r hr hlast
    have hlives := liveLock_upsert hmax h.last hr hlast
    exact hlives
  · next u hu =>
    cases hstep
    intro m e he hnone
    dsimp only at hnone
    rw [find_upsertRequest] at hnone
    split at hnone
    · cases hnone
    · next hne =>
      rcases List.mem_cons.mp he with heq | hold
      · cases heq
        exact absurd rfl hne
      · exact h.gone m e hold hnone

lemma revivalOk_drain {token : Nat} {a : RecalcDrainAction} {t : RecalcState}
    (hmax : 1 ≤ settings.maxAttempts) (h : RevivalOk settings s)
    (hguard : leavesAttempts settings s (.act (.drain token a)))
    (hstep : recalcStep settings s.queue (.drain token a) = some t) :
    RevivalOk settings { s with
      queue := t
      deleted := (s.queue.deletes (.drain token a)).toList ++ s.deleted } := by
  obtain ⟨hlives, hsucceeds, hunreplaced⟩ := leavesAttempts_act hguard
  refine ⟨recalcInvariant_step h.requests hunreplaced hstep, locksOk_step h.locks hstep, ?_, ?_⟩
  all_goals
    simp only [recalcStep] at hstep
    split at hstep
    · cases hstep
  · next d hd =>
    split at hstep
    · cases hstep
    · next result hresult =>
      cases hstep
      intro m r' hr' hlast
      cases (drainStep_key hresult).2 m with
      | absent _ hnone =>
        rw [show result.queue.find m = some r' from hr'] at hnone
        cases hnone
      | @changed r q hr hq hrow =>
        rw [show result.queue.find m = some r' from hr'] at hq
        cases hq
        have hstill := liveLock_rowStep hmax hlives hsucceeds hd hr (h.last m r hr) hrow hlast
        exact hstill
      | deleted _ hnone _ _ _ =>
        rw [show result.queue.find m = some r' from hr'] at hnone
        cases hnone
  · next d hd =>
    split at hstep
    · cases hstep
    · next result hresult =>
      cases hstep
      intro m e he hnone
      cases (drainStep_key hresult).2 m with
      | absent hbefore _ =>
        obtain ⟨b, hb, hlt⟩ := h.gone m e he hbefore
        exact ⟨b, List.mem_append_right _ hb, hlt⟩
      | changed _ hq _ =>
        rw [show result.queue.find m = none from hnone] at hq
        cases hq
      | @deleted r start selected now hr _ ha hphase htoken =>
        subst ha
        -- the drain began after every request it has seen, and the guard says there is no other
        have hheld : isHeld d.token m s.queue.queue := by simp [isHeld, hr, htoken]
        have hknows := h.requests.knows d (List.mem_of_find?_eq_some hd)
        unfold DrainKnows at hknows
        rw [hphase] at hknows
        have hselected := before_selected_of_deletesUnreplaced hd hphase hheld hunreplaced e he
        refine ⟨start, List.mem_append_left _ ?_, hknows.2.1 e he hselected⟩
        simp [RecalcState.deletes, hd, hphase, hheld]

lemma revivalOk_step {a : RevivalAction} (hmax : 1 ≤ settings.maxAttempts)
    (h : RevivalOk settings s) (hguard : leavesAttempts settings s a)
    (hstep : revivalStep settings s a = some s') : RevivalOk settings s' := by
  cases a with
  | tick now =>
    simp only [revivalStep] at hstep
    split at hstep
    · cases hstep
      exact revivalOk_tick h hguard
    · cases hstep
  | act a =>
    obtain ⟨t, ht, rfl⟩ := Option.map_eq_some_iff.mp hstep
    cases a with
    | enqueue matterId reason now =>
      refine h.frame hguard ht ?_ ?_
      all_goals
        simp only [recalcStep] at ht
        split at ht
        · cases ht
        · split at ht
          all_goals cases ht
          rfl
    | commit id => exact revivalOk_commit hmax h hguard ht
    | rollback id =>
      refine h.frame hguard ht ?_ ?_
      all_goals
        cases ht
        rfl
    | start =>
      refine h.frame hguard ht ?_ ?_
      all_goals
        cases ht
        rfl
    | drain token a => exact revivalOk_drain hmax h hguard ht
    | crash token =>
      refine h.frame hguard ht ?_ ?_
      all_goals
        cases ht
        rfl

/-- A row that is neither live nor at its last attempt may be locked once it is due. -/
lemma claimable_of_not_live {r : RecalcRow} {later : Time} (hrow : RecalcRowOk settings r)
    (hlive : ¬liveLock settings s.now r) (hlast : ¬lastAttempt settings r)
    (hlater : s.now ≤ later) (hdue : r.nextRunAt.all (· ≤ later)) : claimable settings later r := by
  have hlocked : r.lockedAt.all (· < expiredBefore settings later) := by
    cases ht : r.lockedAt with
    | none => rfl
    | some t =>
      have htoken : r.lockToken.isSome := by
        rw [← Option.ne_none_iff_isSome]
        intro hnone
        rw [hrow.paired.mpr hnone] at ht
        cases ht
      have hexpired : t < expiredBefore settings s.now := by
        by_contra hge
        apply hlive
        unfold liveLock
        rw [ht, Option.any_some]
        exact decide_eq_true ⟨htoken, by simpa using hge⟩
      have hmono : expiredBefore settings s.now ≤ expiredBefore settings later := by
        unfold expiredBefore
        exact Int.sub_le_sub_right hlater _
      rw [Option.all_some, decide_eq_true_eq]
      exact Int.lt_of_lt_of_le hexpired hmono
  have hattempts : (r.attempts : Int) < settings.maxAttempts := by
    simpa [lastAttempt] using hlast
  exact decide_eq_true ⟨hlocked, hdue, hattempts⟩

end Revival

/-- In every run in which last permitted attempts neither fail nor lose their lock, and a
row is deleted only if no request has been committed since its payload was selected, every
committed request has been followed by the deletion of the row in a recalculation that
began after it, or the row is under a live lock, or it may be locked once it is due. -/
theorem recalc_requests_revived (settings : DrainSettings) (hmax : 1 ≤ settings.maxAttempts)
    {as : List RevivalAction} {now : Time} {s : RevivalState}
    (h : GuardedRun (revivalStep settings) (fun s a => leavesAttempts settings s a)
      (RevivalState.initial now) as s) :
    ∀ request ∈ s.queue.enqueued, Revived settings s request := by
  have hok : RevivalOk settings s := by
    refine h.invariant ?_ (fun _ _ _ hi hg hs => revivalOk_step hmax hi hg hs)
    refine ⟨recalcInvariant_initial, locksOk_initial, ?_, ?_⟩
    · intro m r hr
      cases hr
    · intro m e he
      cases he
  rintro ⟨m, e⟩ he
  unfold Revived
  cases hr : s.queue.queue.find m with
  | none => exact hok.gone m e he hr
  | some r =>
    by_cases hlive : liveLock settings s.now r
    · exact .inl hlive
    · right
      intro later hlater hdue
      have hlast : ¬lastAttempt settings r := fun hlast => hlive (hok.last m r hr hlast)
      exact claimable_of_not_live (hok.locks.rows m r hr) hlive hlast hlater hdue

/-- A request for a matter whose drain crashed: the row may be locked again after the
timeout. -/
theorem recalc_requests_revived_after_crash :
    ∃ s : RevivalState,
      GuardedRun (revivalStep {}) (fun s a => leavesAttempts {} s a) (RevivalState.initial 0)
        [.act (.enqueue (some "M1") none 0), .act (.commit 0), .act .start,
          .act (.drain 1 (.lockSelect ["M1"] 1)), .act (.drain 1 .lockUpdate), .act (.crash 1),
          .tick 400000000] s ∧
      s.queue.enqueued = [("M1", 1)] ∧ ∀ request ∈ s.queue.enqueued, Revived {} s request := by
  have hended : ∃ s : RevivalState,
      GuardedRun (revivalStep {}) (fun s a => leavesAttempts {} s a) (RevivalState.initial 0)
        [.act (.enqueue (some "M1") none 0), .act (.commit 0), .act .start,
          .act (.drain 1 (.lockSelect ["M1"] 1)), .act (.drain 1 .lockUpdate), .act (.crash 1),
          .tick 400000000] s ∧
      decide (s.queue.enqueued = [("M1", 1)]) = true :=
    exists_guardedRun_of_any _ _ _ _ _ (by decide +kernel)
  obtain ⟨s, hrun, hs⟩ := hended
  exact ⟨s, hrun, of_decide_eq_true hs, recalc_requests_revived {} (by decide) hrun⟩

/-- A request is committed during the last permitted attempt, and the attempt fails: the
row has no lock and no attempt left. -/
theorem recalc_request_stranded :
    ¬∀ (settings : DrainSettings), 1 ≤ settings.maxAttempts →
      ∀ (as : List RevivalAction) (now : Time) (s : RevivalState),
        Run (revivalStep settings) (RevivalState.initial now) as s →
          ∀ request ∈ s.queue.enqueued, Revived settings s request := by
  intro h
  have hended : ∃ s : RevivalState,
      Run (revivalStep { maxAttempts := 1 }) (RevivalState.initial 0)
        [.act (.enqueue (some "M1") none 0), .act (.commit 0), .act .start,
          .act (.drain 1 (.lockSelect ["M1"] 1)), .act (.drain 1 .lockUpdate),
          .act (.drain 1 (.begin "M1")), .act (.enqueue (some "M1") none 2), .act (.commit 2),
          .act (.drain 1 (.raise "timeout")), .act (.drain 1 .failureSelect),
          .act (.drain 1 (.failureUpdate 3 3))] s ∧
      decide (("M1", 7) ∈ s.queue.enqueued ∧ s.now = 0 ∧ ∃ r, s.queue.queue.find "M1" = some r ∧
        r.lockToken = none ∧ r.nextRunAt = none ∧ r.attempts = 1) = true :=
    exists_guardedRun_of_any _ _ _ _ _ (by decide +kernel)
  obtain ⟨s, hrun, hs⟩ := hended
  obtain ⟨he, hnow, r, hr, htoken, hnext, hattempts⟩ := of_decide_eq_true hs
  have hrevived := h { maxAttempts := 1 } (by decide) _ 0 s hrun _ he
  unfold Revived at hrevived
  dsimp only at hrevived
  rw [hr] at hrevived
  rcases hrevived with hlive | hclaimable
  · simp [liveLock, htoken] at hlive
  · have hclaim := hclaimable 0 (by rw [hnow]) (by simp [hnext])
    simp [claimable, hattempts] at hclaim

end IpDocket.Queues
