import IpDocket.Queues.AnnuitySyncRequests

/-!
# Rows of the annuity queue without an attempt left

The attempt is counted when the row is locked, and only the failure path of the drain that
holds the token moves a row without an attempt left to the dead letters. A drain that
crashes in the last permitted attempt, or that cannot record its failure, leaves the row
behind, and a request leaves the attempts as they are.

`now` is the present: a lock is live or has expired at this time.
-/

namespace IpDocket.Queues
open IpDocket.Lib

/-- The drain may lock rows with the clock reading `now` in this step. -/
def AnnuityLocksAt (d : AnnuityDrain) (a : AnnuityDrainAction) (now : Time) : Prop :=
  a = .pick now ∨ a = .lockUpdate ∧ ∃ mids, d.phase = .locking mids now

inductive AnnuityRowStep (settings : DrainSettings) (d : AnnuityDrain) (a : AnnuityDrainAction) :
    AnnuityRow → AnnuityRow → Prop
  | keep {r : AnnuityRow} : AnnuityRowStep settings d a r r
  | lock {r : AnnuityRow} {now : Time} : AnnuityLocksAt d a now → claimable settings now r →
      AnnuityRowStep settings d a r (lockRow d.token now r)
  | refresh {r : AnnuityRow} {mid : String} {now : Time} : a = .heartbeat mid now →
      r.lockToken = some d.token → AnnuityRowStep settings d a r (refreshRow now r)
  | fail {r : AnnuityRow} {err : String} {start attempts : Nat} {payload : Option String}
      {now later : Time} : a = .failureWrite now later →
      d.phase = .recording r.matterId err start attempts payload → ¬exhausted settings attempts →
      r.lockToken = some d.token →
      AnnuityRowStep settings d a r
        (failRow (errorText err) (some (rebuildNextRun settings attempts later)) now r)

inductive AnnuityKeyStep (settings : DrainSettings) (d : AnnuityDrain) (a : AnnuityDrainAction)
    (t t' : AnnuityTable) (m : String) : Prop
  | changed {r r' : AnnuityRow} : t.find m = some r → t'.find m = some r' →
      AnnuityRowStep settings d a r r' → AnnuityKeyStep settings d a t t' m
  | gone : t'.find m = none → AnnuityKeyStep settings d a t t' m

/-- A drain that records a failure has just read the attempts, or only refreshes its lock. -/
def RecordsRead (t : AnnuityTable) (d : AnnuityDrain) (a : AnnuityDrainAction)
    (result : AnnuityResult) : Prop :=
  ∀ mid err start attempts payload, result.drain.phase = .recording mid err start attempts payload →
    (result.queue = t ∧ attempts = ((t.find mid).map QueueRow.attempts).getD 0) ∨
      d.phase = .recording mid err start attempts payload ∧ ∃ m now, a = .heartbeat m now

section Keys

variable {settings : DrainSettings} {d : AnnuityDrain} {a : AnnuityDrainAction}
  {t t' : AnnuityTable} {m : String}

lemma AnnuityKeyStep.refl : AnnuityKeyStep settings d a t t m := by
  cases hm : t.find m with
  | none => exact .gone hm
  | some r => exact .changed hm hm .keep

lemma annuityKeyStep_update {p : AnnuityRow → Bool} {f : AnnuityRow → AnnuityRow}
    (hf : ∀ r, (f r).matterId = r.matterId)
    (hrow : ∀ r, p r → AnnuityRowStep settings d a r (f r)) :
    AnnuityKeyStep settings d a t (t.update (onRows p f) (key_onRows hf)) m := by
  have hfind : (t.update (onRows p f) (key_onRows hf)).find m =
      (t.find m).map (fun r => if p r then f r else r) := Keyed.find_update_onRows hf
  cases hm : t.find m with
  | none =>
    rw [hm] at hfind
    exact .gone hfind
  | some r =>
    rw [hm, Option.map_some] at hfind
    refine .changed hm hfind ?_
    split
    · next hp => exact hrow r hp
    · exact .keep

lemma annuityKeyStep_lock {now : Time} {ids : List String} (h : AnnuityLocksAt d a now) :
    AnnuityKeyStep settings d a t (lockRows settings d.token now ids t) m := by
  refine annuityKeyStep_update (matterId_lockRow d.token now) ?_
  intro r hp
  exact .lock h (of_decide_eq_true hp).2

lemma annuityKeyStep_delete {mid : String} :
    AnnuityKeyStep settings d a t (deleteHeld d.token mid t) m := by
  cases hm : (deleteHeld d.token mid t).find m with
  | none => exact .gone hm
  | some r => exact .changed (find_deleteHeld_some hm) hm .keep

lemma phase_lock (now : Time) (mids : List String) {mid err : String} {start attempts : Nat}
    {payload : Option String} :
    (d.lock settings now mids t).2.phase ≠ .recording mid err start attempts payload := by
  unfold AnnuityDrain.lock
  dsimp only
  split <;> simp

variable {clock : Nat} {writing : List String} {result : AnnuityResult}

/-- A statement after which no failure is being recorded. -/
lemma recordsRead_of_phase
    (h : ∀ mid err start attempts payload,
      result.drain.phase ≠ .recording mid err start attempts payload) : RecordsRead t d a result :=
  fun mid err start attempts payload hphase => absurd hphase (h mid err start attempts payload)

lemma annuityDrainStep_failureSelect
    (h : annuityDrainStep settings clock writing t d .failureSelect = some result) :
    result.drain.token = d.token ∧ RecordsRead t d .failureSelect result ∧
      ∀ m, AnnuityKeyStep settings d .failureSelect t result.queue m := by
  simp only [annuityDrainStep] at h
  split at h
  · cases h
    refine ⟨rfl, ?_, fun m => .refl⟩
    intro mid err start attempts payload hphase
    cases hphase
    exact .inl ⟨rfl, rfl⟩
  · cases h

lemma annuityDrainStep_failureWrite {now later : Time}
    (h : annuityDrainStep settings clock writing t d (.failureWrite now later) = some result) :
    result.drain.token = d.token ∧ RecordsRead t d (.failureWrite now later) result ∧
      ∀ m, AnnuityKeyStep settings d (.failureWrite now later) t result.queue m := by
  simp only [annuityDrainStep] at h
  split at h
  · next mid err start attempts payload hrecording =>
    split at h
    · split at h
      · cases h
        exact ⟨rfl, recordsRead_of_phase (by simp), fun m => annuityKeyStep_delete⟩
      · next hleft =>
        cases h
        refine ⟨rfl, recordsRead_of_phase (by simp),
          fun m => annuityKeyStep_update (matterId_failRow _ _ now) ?_⟩
        intro r hp
        obtain ⟨hid, htoken⟩ := of_decide_eq_true hp
        exact .fail rfl (hid ▸ hrecording) hleft htoken
    · cases h
  · cases h

lemma annuityDrainStep_heartbeat {mid : String} {now : Time}
    (h : annuityDrainStep settings clock writing t d (.heartbeat mid now) = some result) :
    result.drain.token = d.token ∧ RecordsRead t d (.heartbeat mid now) result ∧
      ∀ m, AnnuityKeyStep settings d (.heartbeat mid now) t result.queue m := by
  simp only [annuityDrainStep] at h
  split at h
  · cases h
    refine ⟨rfl, ?_, fun m => annuityKeyStep_update (matterId_refreshRow now) ?_⟩
    · intro mid' err start attempts payload hphase
      exact .inr ⟨hphase, mid, now, rfl⟩
    · intro r hp
      exact .refresh rfl (of_decide_eq_true hp).2
  · cases h

lemma annuityDrainStep_key (h : annuityDrainStep settings clock writing t d a = some result) :
    result.drain.token = d.token ∧ RecordsRead t d a result ∧
      ∀ m, AnnuityKeyStep settings d a t result.queue m := by
  cases a with
  | pick now =>
    simp only [annuityDrainStep] at h
    split at h
    · cases h
      exact ⟨rfl, recordsRead_of_phase (fun _ _ _ _ _ => phase_lock now _),
        fun m => annuityKeyStep_lock (.inl rfl)⟩
    · cases h
  | lockSelect ids now =>
    simp only [annuityDrainStep] at h
    split at h
    · cases h
      exact ⟨rfl, recordsRead_of_phase (by simp), fun m => .refl⟩
    · cases h
  | lockUpdate =>
    simp only [annuityDrainStep] at h
    split at h
    · next mids now hlocking =>
      split at h
      · cases h
        exact ⟨rfl, recordsRead_of_phase (fun _ _ _ _ _ => phase_lock now mids),
          fun m => annuityKeyStep_lock (.inr ⟨rfl, mids, hlocking⟩)⟩
      · cases h
    · cases h
  | begin =>
    simp only [annuityDrainStep] at h
    split at h
    · cases h
      exact ⟨rfl, recordsRead_of_phase (by simp), fun m => .refl⟩
    · cases h
  | finish =>
    simp only [annuityDrainStep] at h
    split at h
    · split at h
      · split at h
        · cases h
          exact ⟨rfl, recordsRead_of_phase (by simp), fun m => annuityKeyStep_delete⟩
        · cases h
          exact ⟨rfl, recordsRead_of_phase (by simp), fun m => .refl⟩
      · cases h
    · cases h
  | raise err =>
    simp only [annuityDrainStep] at h
    split at h
    · cases h
      exact ⟨rfl, recordsRead_of_phase (by simp), fun m => .refl⟩
    · cases h
  | failureSelect => exact annuityDrainStep_failureSelect h
  | failureWrite now later => exact annuityDrainStep_failureWrite h
  | failureError =>
    simp only [annuityDrainStep] at h
    split at h
    all_goals cases h
    all_goals exact ⟨rfl, recordsRead_of_phase (by simp), fun m => .refl⟩
  | heartbeat mid now => exact annuityDrainStep_heartbeat h

end Keys

/-! ### The queue in time -/

structure AnnuityTimed where
  queue : AnnuityState
  now : Time

def AnnuityTimed.initial (now : Time) : AnnuityTimed := ⟨AnnuityState.initial, now⟩

inductive AnnuityTimedAction
  | act (a : AnnuityAction)
  | tick (now : Time)

def annuityTimedStep (settings : DrainSettings) (s : AnnuityTimed) :
    AnnuityTimedAction → Option AnnuityTimed
  | .act a => (annuityStep settings s.queue a).map (fun t => { s with queue := t })
  | .tick now => if s.now ≤ now then some { s with now := now } else none

def attemptsUsedUp (settings : DrainSettings) (r : AnnuityRow) : Bool :=
  settings.maxAttempts ≤ (r.attempts : Int)

def lockLives (settings : DrainSettings) (now : Time) (r : AnnuityRow) : Bool :=
  r.lockedAt.any (expiredBefore settings now ≤ ·)

/-- From the present on, any drain may lock the row once it is due. -/
def Selectable (settings : DrainSettings) (now : Time) (r : AnnuityRow) : Prop :=
  ∀ later, now ≤ later → r.nextRunAt.all (· ≤ later) → claimable settings later r

/-- The lock of a last permitted attempt does not expire: not by the time that passes, and
not because it is written with a clock reading that is too old. No request is committed
for a row without an attempt left. -/
def leavesAnAttempt (settings : DrainSettings) (s : AnnuityTimed) : AnnuityTimedAction → Bool
  | .tick now => s.queue.queue.rows.all (fun r => attemptsUsedUp settings r →
      lockLives settings now r)
  | .act (.commit call) =>
    (s.queue.pending.find? (fun u => u.call = call)).all (fun u =>
      (s.queue.queue.find u.mid).all (fun r => ¬attemptsUsedUp settings r))
  | .act (.drain token a) =>
    (s.queue.drains.find? (fun d => d.token = token)).all (fun d =>
      match a, d.phase with
      | .pick now, _ => s.queue.queue.rows.all (fun r =>
          claimable settings now r ∧ settings.maxAttempts ≤ (r.attempts : Int) + 1 →
            expiredBefore settings s.now ≤ now)
      | .lockUpdate, .locking _ now => s.queue.queue.rows.all (fun r =>
          claimable settings now r ∧ settings.maxAttempts ≤ (r.attempts : Int) + 1 →
            expiredBefore settings s.now ≤ now)
      | .heartbeat _ now, _ => s.queue.queue.rows.all (fun r =>
          r.lockToken = some d.token ∧ attemptsUsedUp settings r →
            expiredBefore settings s.now ≤ now)
      | _, _ => true)
  | _ => true

/-- A row without an attempt left is under a live lock, and a drain that records a failure
knows the attempts of the row it still holds. -/
structure AnnuityAttemptsOk (settings : DrainSettings) (s : AnnuityTimed) : Prop where
  last : ∀ m r, s.queue.queue.find m = some r → attemptsUsedUp settings r →
    lockLives settings s.now r
  reads : ∀ d ∈ s.queue.drains, ∀ mid err start attempts payload,
    d.phase = .recording mid err start attempts payload →
      ∀ r, s.queue.queue.find mid = some r → r.lockToken = some d.token → r.attempts = attempts

section Timed

variable {settings : DrainSettings} {s s' : AnnuityTimed}

lemma lockLives_rowStep {token : Nat} {d : AnnuityDrain} {a : AnnuityDrainAction} {m : String}
    {r r' : AnnuityRow} (hmax : 1 ≤ settings.maxAttempts)
    (hguard : leavesAnAttempt settings s (.act (.drain token a)))
    (hd : s.queue.drains.find? (fun d => d.token = token) = some d)
    (hok : AnnuityAttemptsOk settings s) (hr : s.queue.queue.find m = some r)
    (hrow : AnnuityRowStep settings d a r r') (hused : attemptsUsedUp settings r') :
    lockLives settings s.now r' := by
  have hmem := Keyed.mem_of_find hr
  simp only [leavesAnAttempt, hd, Option.all_some] at hguard
  cases hrow with
  | keep => exact hok.last m r hr hused
  | @lock now hlocks hclaimable =>
    have hreached : settings.maxAttempts ≤ (r.attempts : Int) + 1 := by
      simpa [attemptsUsedUp, lockRow] using hused
    have hreading : expiredBefore settings s.now ≤ now := by
      obtain rfl | ⟨rfl, mids, hphase⟩ := hlocks
      · simp only [List.all_eq_true, decide_eq_true_eq] at hguard
        exact hguard r hmem ⟨hclaimable, hreached⟩
      · simp only [hphase, List.all_eq_true, decide_eq_true_eq] at hguard
        exact hguard r hmem ⟨hclaimable, hreached⟩
    simpa [lockLives, lockRow] using hreading
  | @refresh mid now ha htoken =>
    subst ha
    simp only [List.all_eq_true, decide_eq_true_eq] at hguard
    have hreading := hguard r hmem ⟨htoken, hused⟩
    simpa [lockLives, refreshRow] using hreading
  | @fail err start attempts payload now later ha hphase hleft htoken =>
    -- the attempts that were read are those of the row, so it would have been dead-lettered
    exfalso
    have hid := Keyed.key_of_find hr
    rw [hid] at hphase
    have hread := hok.reads d (List.mem_of_find?_eq_some hd) m err start attempts payload hphase
      r hr htoken
    have hle : settings.maxAttempts ≤ (r.attempts : Int) := of_decide_eq_true hused
    apply hleft
    rw [hread] at hle
    exact decide_eq_true ⟨hle, by omega⟩

/-- Another drain, or a refresh, leaves a held row with its attempts. -/
lemma attempts_rowStep {c : AnnuityDrain} {a : AnnuityDrainAction} {r r' : AnnuityRow} {token : Nat}
    (hrow : AnnuityRowStep settings c a r r') (htoken : r'.lockToken = some token)
    (hother : token ≠ c.token ∨ ∃ m now, a = .heartbeat m now) :
    r.lockToken = some token ∧ r'.attempts = r.attempts := by
  cases hrow with
  | keep => exact ⟨htoken, rfl⟩
  | lock hlocks _ =>
    rcases hother with hne | ⟨m, now, rfl⟩
    · exact absurd (Option.some.inj htoken).symm hne
    · rcases hlocks with hpick | ⟨hupdate, _⟩
      · cases hpick
      · cases hupdate
  | refresh _ _ => exact ⟨htoken, rfl⟩
  | fail _ _ _ _ => cases htoken

lemma mem_setDrain_annuity {q : AnnuityState} {c d : AnnuityDrain} (h : c ∈ q.setDrain d) :
    c = d ∨ (c ∈ q.drains ∧ c.token ≠ d.token) := by
  obtain ⟨b, hb, heq⟩ := List.mem_map.mp h
  by_cases ht : b.token = d.token
  · rw [if_pos ht] at heq
    exact .inl heq.symm
  · rw [if_neg ht] at heq
    subst heq
    exact .inr ⟨hb, ht⟩

lemma attemptsOk_drain {token : Nat} {a : AnnuityDrainAction} {t : AnnuityState}
    (hmax : 1 ≤ settings.maxAttempts) (h : AnnuityAttemptsOk settings s)
    (hguard : leavesAnAttempt settings s (.act (.drain token a)))
    (hstep : annuityStep settings s.queue (.drain token a) = some t) :
    AnnuityAttemptsOk settings { s with queue := t } := by
  simp only [annuityStep] at hstep
  split at hstep
  · cases hstep
  · next d hd =>
    split at hstep
    · cases hstep
    · next result hresult =>
      cases hstep
      obtain ⟨htoken, hreads, hkey⟩ := annuityDrainStep_key hresult
      constructor
      · intro m r' hr' hused
        cases hkey m with
        | @changed r q hr hq hrow =>
          rw [show result.queue.find m = some r' from hr'] at hq
          cases hq
          have hlives := lockLives_rowStep hmax hguard hd h hr hrow hused
          exact hlives
        | gone hnone =>
          rw [show result.queue.find m = some r' from hr'] at hnone
          cases hnone
      · intro c hc mid err start attempts payload hphase r' hr' hheld
        -- the row before, if the step is a refresh or one of another drain
        have hbefore : c.token ≠ d.token ∨ (∃ m now, a = .heartbeat m now) →
            ∃ r, s.queue.queue.find mid = some r ∧ r.lockToken = some c.token ∧
              r'.attempts = r.attempts := by
          intro hother
          cases hkey mid with
          | @changed r q hr hq hrow =>
            rw [show result.queue.find mid = some r' from hr'] at hq
            cases hq
            exact ⟨r, hr, attempts_rowStep hrow hheld hother⟩
          | gone hnone =>
            rw [show result.queue.find mid = some r' from hr'] at hnone
            cases hnone
        rcases mem_setDrain_annuity hc with rfl | ⟨hold, hne⟩
        · rcases hreads mid err start attempts payload hphase with ⟨hqueue, hread⟩ | ⟨hold, hbeat⟩
          · have hfind : s.queue.queue.find mid = some r' := by
              rw [← hqueue]
              exact hr'
            rw [hread, hfind, Option.map_some, Option.getD_some]
          · obtain ⟨r, hr, hrheld, hattempts⟩ := hbefore (.inr hbeat)
            rw [htoken] at hrheld
            rw [hattempts]
            exact h.reads d (List.mem_of_find?_eq_some hd) mid err start attempts payload hold r hr
              hrheld
        · rw [htoken] at hne
          obtain ⟨r, hr, hrheld, hattempts⟩ := hbefore (.inl hne)
          rw [hattempts]
          exact h.reads c hold mid err start attempts payload hphase r hr hrheld

lemma find_upsertRebuild (u : PendingRebuild) (t : AnnuityTable) (m : String) :
    (upsertRebuild u t).find m =
      if m = u.mid then some ((t.find m).elim (rebuildRow u) (renewRebuild u)) else t.find m :=
  Keyed.find_upsert (rebuildRow u) (renewRebuild u) (matterId_renewRebuild u)

/-- The row after a request: a new one, or one with the lock and the attempts it had. -/
lemma find_upsertRebuild_cases {u : PendingRebuild} {t : AnnuityTable} {m : String} {r : AnnuityRow}
    (h : (upsertRebuild u t).find m = some r) :
    r.attempts = 0 ∧ r.lockToken = none ∧ r.lockedAt = none ∨
      ∃ q, t.find m = some q ∧ r.attempts = q.attempts ∧ r.lockToken = q.lockToken ∧
        r.lockedAt = q.lockedAt := by
  rw [find_upsertRebuild] at h
  split at h
  · cases hq : t.find m with
    | none =>
      rw [hq] at h
      cases h
      exact .inl ⟨rfl, rfl, rfl⟩
    | some q =>
      rw [hq] at h
      cases h
      exact .inr ⟨q, rfl, rfl, rfl, rfl⟩
  · exact .inr ⟨r, h, rfl, rfl, rfl⟩

lemma attemptsUsedUp_eq {r q : AnnuityRow} (h : r.attempts = q.attempts) :
    attemptsUsedUp settings r = attemptsUsedUp settings q := by
  unfold attemptsUsedUp
  rw [h]

lemma not_attemptsUsedUp_of_zero (hmax : 1 ≤ settings.maxAttempts) {r : AnnuityRow}
    (h : r.attempts = 0) : ¬attemptsUsedUp settings r := by
  intro hused
  have hle := of_decide_eq_true hused
  rw [h] at hle
  omega

lemma attemptsOk_commit {u : PendingRebuild} {t : AnnuityState} (hmax : 1 ≤ settings.maxAttempts)
    (h : AnnuityAttemptsOk settings s) (hqueue : t.queue = upsertRebuild u s.queue.queue)
    (hdrains : t.drains = s.queue.drains) : AnnuityAttemptsOk settings { s with queue := t } := by
  constructor
  · intro m r hr hused
    dsimp only at hr
    rw [hqueue] at hr
    rcases find_upsertRebuild_cases hr with ⟨hzero, _⟩ | ⟨q, hq, hattempts, _, hlocked⟩
    · exact absurd hused (not_attemptsUsedUp_of_zero hmax hzero)
    · rw [attemptsUsedUp_eq hattempts] at hused
      unfold lockLives
      rw [hlocked]
      exact h.last m q hq hused
  · intro d hd mid err start attempts payload hphase r hr hheld
    dsimp only at hd hr
    rw [hdrains] at hd
    rw [hqueue] at hr
    rcases find_upsertRebuild_cases hr with ⟨_, hnone, _⟩ | ⟨q, hq, hattempts, htoken, _⟩
    · rw [hnone] at hheld
      cases hheld
    · rw [hattempts]
      exact h.reads d hd mid err start attempts payload hphase q hq (htoken ▸ hheld)

/-- A step that leaves the table alone and adds no drain that records a failure. -/
lemma AnnuityAttemptsOk.frame {t : AnnuityState} (h : AnnuityAttemptsOk settings s)
    (hqueue : t.queue = s.queue.queue)
    (hdrains : ∀ d ∈ t.drains, d ∈ s.queue.drains ∨ d.phase = .idle) :
    AnnuityAttemptsOk settings { s with queue := t } := by
  constructor
  · intro m r hr
    dsimp only at hr
    rw [hqueue] at hr
    exact h.last m r hr
  · intro d hd mid err start attempts payload hphase r hr hheld
    dsimp only at hr
    rw [hqueue] at hr
    rcases hdrains d hd with hold | hidle
    · exact h.reads d hold mid err start attempts payload hphase r hr hheld
    · rw [hidle] at hphase
      cases hphase

lemma attemptsOk_step {a : AnnuityTimedAction} (hmax : 1 ≤ settings.maxAttempts)
    (h : AnnuityAttemptsOk settings s) (hguard : leavesAnAttempt settings s a)
    (hstep : annuityTimedStep settings s a = some s') : AnnuityAttemptsOk settings s' := by
  cases a with
  | tick now =>
    simp only [annuityTimedStep] at hstep
    split at hstep
    · cases hstep
      refine ⟨?_, h.reads⟩
      intro m r hr hused
      simp only [leavesAnAttempt, List.all_eq_true, decide_eq_true_eq] at hguard
      exact hguard r (Keyed.mem_of_find hr) hused
    · cases hstep
  | act a =>
    obtain ⟨t, ht, rfl⟩ := Option.map_eq_some_iff.mp hstep
    cases a with
    | enqueue matterId reason now =>
      simp only [annuityStep] at ht
      split at ht
      · cases ht
      · cases ht
        exact h.frame rfl (fun d hd => .inl hd)
    | commit call =>
      simp only [annuityStep] at ht
      split at ht
      · cases ht
      · next u hu =>
        cases ht
        exact attemptsOk_commit hmax h rfl rfl
    | rollback call =>
      cases ht
      exact h.frame rfl (fun d hd => .inl hd)
    | start =>
      cases ht
      refine h.frame rfl ?_
      intro d hd
      rcases List.mem_cons.mp hd with rfl | hold
      · exact .inr rfl
      · exact .inl hold
    | drain token a => exact attemptsOk_drain hmax h hguard ht
    | crash token =>
      cases ht
      exact h.frame rfl (fun d hd => .inl (List.mem_filter.mp hd).1)

lemma selectable_of_not_live {now : Time} {r : AnnuityRow} (hlive : ¬lockLives settings now r)
    (hleft : ¬attemptsUsedUp settings r) : Selectable settings now r := by
  intro later hlater hdue
  have hattempts : (r.attempts : Int) < settings.maxAttempts := by
    simpa [attemptsUsedUp] using hleft
  refine decide_eq_true ⟨?_, hdue, hattempts⟩
  cases ht : r.lockedAt with
  | none => rfl
  | some t =>
    have hexpired : t < expiredBefore settings now := by
      simpa [lockLives, ht] using hlive
    have hmono : expiredBefore settings now ≤ expiredBefore settings later :=
      Int.sub_le_sub_right hlater _
    rw [Option.all_some, decide_eq_true_eq]
    exact Int.lt_of_lt_of_le hexpired hmono

/-- The row of a matter after a request for it has been committed. -/
lemma find_commit {call : Nat} {u : PendingRebuild} (hmax : 1 ≤ settings.maxAttempts)
    (hguard : leavesAnAttempt settings s (.act (.commit call)))
    (hu : s.queue.pending.find? (fun u => u.call = call) = some u)
    (hstep : annuityTimedStep settings s (.act (.commit call)) = some s') :
    ∃ r, s'.queue.queue.find u.mid = some r ∧ ¬attemptsUsedUp settings r := by
  obtain ⟨t, ht, rfl⟩ := Option.map_eq_some_iff.mp hstep
  simp only [annuityStep, hu] at ht
  cases ht
  have hsome : ((upsertRebuild u s.queue.queue).find u.mid).isSome := isSome_upsertRebuild (.inl rfl)
  obtain ⟨r, hr⟩ := Option.isSome_iff_exists.mp hsome
  refine ⟨r, hr, ?_⟩
  rcases find_upsertRebuild_cases hr with ⟨hzero, _⟩ | ⟨q, hq, hattempts, _, _⟩
  · exact not_attemptsUsedUp_of_zero hmax hzero
  · rw [attemptsUsedUp_eq hattempts]
    simpa [leavesAnAttempt, hu, hq] using hguard

end Timed

/-- In every run in which the lock of a last permitted attempt does not expire and no
request is committed for a row without an attempt left, every row is under a live lock or
may be locked once it is due, and the commit of a request leaves a row with an attempt left,
which is one of these two. -/
theorem annuity_rows_selectable (settings : DrainSettings) (hmax : 1 ≤ settings.maxAttempts)
    {as : List AnnuityTimedAction} {now : Time} {s : AnnuityTimed}
    (h : GuardedRun (annuityTimedStep settings) (fun s a => leavesAnAttempt settings s a)
      (AnnuityTimed.initial now) as s) :
    (∀ r ∈ s.queue.queue.rows, lockLives settings s.now r ∨ Selectable settings s.now r) ∧
    ∀ call u s', s.queue.pending.find? (fun u => u.call = call) = some u →
      leavesAnAttempt settings s (.act (.commit call)) →
      annuityTimedStep settings s (.act (.commit call)) = some s' →
        ∃ r, s'.queue.queue.find u.mid = some r ∧ (r.attempts : Int) < settings.maxAttempts ∧
          (lockLives settings s'.now r ∨ Selectable settings s'.now r) := by
  have hok : AnnuityAttemptsOk settings s := by
    refine h.invariant ?_ (fun _ _ _ hi hg hs => attemptsOk_step hmax hi hg hs)
    constructor
    · intro m r hr
      cases hr
    · intro d hd
      cases hd
  constructor
  · intro r hr
    by_cases hlive : lockLives settings s.now r
    · exact .inl hlive
    · right
      apply selectable_of_not_live hlive
      intro hused
      exact hlive (hok.last r.matterId r (Keyed.find_of_mem hr) hused)
  · intro call u s' hu hguard hstep
    obtain ⟨r, hr, hleft⟩ := find_commit hmax hguard hu hstep
    refine ⟨r, hr, by simpa [attemptsUsedUp] using hleft, ?_⟩
    by_cases hlive : lockLives settings s'.now r
    · exact .inl hlive
    · exact .inr (selectable_of_not_live hlive hleft)

/-- A drain fails, and a request is committed while the row waits for its next attempt. -/
theorem annuity_rows_selectable_after_failure :
    ∃ s : AnnuityTimed,
      GuardedRun (annuityTimedStep {}) (fun s a => leavesAnAttempt {} s a) (AnnuityTimed.initial 0)
        [.act (.enqueue "M1" none 0), .act (.commit 0), .act .start,
          .act (.drain 1 (.lockSelect ["M1"] 1)), .act (.drain 1 .lockUpdate),
          .act (.drain 1 .begin), .act (.drain 1 (.raise "timeout")),
          .act (.drain 1 .failureSelect), .act (.drain 1 (.failureWrite 2 2)), .tick 3,
          .act (.enqueue "M1" (some "fee") 3)] s ∧
      s.queue.queue.rows.length = 1 ∧
      (∀ r ∈ s.queue.queue.rows, lockLives {} s.now r ∨ Selectable {} s.now r) := by
  have hended : ∃ s : AnnuityTimed,
      GuardedRun (annuityTimedStep {}) (fun s a => leavesAnAttempt {} s a) (AnnuityTimed.initial 0)
        [.act (.enqueue "M1" none 0), .act (.commit 0), .act .start,
          .act (.drain 1 (.lockSelect ["M1"] 1)), .act (.drain 1 .lockUpdate),
          .act (.drain 1 .begin), .act (.drain 1 (.raise "timeout")),
          .act (.drain 1 .failureSelect), .act (.drain 1 (.failureWrite 2 2)), .tick 3,
          .act (.enqueue "M1" (some "fee") 3)] s ∧
      decide (s.queue.queue.rows.length = 1) = true :=
    exists_guardedRun_of_any _ _ _ _ _ (by decide +kernel)
  obtain ⟨s, hrun, hs⟩ := hended
  exact ⟨s, hrun, of_decide_eq_true hs, (annuity_rows_selectable {} (by decide) hrun).1⟩

/-- A drain crashes in the last permitted attempt and its lock expires. The row has no
attempt left, and a request that is committed then leaves it so. -/
theorem annuity_row_stranded :
    ¬∀ (settings : DrainSettings), 1 ≤ settings.maxAttempts →
      ∀ (as : List AnnuityTimedAction) (now : Time) (s : AnnuityTimed),
        Run (annuityTimedStep settings) (AnnuityTimed.initial now) as s →
          ∀ r ∈ s.queue.queue.rows, lockLives settings s.now r ∨
            (r.attempts : Int) < settings.maxAttempts := by
  intro h
  have hended : ∃ s : AnnuityTimed,
      Run (annuityTimedStep { maxAttempts := 1 }) (AnnuityTimed.initial 0)
        [.act (.enqueue "M1" none 0), .act (.commit 0), .act .start,
          .act (.drain 1 (.lockSelect ["M1"] 1)), .act (.drain 1 .lockUpdate), .act (.crash 1),
          .tick 400000000, .act (.enqueue "M1" none 400000000), .act (.commit 2)] s ∧
      decide (∃ r ∈ s.queue.queue.rows, lockLives { maxAttempts := 1 } s.now r = false ∧
        r.attempts = 1) = true :=
    exists_guardedRun_of_any _ _ _ _ _ (by decide +kernel)
  obtain ⟨s, hrun, hs⟩ := hended
  obtain ⟨r, hr, hlive, hattempts⟩ := of_decide_eq_true hs
  rcases h { maxAttempts := 1 } (by decide) _ 0 s hrun r hr with hlives | hlt
  · rw [hlive] at hlives
    cases hlives
  · rw [hattempts] at hlt
    exact absurd hlt (by decide)

end IpDocket.Queues
