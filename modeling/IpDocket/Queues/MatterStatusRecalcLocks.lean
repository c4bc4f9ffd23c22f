import IpDocket.Queues.MatterStatusRecalcRequests

/-!
# The locks of the recalculation queue

`RecalcKeyStep` lists what a statement of a drain can do to the row of a matter, and all
invariants of the locks are proved from it. A drain finalizes and fails only rows that
carry its token. The status of the matter is committed with the statement that deletes or
releases the row; but the release does not look at whether it has found the row.
-/

namespace IpDocket.Queues
open IpDocket.Lib

/-- The drain may lock rows with the clock reading `now` in this step. -/
def LocksAt (d : RecalcDrain) (a : RecalcDrainAction) (now : Time) : Prop :=
  (∃ limit, a = .pick limit now) ∨ a = .lockUpdate ∧ ∃ mids, d.phase = .locking mids now

inductive RecalcRowStep (settings : DrainSettings) (d : RecalcDrain) (a : RecalcDrainAction) :
    RecalcRow → RecalcRow → Prop
  | keep {r : RecalcRow} : RecalcRowStep settings d a r r
  | lock {r : RecalcRow} {now : Time} : LocksAt d a now → claimable settings now r →
      RecalcRowStep settings d a r (lockRow d.token now r)
  | refresh {r : RecalcRow} {mid : Option String} {now : Time} : a = .heartbeat mid now →
      r.lockToken = some d.token → RecalcRowStep settings d a r (refreshRow now r)
  | release {r : RecalcRow} {start : Nat} {now : Time} : a = .finalizeWrite now →
      d.phase = .releasing r.matterId start → r.lockToken = some d.token →
      RecalcRowStep settings d a r (releaseRow now r)
  | fail {r : RecalcRow} {err : String} {attempts : Nat} {now later : Time} :
      a = .failureUpdate now later → d.phase = .recording r.matterId err attempts →
      r.lockToken = some d.token →
      RecalcRowStep settings d a r
        (failRow (errorText err) (failureNextRun settings attempts later) now r)

inductive RecalcKeyStep (settings : DrainSettings) (d : RecalcDrain) (a : RecalcDrainAction)
    (t t' : RecalcTable) (m : String) : Prop
  | absent : t.find m = none → t'.find m = none → RecalcKeyStep settings d a t t' m
  | changed {r r' : RecalcRow} : t.find m = some r → t'.find m = some r' →
      RecalcRowStep settings d a r r' → RecalcKeyStep settings d a t t' m
  | deleted {r : RecalcRow} {start selected : Nat} {now : Time} : t.find m = some r →
      t'.find m = none → a = .finalizeWrite now → d.phase = .deleting m start selected →
      r.lockToken = some d.token → RecalcKeyStep settings d a t t' m

section Keys

variable {settings : DrainSettings} {d : RecalcDrain} {a : RecalcDrainAction}
  {t t' : RecalcTable} {m : String}

lemma RecalcKeyStep.refl : RecalcKeyStep settings d a t t m := by
  cases hm : t.find m with
  | none => exact .absent hm hm
  | some r => exact .changed hm hm .keep

lemma recalcKeyStep_update {p : RecalcRow → Bool} {f : RecalcRow → RecalcRow}
    (hf : ∀ r, (f r).matterId = r.matterId)
    (hrow : ∀ r, p r → RecalcRowStep settings d a r (f r)) :
    RecalcKeyStep settings d a t (t.update (onRows p f) (key_onRows hf)) m := by
  have hfind : (t.update (onRows p f) (key_onRows hf)).find m =
      (t.find m).map (fun r => if p r then f r else r) := Keyed.find_update_onRows hf
  cases hm : t.find m with
  | none =>
    rw [hm] at hfind
    exact .absent hm hfind
  | some r =>
    rw [hm, Option.map_some] at hfind
    refine .changed hm hfind ?_
    split
    · next hp => exact hrow r hp
    · exact .keep

lemma recalcKeyStep_lock {now : Time} {ids : List String} (h : LocksAt d a now) :
    RecalcKeyStep settings d a t (lockRows settings d.token now ids t) m := by
  refine recalcKeyStep_update (matterId_lockRow d.token now) ?_
  intro r hp
  exact .lock h (of_decide_eq_true hp).2

/-- The row of a matter after the `DELETE` of a drain. -/
lemma recalcKeyStep_delete {mid : String} {start selected : Nat} {now : Time}
    (ha : a = .finalizeWrite now) (hphase : d.phase = .deleting mid start selected) :
    RecalcKeyStep settings d a t (deleteHeld d.token mid t) m := by
  cases hm : t.find m with
  | none =>
    refine .absent hm ?_
    simp [deleteHeld, Keyed.find_delete, hm]
  | some r =>
    have hfind := @find_deleteHeld _ t d.token mid m r hm
    by_cases hp : holdsToken d.token mid r
    · rw [if_pos hp] at hfind
      obtain ⟨hid, htoken⟩ := of_decide_eq_true hp
      have hmid : mid = m := hid.symm.trans (Keyed.key_of_find hm)
      exact .deleted hm hfind ha (hmid ▸ hphase) htoken
    · rw [if_neg hp] at hfind
      exact .changed hm hfind .keep

lemma drainStep_key {clock : Nat} {writing : List String} {result : RecalcResult}
    (h : drainStep settings clock writing t d a = some result) :
    result.drain.token = d.token ∧ ∀ m, RecalcKeyStep settings d a t result.queue m := by
  cases a with
  | pick limit now =>
    simp only [drainStep] at h
    split at h
    · cases h
      exact ⟨rfl, fun m => recalcKeyStep_lock (.inl ⟨limit, rfl⟩)⟩
    · cases h
  | lockSelect ids now =>
    simp only [drainStep] at h
    split at h
    all_goals cases h
    exact ⟨rfl, fun m => .refl⟩
  | lockUpdate =>
    simp only [drainStep] at h
    split at h
    · next mids now hphase =>
      split at h
      · cases h
        exact ⟨rfl, fun m => recalcKeyStep_lock (.inr ⟨rfl, mids, hphase⟩)⟩
      · cases h
    · cases h
  | begin mid =>
    simp only [drainStep] at h
    split at h
    all_goals cases h
    exact ⟨rfl, fun m => .refl⟩
  | finalizeSelect =>
    simp only [drainStep] at h
    split at h
    · split at h
      · cases h
        exact ⟨rfl, fun m => .refl⟩
      · split at h
        all_goals cases h
        all_goals exact ⟨rfl, fun m => .refl⟩
    · cases h
  | finalizeWrite now =>
    simp only [drainStep] at h
    split at h
    · next mid start hphase =>
      split at h
      · cases h
        refine ⟨rfl, fun m => recalcKeyStep_update (matterId_releaseRow now) ?_⟩
        intro r hp
        obtain ⟨hid, htoken⟩ := of_decide_eq_true hp
        exact .release rfl (hid ▸ hphase) htoken
      · cases h
    · next mid start selected hphase =>
      split at h
      · split at h
        · cases h
          exact ⟨rfl, fun m => recalcKeyStep_delete rfl hphase⟩
        · cases h
          exact ⟨rfl, fun m => .refl⟩
      · cases h
    · cases h
  | raise err =>
    simp only [drainStep] at h
    split at h
    all_goals cases h
    all_goals exact ⟨rfl, fun m => .refl⟩
  | failureSelect =>
    simp only [drainStep] at h
    split at h
    all_goals cases h
    exact ⟨rfl, fun m => .refl⟩
  | failureUpdate now later =>
    simp only [drainStep] at h
    split at h
    · next mid err attempts hphase =>
      split at h
      · cases h
        refine ⟨rfl, fun m => recalcKeyStep_update (matterId_failRow _ _ now) ?_⟩
        intro r hp
        obtain ⟨hid, htoken⟩ := of_decide_eq_true hp
        exact .fail rfl (hid ▸ hphase) htoken
      · cases h
    · cases h
  | failureError =>
    simp only [drainStep] at h
    split at h
    all_goals cases h
    all_goals exact ⟨rfl, fun m => .refl⟩
  | heartbeat mid now =>
    simp only [drainStep] at h
    split at h
    · cases h
      refine ⟨rfl, fun m => recalcKeyStep_update (matterId_refreshRow now) ?_⟩
      intro r hp
      exact .refresh rfl (of_decide_eq_true hp).2
    · cases h

end Keys

/-- The lock columns are set together, and the attempts stay within the limit. -/
structure RecalcRowOk (settings : DrainSettings) (r : RecalcRow) : Prop where
  paired : r.lockedAt = none ↔ r.lockToken = none
  bounded : 0 ≤ settings.maxAttempts → (r.attempts : Int) ≤ settings.maxAttempts

structure LocksOk (settings : DrainSettings) (s : RecalcState) : Prop where
  rows : ∀ m r, s.queue.find m = some r → RecalcRowOk settings r
  tokens : ∀ d ∈ s.drains, d.token < s.nextUuid
  distinct : s.drains.Pairwise (fun d c => d.token ≠ c.token)

section Locks

variable {settings : DrainSettings} {s s' : RecalcState}

lemma recalcRowOk_request (mid : String) (payload : RecalcPayload) :
    RecalcRowOk settings (requestRow mid payload) := by
  constructor
  · exact ⟨fun _ => rfl, fun _ => rfl⟩
  · intro hmax
    exact hmax

lemma recalcRowOk_replace {r : RecalcRow} (h : RecalcRowOk settings r) (payload : RecalcPayload) :
    RecalcRowOk settings (replaceRequest settings payload r) := by
  unfold replaceRequest
  by_cases hlive : liveLock settings payload.enqueuedAt r
  · constructor
    · simpa [hlive] using h.paired
    · simpa [hlive] using h.bounded
  · constructor
    · simp [hlive]
    · intro hmax
      simpa [hlive] using hmax

lemma recalcRowOk_step {d : RecalcDrain} {a : RecalcDrainAction} {r r' : RecalcRow}
    (h : RecalcRowOk settings r) (hrow : RecalcRowStep settings d a r r') :
    RecalcRowOk settings r' := by
  cases hrow with
  | keep => exact h
  | lock _ hclaimable =>
    have hlt := (of_decide_eq_true hclaimable).2.2
    constructor
    · simp [lockRow]
    · intro _
      simp only [lockRow]
      omega
  | refresh _ htoken =>
    constructor
    · simp [refreshRow, htoken]
    · exact h.bounded
  | release _ _ _ =>
    constructor
    · simp [releaseRow]
    · intro hmax
      exact hmax
  | fail _ _ _ =>
    constructor
    · simp [failRow]
    · exact h.bounded

/-- The rows after a step are new requests, renewed ones, or come from a drain's statement. -/
lemma locksOk_step {a : RecalcAction} (h : LocksOk settings s)
    (hstep : recalcStep settings s a = some s') : LocksOk settings s' := by
  cases a with
  | enqueue matterId reason now =>
    simp only [recalcStep] at hstep
    split at hstep
    · cases hstep
    · split at hstep
      · cases hstep
      · cases hstep
        exact ⟨h.rows, fun d hd => Nat.lt_succ_of_lt (h.tokens d hd), h.distinct⟩
  | commit id =>
    simp only [recalcStep] at hstep
    split at hstep
    · cases hstep
    · next u hu =>
      cases hstep
      refine ⟨?_, h.tokens, h.distinct⟩
      intro m r hr
      rw [find_upsertRequest] at hr
      split at hr
      · cases hold : s.queue.find m with
        | none =>
          rw [hold] at hr
          cases hr
          exact recalcRowOk_request u.mid u.payload
        | some q =>
          rw [hold] at hr
          cases hr
          exact recalcRowOk_replace (h.rows m q hold) u.payload
      · exact h.rows m r hr
  | rollback id =>
    cases hstep
    exact ⟨h.rows, h.tokens, h.distinct⟩
  | start =>
    cases hstep
    refine ⟨h.rows, ?_, ?_⟩
    · intro d hd
      rcases List.mem_cons.mp hd with rfl | hold
      · exact Nat.lt_succ_self _
      · exact Nat.lt_succ_of_lt (h.tokens d hold)
    · rw [List.pairwise_cons]
      refine ⟨?_, h.distinct⟩
      intro d hd
      exact Nat.ne_of_gt (h.tokens d hd)
  | drain token a =>
    simp only [recalcStep] at hstep
    split at hstep
    · cases hstep
    · next d hd =>
      split at hstep
      · cases hstep
      · next result hresult =>
        cases hstep
        obtain ⟨htoken, hkey⟩ := drainStep_key hresult
        have hmem := List.mem_of_find?_eq_some hd
        have hsame : ∀ c : RecalcDrain, (if c.token = result.drain.token then result.drain else c).token =
            c.token := by
          intro c
          split
          · next heq => exact heq.symm
          · rfl
        refine ⟨?_, ?_, ?_⟩
        · intro m r' hr'
          cases hkey m with
          | absent _ hnone =>
            rw [show result.queue.find m = some r' from hr'] at hnone
            cases hnone
          | @changed r q hr hq hrow =>
            rw [show result.queue.find m = some r' from hr'] at hq
            cases hq
            exact recalcRowOk_step (h.rows m r hr) hrow
          | deleted _ hnone _ _ _ =>
            rw [show result.queue.find m = some r' from hr'] at hnone
            cases hnone
        · intro c hc
          obtain ⟨b, hb, rfl⟩ := List.mem_map.mp hc
          rw [hsame b]
          exact h.tokens b hb
        · rw [RecalcState.setDrain, List.pairwise_map]
          simpa only [hsame] using h.distinct
  | crash token =>
    cases hstep
    exact ⟨h.rows, fun d hd => h.tokens d (List.mem_filter.mp hd).1, h.distinct.filter _⟩

lemma locksOk_initial : LocksOk settings RecalcState.initial := by
  constructor
  · intro m r hr
    cases hr
  · intro d hd
    cases hd
  · exact .nil

/-- Two drains that hold the row of a matter are one. -/
lemma eq_of_isHeld (h : LocksOk settings s) {d c : RecalcDrain} (hd : d ∈ s.drains)
    (hc : c ∈ s.drains) {mid : String} (hheld : isHeld d.token mid s.queue)
    (hheld' : isHeld c.token mid s.queue) : d = c := by
  obtain ⟨r, hr, htoken⟩ := (Option.any_eq_true _ _).mp hheld
  obtain ⟨q, hq, htoken'⟩ := (Option.any_eq_true _ _).mp hheld'
  rw [hr] at hq
  cases hq
  have hsame : d.token = c.token := by
    have heq := of_decide_eq_true htoken
    rw [of_decide_eq_true htoken'] at heq
    exact (Option.some.inj heq).symm
  exact eq_of_key_eq_of_pairwise h.distinct hd hc hsame

end Locks

/-- The drain finalizes or fails a matter in this step, or renews its locks. -/
def RecalcDrainAction.settles : RecalcDrainAction → Bool
  | .finalizeWrite _ | .failureUpdate _ _ | .heartbeat _ _ => true
  | _ => false

/-- A row that carries another token, or none, is left as it is. -/
lemma find_settles {settings : DrainSettings} {clock : Nat} {writing : List String}
    {t : RecalcTable} {d : RecalcDrain} {a : RecalcDrainAction} {result : RecalcResult}
    (ha : a.settles) (h : drainStep settings clock writing t d a = some result) {m : String}
    {r : RecalcRow} (hr : t.find m = some r) (htoken : r.lockToken ≠ some d.token) :
    result.queue.find m = some r := by
  cases (drainStep_key h).2 m with
  | absent hnone _ =>
    rw [hr] at hnone
    cases hnone
  | @changed q q' hq hq' hrow =>
    rw [hr] at hq
    cases hq
    cases hrow with
    | keep => exact hq'
    | lock hlocks _ =>
      obtain ⟨limit, rfl⟩ | ⟨rfl, _⟩ := hlocks
      · cases ha
      · cases ha
    | refresh _ hheld => exact absurd hheld htoken
    | release _ _ hheld => exact absurd hheld htoken
    | fail _ _ hheld => exact absurd hheld htoken
  | deleted hq _ _ _ hheld =>
    rw [hr] at hq
    cases hq
    exact absurd hheld htoken

/-! ### The status of the matter -/

/-- A commit of the cached status: the drain's token, and the row of the matter before and
after the same commit. -/
structure StatusWrite where
  mid : String
  token : Nat
  before : Option RecalcRow
  after : Option RecalcRow
  deriving DecidableEq

/-- The row carried the token of the drain, and was deleted or released. -/
def StatusWrite.ByHolder (w : StatusWrite) : Prop :=
  (∃ r, w.before = some r ∧ r.lockToken = some w.token) ∧
    ∀ r, w.after = some r → r.lockToken = none ∧ r.lockedAt = none

/-- The drain and the matter whose recalculation a step commits. -/
def RecalcState.finalizes (s : RecalcState) : RecalcAction → Option (RecalcDrain × String)
  | .drain token (.finalizeWrite _) =>
    (s.drains.find? (fun d => d.token = token)).bind (fun d =>
      match d.phase with
      | .releasing mid _ => some (d, mid)
      | .deleting mid _ _ => if isHeld d.token mid s.queue then some (d, mid) else none
      | _ => none)
  | _ => none

/-- The queue with the commits of the status as a history variable. -/
structure StatusState where
  queue : RecalcState
  written : List StatusWrite

def StatusState.initial : StatusState := ⟨RecalcState.initial, []⟩

/-- `changed` says whether the recalculation of this step has changed the status. -/
structure StatusAction where
  action : RecalcAction
  changed : Bool

def statusStep (settings : DrainSettings) (s : StatusState) (a : StatusAction) :
    Option StatusState :=
  (recalcStep settings s.queue a.action).map (fun t =>
    { queue := t
      written := ((s.queue.finalizes a.action).filter (fun _ => a.changed)).toList.map
        (fun p => ⟨p.2, p.1.token, s.queue.queue.find p.2, t.queue.find p.2⟩) ++ s.written })

/-- A drain that releases a row with a changed status still holds the row. -/
def releasesHeld (s : StatusState) (a : StatusAction) : Bool :=
  (s.queue.finalizes a.action).all (fun p => a.changed → isHeld p.1.token p.2 s.queue.queue)

section Status

variable {settings : DrainSettings} {s s' : StatusState} {a : StatusAction}

lemma finalizes_eq_some {s : RecalcState} {a : RecalcAction} {d : RecalcDrain} {mid : String}
    (h : s.finalizes a = some (d, mid)) :
    ∃ token now, a = .drain token (.finalizeWrite now) ∧
      s.drains.find? (fun d => d.token = token) = some d ∧
      ((∃ start, d.phase = .releasing mid start) ∨
        ∃ start selected, d.phase = .deleting mid start selected) := by
  unfold RecalcState.finalizes at h
  split at h
  · next token now =>
    obtain ⟨c, hc, hphase⟩ := Option.bind_eq_some_iff.mp h
    refine ⟨token, now, rfl, ?_⟩
    split at hphase
    · next start heq =>
      cases hphase
      exact ⟨hc, .inl ⟨start, heq⟩⟩
    · next start selected heq =>
      split at hphase
      · cases hphase
        exact ⟨hc, .inr ⟨start, selected, heq⟩⟩
      · cases hphase
    · cases hphase
  · cases h

/-- The commit of a holder deletes or releases the row. -/
lemma byHolder_finalizes {t : RecalcState} {a : RecalcAction} {d : RecalcDrain} {mid : String}
    (h : s.queue.finalizes a = some (d, mid)) (hheld : isHeld d.token mid s.queue.queue)
    (hstep : recalcStep settings s.queue a = some t) :
    StatusWrite.ByHolder ⟨mid, d.token, s.queue.queue.find mid, t.queue.find mid⟩ := by
  obtain ⟨r, hr, htoken⟩ := (Option.any_eq_true _ _).mp hheld
  refine ⟨⟨r, hr, of_decide_eq_true htoken⟩, ?_⟩
  intro r' hr'
  obtain ⟨token, now, rfl, hd, hphase⟩ := finalizes_eq_some h
  simp only [recalcStep, hd] at hstep
  split at hstep
  · cases hstep
  · next result hresult =>
    cases hstep
    dsimp only at hr'
    have hfind : ∀ {q}, result.queue.find mid = some q → q.lockToken = none ∧ q.lockedAt = none := by
      intro q hq
      simp only [drainStep] at hresult
      rcases hphase with ⟨start, hphase⟩ | ⟨start, selected, hphase⟩
      · rw [hphase] at hresult
        dsimp only at hresult
        split at hresult
        · cases hresult
          have hupdate : (updateHeld d.token mid (releaseRow now) (matterId_releaseRow now)
              s.queue.queue).find mid = (s.queue.queue.find mid).map
                (fun r => if holdsToken d.token mid r then releaseRow now r else r) :=
            Keyed.find_update_onRows (matterId_releaseRow now)
          rw [show (updateHeld d.token mid (releaseRow now) (matterId_releaseRow now)
            s.queue.queue).find mid = some q from hq, hr, Option.map_some, if_pos] at hupdate
          · cases hupdate
            exact ⟨rfl, rfl⟩
          · simp [holdsToken, Keyed.key_of_find hr, of_decide_eq_true htoken]
        · cases hresult
      · rw [hphase] at hresult
        simp only [hheld, if_true] at hresult
        split at hresult
        · cases hresult
          have hdelete := @find_deleteHeld _ s.queue.queue d.token mid mid r hr
          rw [show (deleteHeld d.token mid s.queue.queue).find mid = some q from hq, if_pos] at hdelete
          · cases hdelete
          · simp [holdsToken, Keyed.key_of_find hr, of_decide_eq_true htoken]
        · cases hresult
    exact hfind hr'

lemma byHolder_step (h : ∀ w ∈ s.written, w.ByHolder) (hguard : releasesHeld s a)
    (hstep : statusStep settings s a = some s') : ∀ w ∈ s'.written, w.ByHolder := by
  obtain ⟨t, ht, rfl⟩ := Option.map_eq_some_iff.mp hstep
  intro w hw
  rcases List.mem_append.mp hw with hnew | hold
  · obtain ⟨⟨d, mid⟩, hp, rfl⟩ := List.mem_map.mp hnew
    obtain ⟨hfinal, hchanged⟩ := Option.filter_eq_some_iff.mp (Option.mem_toList.mp hp)
    simp only [releasesHeld, hfinal, Option.all_some, decide_eq_true_eq] at hguard
    exact byHolder_finalizes hfinal (hguard hchanged) ht
  · exact h w hold

lemma locksOk_status (h : LocksOk settings s.queue) (hstep : statusStep settings s a = some s') :
    LocksOk settings s'.queue := by
  obtain ⟨t, ht, rfl⟩ := Option.map_eq_some_iff.mp hstep
  exact locksOk_step h ht

end Status

/-- In every run the lock columns of a row are set together and its attempts stay within
the limit, at most one drain holds the row of a matter, and a drain that finalizes, fails or
refreshes leaves every row alone that does not carry its token. In every run in which a
drain that releases a row with a changed status holds it, every status is committed by the
holder of the row, with the deletion or release of the row. -/
theorem recalc_lock_discipline (settings : DrainSettings) {as : List StatusAction}
    {s : StatusState} (h : Run (statusStep settings) StatusState.initial as s) :
    (∀ r ∈ s.queue.queue.rows, (r.lockedAt = none ↔ r.lockToken = none) ∧
      (0 ≤ settings.maxAttempts → (r.attempts : Int) ≤ settings.maxAttempts)) ∧
    (∀ d ∈ s.queue.drains, ∀ c ∈ s.queue.drains, ∀ mid, isHeld d.token mid s.queue.queue →
      isHeld c.token mid s.queue.queue → d = c) ∧
    (∀ d ∈ s.queue.drains, ∀ a : RecalcDrainAction, a.settles → ∀ changed s',
      statusStep settings s ⟨.drain d.token a, changed⟩ = some s' →
        ∀ m r, s.queue.queue.find m = some r → r.lockToken ≠ some d.token →
          s'.queue.queue.find m = some r) ∧
    (GuardedRun (statusStep settings) (fun s a => releasesHeld s a) StatusState.initial as s →
      ∀ w ∈ s.written, w.ByHolder) := by
  have hlocks : LocksOk settings s.queue :=
    h.invariant locksOk_initial (fun _ _ _ hi _ hs => locksOk_status hi hs)
  refine ⟨?_, ?_, ?_, ?_⟩
  · intro r hr
    have hrow := hlocks.rows r.matterId r (Keyed.find_of_mem hr)
    exact ⟨hrow.paired, hrow.bounded⟩
  · intro d hd c hc mid hheld hheld'
    exact eq_of_isHeld hlocks hd hc hheld hheld'
  · intro d hd a ha changed s' hstep m r hr htoken
    obtain ⟨t, ht, rfl⟩ := Option.map_eq_some_iff.mp hstep
    simp only [recalcStep] at ht
    split at ht
    · cases ht
    · next c hc =>
      split at ht
      · cases ht
      · next result hresult =>
        cases ht
        have hsame : c.token = d.token := by simpa using List.find?_some hc
        rw [← hsame] at htoken
        exact find_settles ha hresult hr htoken
  · intro hguarded
    refine hguarded.invariant ?_ (fun _ _ _ hi hg hs => byHolder_step hi hg hs)
    intro w hw
    cases hw

/-- A request is committed during the work of a drain, which then releases its row. -/
def releaseActions : List StatusAction :=
  [⟨.enqueue (some "M1") none 0, false⟩, ⟨.commit 0, false⟩, ⟨.start, false⟩,
    ⟨.drain 1 (.lockSelect ["M1"] 1), false⟩, ⟨.drain 1 .lockUpdate, false⟩,
    ⟨.drain 1 (.begin "M1"), false⟩, ⟨.enqueue (some "M1") none 2, false⟩, ⟨.commit 2, false⟩,
    ⟨.drain 1 .finalizeSelect, false⟩]

theorem recalc_lock_discipline_release :
    ∃ s : StatusState,
      GuardedRun (statusStep {}) (fun s a => releasesHeld s a) StatusState.initial
        (releaseActions ++ [⟨.drain 1 (.finalizeWrite 3), true⟩]) s ∧
      s.written.length = 1 ∧ (∀ w ∈ s.written, w.ByHolder) ∧
      ∀ r ∈ s.queue.queue.rows, (r.lockedAt = none ↔ r.lockToken = none) ∧ (r.attempts : Int) ≤ 8 := by
  have hended : ∃ s : StatusState,
      GuardedRun (statusStep {}) (fun s a => releasesHeld s a) StatusState.initial
        (releaseActions ++ [⟨.drain 1 (.finalizeWrite 3), true⟩]) s ∧
      decide (s.written.length = 1) = true :=
    exists_guardedRun_of_any _ _ _ _ _ (by decide +kernel)
  obtain ⟨s, hrun, hs⟩ := hended
  obtain ⟨hrows, _, _, hwritten⟩ := recalc_lock_discipline {} hrun.run
  refine ⟨s, hrun, of_decide_eq_true hs, hwritten hrun, ?_⟩
  intro r hr
  obtain ⟨hpaired, hbounded⟩ := hrows r hr
  exact ⟨hpaired, hbounded (by decide)⟩

/-- The lock of a drain expires between its `SELECT` and its release, another drain takes
the row, and the first one commits the status all the same. -/
theorem status_written_without_lock :
    ¬∀ (settings : DrainSettings) (as : List StatusAction) (s : StatusState),
      Run (statusStep settings) StatusState.initial as s → ∀ w ∈ s.written, w.ByHolder := by
  intro h
  have hended : ∃ s : StatusState,
      Run (statusStep {}) StatusState.initial
        (releaseActions ++ [⟨.start, false⟩, ⟨.drain 3 (.lockSelect ["M1"] 400000000), false⟩,
          ⟨.drain 3 .lockUpdate, false⟩, ⟨.drain 1 (.finalizeWrite 400000001), true⟩]) s ∧
      decide (∃ w ∈ s.written, w.before.any (fun r => r.lockToken ≠ some w.token)) = true :=
    exists_guardedRun_of_any _ _ _ _ _ (by decide +kernel)
  obtain ⟨s, hrun, hs⟩ := hended
  obtain ⟨w, hw, hother⟩ := of_decide_eq_true hs
  obtain ⟨⟨r, hr, htoken⟩, _⟩ := h {} _ s hrun w hw
  rw [hr, Option.any_some, decide_eq_true_eq] at hother
  exact hother htoken

end IpDocket.Queues
