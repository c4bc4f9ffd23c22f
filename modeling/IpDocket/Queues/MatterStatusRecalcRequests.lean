import IpDocket.Queues.MatterStatusRecalc

/-!
# No recalculation request is lost

A drain deletes a row after it has compared the payload it locked with the payload that is
there. Since every request has a new UUID, an equal payload means that no request was
committed since the row was locked. The comparison and the `DELETE` are two statements, and
a request committed between them is deleted with the row as long as the lock is live.
-/

namespace IpDocket.Queues
open IpDocket.Lib

/-- A drain deletes a row only if no request for the matter has been committed since it
selected the payload. -/
def deletesUnreplaced (s : RecalcState) : RecalcAction → Bool
  | .drain token (.finalizeWrite _) =>
    (s.drains.find? (fun d => d.token = token)).all (fun d =>
      match d.phase with
      | .deleting mid _ selected =>
        isHeld d.token mid s.queue → s.enqueued.all (fun p => p.1 = mid → p.2 < selected)
      | _ => true)
  | _ => true

/-- What a drain knows about the requests for the matter it works on. -/
def DrainKnows (t : RecalcTable) (enqueued : List (String × Nat)) (clock : Nat)
    (d : RecalcDrain) : Prop :=
  match d.phase with
  | .recalculating mid start =>
    ∀ r, t.find mid = some r → r.lockToken = some d.token → r.payload = d.lockedPayload mid →
      ∀ e, (mid, e) ∈ enqueued → e < start
  | .deleting mid start selected =>
    selected ≤ clock ∧ (∀ e, (mid, e) ∈ enqueued → e < selected → e < start) ∧
    ∀ r, t.find mid = some r → r.lockToken = some d.token →
      r.payload = d.lockedPayload mid ∨ ∃ e, (mid, e) ∈ enqueued ∧ selected ≤ e
  | _ => True

/-- The payload was committed before any open transaction commits. -/
def Issued (nextUuid : Nat) (pending : List PendingEnqueue) (p : RecalcPayload) : Prop :=
  p.enqueueId < nextUuid ∧ ∀ u ∈ pending, u.payload.enqueueId ≠ p.enqueueId

/-- A request is served by a later recalculation, or its matter still has a row. -/
def Served (t : RecalcTable) (recalculated : List (String × Nat)) (request : String × Nat) :
    Prop :=
  (∃ b, (request.1, b) ∈ recalculated ∧ request.2 < b) ∨ (t.find request.1).isSome

structure RecalcInvariant (s : RecalcState) : Prop where
  past : ∀ p ∈ s.enqueued, p.2 < s.clock
  pendingIssued : ∀ u ∈ s.pending, u.payload.enqueueId < s.nextUuid
  pendingDistinct : s.pending.Pairwise (fun u v => u.payload.enqueueId ≠ v.payload.enqueueId)
  rowsIssued : ∀ m r p, s.queue.find m = some r → r.payload = some p →
    Issued s.nextUuid s.pending p
  lockedIssued : ∀ d ∈ s.drains, ∀ m p, d.lockedPayload m = some p →
    Issued s.nextUuid s.pending p
  knows : ∀ d ∈ s.drains, DrainKnows s.queue s.enqueued s.clock d
  served : ∀ p ∈ s.enqueued, Served s.queue s.recalculated p

lemma find_upsertRequest (settings : DrainSettings) (mid : String) (payload : RecalcPayload)
    (t : RecalcTable) (m : String) :
    (upsertRequest settings mid payload t).find m =
      if m = mid then
        some ((t.find m).elim (requestRow mid payload) (replaceRequest settings payload))
      else t.find m :=
  Keyed.find_upsert (requestRow mid payload) (replaceRequest settings payload)
    (matterId_replaceRequest settings payload)

lemma find_upsertRequest_self {settings : DrainSettings} {mid : String} {payload : RecalcPayload}
    {t : RecalcTable} {r : RecalcRow}
    (h : (upsertRequest settings mid payload t).find mid = some r) :
    r.payload = some payload ∧
      ∀ token, r.lockToken = some token → ∃ q, t.find mid = some q ∧
        liveLock settings payload.enqueuedAt q ∧ q.lockToken = some token := by
  rw [find_upsertRequest, if_pos rfl] at h
  cases hq : t.find mid with
  | none =>
    rw [hq] at h
    cases h
    refine ⟨rfl, ?_⟩
    intro token htoken
    cases htoken
  | some q =>
    rw [hq] at h
    cases h
    refine ⟨rfl, ?_⟩
    intro token htoken
    change (if liveLock settings payload.enqueuedAt q then q.lockToken else none) = some token
      at htoken
    split at htoken
    · next hlive => exact ⟨q, rfl, hlive, htoken⟩
    · cases htoken

lemma isSome_upsertRequest {settings : DrainSettings} {mid : String} {payload : RecalcPayload}
    {t : RecalcTable} {m : String} (h : m = mid ∨ (t.find m).isSome) :
    ((upsertRequest settings mid payload t).find m).isSome :=
  Keyed.isSome_find_upsert (matterId_replaceRequest settings payload) h

/-- The knowledge of a drain only depends on the rows that carry its token. -/
lemma DrainKnows.of_rows {t t' : RecalcTable} {enqueued : List (String × Nat)} {clock : Nat}
    {d : RecalcDrain} (h : DrainKnows t enqueued clock d)
    (hrows : ∀ m r', t'.find m = some r' → r'.lockToken = some d.token →
      ∃ r, t.find m = some r ∧ r.lockToken = some d.token ∧ r.payload = r'.payload) :
    DrainKnows t' enqueued clock d := by
  unfold DrainKnows at h ⊢
  split
  · next mid start hphase =>
    rw [hphase] at h
    intro r' hr' htoken hpayload
    obtain ⟨r, hr, hr_token, hr_payload⟩ := hrows mid r' hr' htoken
    exact h r hr hr_token (hr_payload.trans hpayload)
  · next mid start selected hphase =>
    rw [hphase] at h
    refine ⟨h.1, h.2.1, ?_⟩
    intro r' hr' htoken
    obtain ⟨r, hr, hr_token, hr_payload⟩ := hrows mid r' hr' htoken
    rw [← hr_payload]
    exact h.2.2 r hr hr_token
  · trivial

lemma DrainKnows.tick {t : RecalcTable} {enqueued : List (String × Nat)} {clock : Nat}
    {d : RecalcDrain} (h : DrainKnows t enqueued clock d) :
    DrainKnows t enqueued (clock + 1) d := by
  unfold DrainKnows at h ⊢
  split
  · next mid start hphase =>
    rw [hphase] at h
    exact h
  · next mid start selected hphase =>
    rw [hphase] at h
    exact ⟨by omega, h.2⟩
  · trivial

lemma lockedPayload_lock (settings : DrainSettings) (now : Time) (mids : List String)
    (t : RecalcTable) (d : RecalcDrain) {m : String} {p : RecalcPayload}
    (h : (d.lock settings now mids t).2.lockedPayload m = some p) :
    ∃ m' r, t.find m' = some r ∧ r.payload = some p := by
  unfold RecalcDrain.lockedPayload at h
  obtain ⟨x, hx, hp⟩ := Option.bind_eq_some_iff.mp h
  have hmem := List.mem_of_find?_eq_some hx
  obtain ⟨r', hr', rfl⟩ := List.mem_map.mp hmem
  have hrow := (List.mem_filter.mp hr').1
  obtain ⟨r, hr, hpayload⟩ :=
    (DrainFrame.lock settings now mids).payloads r'.matterId r' (Keyed.find_of_mem hrow)
  exact ⟨r'.matterId, r, hr, hpayload.trans hp⟩

/-- What a statement of a drain does, apart from what the drain then knows. -/
structure DrainStepped (t : RecalcTable) (d : RecalcDrain) (a : RecalcDrainAction)
    (result : RecalcResult) : Prop where
  token : result.drain.token = d.token
  frame : ∃ deleted, DrainFrame d.token deleted t result.queue ∧
    ∀ mid, deleted = some mid → ∃ now start selected, a = .finalizeWrite now ∧
      d.phase = .deleting mid start selected ∧ result.recalculated = some (mid, start)
  payloads : ∀ m p, result.drain.lockedPayload m = some p →
    d.lockedPayload m = some p ∨ ∃ m' r, t.find m' = some r ∧ r.payload = some p

lemma DrainStepped.of_frame {t : RecalcTable} {d : RecalcDrain} {a : RecalcDrainAction}
    {result : RecalcResult}
    (htoken : result.drain.token = d.token) (hframe : DrainFrame d.token none t result.queue)
    (hlocked : result.drain.lockedPayloads = d.lockedPayloads) : DrainStepped t d a result := by
  refine ⟨htoken, ⟨none, hframe, fun mid h => by cases h⟩, ?_⟩
  intro m p hp
  left
  unfold RecalcDrain.lockedPayload at hp ⊢
  rwa [hlocked] at hp

section DrainStatements

variable {settings : DrainSettings} {clock : Nat} {writing : List String} {t : RecalcTable}
  {d : RecalcDrain} {a : RecalcDrainAction} {result : RecalcResult} {enqueued : List (String × Nat)}

lemma DrainStepped.lock (now : Time) (mids : List String) : DrainStepped t d a
    { queue := (d.lock settings now mids t).1, drain := (d.lock settings now mids t).2 } := by
  refine ⟨rfl, ⟨none, .lock settings now mids, fun mid h => by cases h⟩, ?_⟩
  intro m p hp
  exact .inr (lockedPayload_lock settings now mids t d hp)

lemma drainStepped_begin {mid : String} (hpast : ∀ p ∈ enqueued, p.2 < clock)
    (h : drainStep settings clock writing t d (.begin mid) = some result) :
    DrainStepped t d (.begin mid) result ∧ DrainKnows result.queue enqueued clock result.drain := by
  simp only [drainStep] at h
  split at h
  · cases h
    refine ⟨.of_frame rfl .refl rfl, ?_⟩
    -- the recalculation begins now, after every request so far
    intro r _ _ _ e he
    exact hpast _ he
  · cases h

lemma drainStepped_finalizeSelect (hknows : DrainKnows t enqueued clock d)
    (h : drainStep settings clock writing t d .finalizeSelect = some result) :
    DrainStepped t d .finalizeSelect result ∧ DrainKnows result.queue enqueued clock result.drain := by
  simp only [drainStep] at h
  split at h
  · next mid start hphase =>
    unfold DrainKnows at hknows
    rw [hphase] at hknows
    split at h
    · cases h
      exact ⟨.of_frame rfl .refl rfl, trivial⟩
    · next r hr =>
      obtain ⟨hfind, htoken⟩ := Option.filter_eq_some_iff.mp hr
      split at h
      · next hpayload =>
        cases h
        have hbefore := hknows r hfind (by simpa using htoken) hpayload
        refine ⟨.of_frame rfl .refl rfl, Nat.le_refl _, fun e he _ => hbefore e he, ?_⟩
        intro q hq hqtoken
        rw [hfind] at hq
        cases hq
        exact .inl hpayload
      · cases h
        exact ⟨.of_frame rfl .refl rfl, trivial⟩
  · cases h

lemma drainStepped_finalizeWrite {now : Time}
    (h : drainStep settings clock writing t d (.finalizeWrite now) = some result) :
    DrainStepped t d (.finalizeWrite now) result ∧ DrainKnows result.queue enqueued clock result.drain := by
  simp only [drainStep] at h
  split at h
  · split at h
    · cases h
      refine ⟨.of_frame rfl ?_ rfl, trivial⟩
      refine .update (matterId_releaseRow now) (fun _ => rfl) ?_
      intro r other hother
      cases hother
    · cases h
  · next mid start selected hphase =>
    split at h
    · split at h
      · cases h
        refine ⟨⟨rfl, ⟨some mid, .delete mid, ?_⟩, fun m p hp => .inl hp⟩, trivial⟩
        intro m hm
        cases hm
        exact ⟨now, start, selected, rfl, hphase, rfl⟩
      · cases h
        exact ⟨.of_frame rfl .refl rfl, trivial⟩
    · cases h
  · cases h

lemma drainStepped_heartbeat {mid : Option String} {now : Time}
    (hknows : DrainKnows t enqueued clock d)
    (h : drainStep settings clock writing t d (.heartbeat mid now) = some result) :
    DrainStepped t d (.heartbeat mid now) result ∧ DrainKnows result.queue enqueued clock result.drain := by
  simp only [drainStep] at h
  split at h
  · cases h
    refine ⟨.of_frame rfl (.heartbeat mid now) rfl, ?_⟩
    apply hknows.of_rows
    intro m r' hr' htoken
    unfold heartbeat at hr'
    rw [Keyed.find_update_onRows (matterId_refreshRow now)] at hr'
    obtain ⟨r, hr, heq⟩ := Option.map_eq_some_iff.mp hr'
    refine ⟨r, hr, ?_⟩
    split at heq <;> subst heq <;> exact ⟨htoken, rfl⟩
  · cases h

/-- One statement of a drain, and what the drain knows afterwards. -/
lemma drainStep_stepped (hpast : ∀ p ∈ enqueued, p.2 < clock)
    (hknows : DrainKnows t enqueued clock d)
    (h : drainStep settings clock writing t d a = some result) :
    DrainStepped t d a result ∧ DrainKnows result.queue enqueued clock result.drain := by
  cases a with
  | pick limit now =>
    simp only [drainStep] at h
    split at h
    · cases h
      exact ⟨.lock now _, trivial⟩
    · cases h
  | lockSelect ids now =>
    simp only [drainStep] at h
    split at h
    · cases h
      exact ⟨.of_frame rfl .refl rfl, trivial⟩
    · cases h
  | lockUpdate =>
    simp only [drainStep] at h
    split at h
    · next mids now _ =>
      split at h
      · cases h
        exact ⟨.lock now mids, trivial⟩
      · cases h
    · cases h
  | begin mid => exact drainStepped_begin hpast h
  | finalizeSelect => exact drainStepped_finalizeSelect hknows h
  | finalizeWrite now => exact drainStepped_finalizeWrite h
  | raise err =>
    simp only [drainStep] at h
    split at h
    all_goals cases h
    all_goals exact ⟨.of_frame rfl .refl rfl, trivial⟩
  | failureSelect =>
    simp only [drainStep] at h
    split at h
    · cases h
      exact ⟨.of_frame rfl .refl rfl, trivial⟩
    · cases h
  | failureUpdate now later =>
    simp only [drainStep] at h
    split at h
    · split at h
      · cases h
        exact ⟨.of_frame rfl (.fail _ _ _ _) rfl, trivial⟩
      · cases h
    · cases h
  | failureError =>
    simp only [drainStep] at h
    split at h
    all_goals cases h
    all_goals exact ⟨.of_frame rfl .refl rfl, trivial⟩
  | heartbeat mid now => exact drainStepped_heartbeat hknows h

end DrainStatements

/-! ### The steps of the system -/

section Steps

variable {settings : DrainSettings} {s s' : RecalcState}

lemma mem_of_mem_withoutPending {id : Nat} {u : PendingEnqueue}
    (h : u ∈ s.withoutPending id) : u ∈ s.pending :=
  (List.mem_filter.mp h).1

lemma Issued.withoutPending {n : Nat} {p : RecalcPayload} (h : Issued n s.pending p) (id : Nat) :
    Issued n (s.withoutPending id) p :=
  ⟨h.1, fun u hu => h.2 u (mem_of_mem_withoutPending hu)⟩

lemma RecalcInvariant.past_tick (h : RecalcInvariant s) : ∀ p ∈ s.enqueued, p.2 < s.clock + 1 := by
  intro p hp
  have hlt := h.past p hp
  omega

lemma recalcInvariant_enqueue {mid : String} {payload : RecalcPayload} (h : RecalcInvariant s)
    (hid : payload.enqueueId = s.nextUuid) :
    RecalcInvariant { s with
      pending := ⟨mid, payload⟩ :: s.pending
      nextUuid := s.nextUuid + 1
      clock := s.clock + 1 } := by
  have hissued : ∀ p, Issued s.nextUuid s.pending p →
      Issued (s.nextUuid + 1) (⟨mid, payload⟩ :: s.pending) p := by
    rintro p ⟨hlt, hne⟩
    refine ⟨by omega, ?_⟩
    intro u hu
    rcases List.mem_cons.mp hu with rfl | hold
    · dsimp only
      omega
    · exact hne u hold
  constructor
  · exact h.past_tick
  · intro u hu
    rcases List.mem_cons.mp hu with rfl | hold
    · dsimp only
      omega
    · have := h.pendingIssued u hold
      dsimp only
      omega
  · refine List.pairwise_cons.mpr ⟨?_, h.pendingDistinct⟩
    intro u hu
    have := h.pendingIssued u hu
    dsimp only
    omega
  · intro m r p hr hp
    exact hissued p (h.rowsIssued m r p hr hp)
  · intro d hd m p hp
    exact hissued p (h.lockedIssued d hd m p hp)
  · intro d hd
    exact (h.knows d hd).tick
  · exact h.served

lemma recalcInvariant_rollback (h : RecalcInvariant s) (id : Nat) :
    RecalcInvariant { s with pending := s.withoutPending id, clock := s.clock + 1 } := by
  constructor
  · exact h.past_tick
  · intro u hu
    exact h.pendingIssued u (mem_of_mem_withoutPending hu)
  · exact h.pendingDistinct.filter _
  · intro m r p hr hp
    exact (h.rowsIssued m r p hr hp).withoutPending id
  · intro d hd m p hp
    exact (h.lockedIssued d hd m p hp).withoutPending id
  · intro d hd
    exact (h.knows d hd).tick
  · exact h.served

lemma drainKnows_commit {u : PendingEnqueue} {d : RecalcDrain} (h : RecalcInvariant s)
    (hu : u ∈ s.pending) (hd : d ∈ s.drains) :
    DrainKnows (upsertRequest settings u.mid u.payload s.queue)
      ((u.mid, s.clock) :: s.enqueued) s.clock d := by
  have hknows := h.knows d hd
  have hold : ∀ m e, m ≠ u.mid → (m, e) ∈ (u.mid, s.clock) :: s.enqueued →
      (m, e) ∈ s.enqueued := by
    intro m e hm he
    rcases List.mem_cons.mp he with heq | hmem
    · exact absurd (congrArg Prod.fst heq) hm
    · exact hmem
  unfold DrainKnows at hknows ⊢
  split
  · next mid start hphase =>
    rw [hphase] at hknows
    intro r hr htoken hpayload e he
    by_cases hm : mid = u.mid
    · subst hm
      have hnew := (find_upsertRequest_self hr).1
      have hissued := h.lockedIssued d hd u.mid u.payload (hpayload.symm.trans hnew)
      exact absurd rfl (hissued.2 u hu)
    · rw [find_upsertRequest, if_neg hm] at hr
      exact hknows r hr htoken hpayload e (hold mid e hm he)
  · next mid start selected hphase =>
    rw [hphase] at hknows
    obtain ⟨hselected, hbefore, hrow⟩ := hknows
    refine ⟨hselected, ?_, ?_⟩
    · intro e he hlt
      rcases List.mem_cons.mp he with heq | hmem
      · cases heq
        omega
      · exact hbefore e hmem hlt
    · intro r hr htoken
      by_cases hm : mid = u.mid
      · subst hm
        exact .inr ⟨s.clock, List.mem_cons_self, hselected⟩
      · rw [find_upsertRequest, if_neg hm] at hr
        rcases hrow r hr htoken with hsame | ⟨e, he, hle⟩
        · exact .inl hsame
        · exact .inr ⟨e, List.mem_cons_of_mem _ he, hle⟩
  · trivial

lemma recalcInvariant_commit {id : Nat} {u : PendingEnqueue} (h : RecalcInvariant s)
    (hu : s.pendingOf id = some u) :
    RecalcInvariant { s with
      queue := upsertRequest settings u.mid u.payload s.queue
      pending := s.withoutPending id
      enqueued := (u.mid, s.clock) :: s.enqueued
      clock := s.clock + 1 } := by
  have hmem : u ∈ s.pending := List.mem_of_find?_eq_some hu
  have hid : u.payload.enqueueId = id := by simpa using List.find?_some hu
  constructor
  · intro p hp
    rcases List.mem_cons.mp hp with rfl | hold
    · dsimp only
      omega
    · exact h.past_tick p hold
  · intro v hv
    exact h.pendingIssued v (mem_of_mem_withoutPending hv)
  · exact h.pendingDistinct.filter _
  · intro m r p hr hp
    by_cases hm : m = u.mid
    · subst hm
      rw [(find_upsertRequest_self hr).1] at hp
      cases hp
      refine ⟨h.pendingIssued u hmem, ?_⟩
      intro v hv
      have hne := (List.mem_filter.mp hv).2
      rw [hid]
      simpa using hne
    · rw [find_upsertRequest, if_neg hm] at hr
      exact (h.rowsIssued m r p hr hp).withoutPending id
  · intro d hd m p hp
    exact (h.lockedIssued d hd m p hp).withoutPending id
  · intro d hd
    exact (drainKnows_commit h hmem hd).tick
  · intro p hp
    rcases List.mem_cons.mp hp with rfl | hold
    · exact .inr (isSome_upsertRequest (.inl rfl))
    · rcases h.served p hold with hdone | hrow
      · exact .inl hdone
      · exact .inr (isSome_upsertRequest (.inr hrow))

lemma recalcInvariant_start (h : RecalcInvariant s) :
    RecalcInvariant { s with
      drains := ⟨s.nextUuid, [], [], .idle⟩ :: s.drains
      nextUuid := s.nextUuid + 1
      clock := s.clock + 1 } := by
  have hissued : ∀ p, Issued s.nextUuid s.pending p → Issued (s.nextUuid + 1) s.pending p := by
    rintro p ⟨hlt, hne⟩
    exact ⟨by omega, hne⟩
  constructor
  · exact h.past_tick
  · intro u hu
    have := h.pendingIssued u hu
    dsimp only
    omega
  · exact h.pendingDistinct
  · intro m r p hr hp
    exact hissued p (h.rowsIssued m r p hr hp)
  · intro d hd m p hp
    rcases List.mem_cons.mp hd with rfl | hold
    · cases hp
    · exact hissued p (h.lockedIssued d hold m p hp)
  · intro d hd
    rcases List.mem_cons.mp hd with rfl | hold
    · trivial
    · exact (h.knows d hold).tick
  · exact h.served

lemma recalcInvariant_crash (h : RecalcInvariant s) (token : Nat) :
    RecalcInvariant { s with
      drains := s.drains.filter (fun d => d.token ≠ token)
      clock := s.clock + 1 } := by
  have hmem : ∀ d ∈ s.drains.filter (fun d => d.token ≠ token), d ∈ s.drains :=
    fun d hd => (List.mem_filter.mp hd).1
  constructor
  · exact h.past_tick
  · exact h.pendingIssued
  · exact h.pendingDistinct
  · exact h.rowsIssued
  · intro d hd
    exact h.lockedIssued d (hmem d hd)
  · intro d hd
    exact (h.knows d (hmem d hd)).tick
  · exact h.served

/-- A drain after a step of the drain `d`: the one that acted, or another one. -/
lemma mem_setDrain {c d : RecalcDrain} (h : c ∈ s.setDrain d) :
    c = d ∨ (c ∈ s.drains ∧ c.token ≠ d.token) := by
  obtain ⟨b, hb, heq⟩ := List.mem_map.mp h
  by_cases ht : b.token = d.token
  · rw [if_pos ht] at heq
    exact .inl heq.symm
  · rw [if_neg ht] at heq
    subst heq
    exact .inr ⟨hb, ht⟩

lemma recalcInvariant_drain {d : RecalcDrain} {a : RecalcDrainAction} {result : RecalcResult}
    (h : RecalcInvariant s) (hd : d ∈ s.drains)
    (hstep : drainStep settings s.clock s.writing s.queue d a = some result)
    (hguard : ∀ now, a = .finalizeWrite now → ∀ mid start selected,
      d.phase = .deleting mid start selected → isHeld d.token mid s.queue →
      ∀ e, (mid, e) ∈ s.enqueued → e < selected) :
    RecalcInvariant { s with
      queue := result.queue
      drains := s.setDrain result.drain
      recalculated := result.recalculated.toList ++ s.recalculated
      clock := s.clock + 1 } := by
  obtain ⟨hstepped, hnew⟩ := drainStep_stepped h.past (h.knows d hd) hstep
  obtain ⟨deleted, hframe, hdeleted⟩ := hstepped.frame
  constructor
  · exact h.past_tick
  · exact h.pendingIssued
  · exact h.pendingDistinct
  · intro m r' p hr' hp
    obtain ⟨r, hr, hpayload⟩ := hframe.payloads m r' hr'
    exact h.rowsIssued m r p hr (hpayload.trans hp)
  · intro c hc m p hp
    rcases mem_setDrain hc with rfl | ⟨hold, _⟩
    · rcases hstepped.payloads m p hp with hlocked | ⟨m', r, hr, hpayload⟩
      · exact h.lockedIssued d hd m p hlocked
      · exact h.rowsIssued m' r p hr hpayload
    · exact h.lockedIssued c hold m p hp
  · intro c hc
    rcases mem_setDrain hc with rfl | ⟨hold, hne⟩
    · exact hnew.tick
    · apply (h.knows c hold).tick.of_rows
      intro m r' hr' htoken
      rw [hstepped.token] at hne
      exact hframe.others m r' c.token hr' htoken hne
  · intro p hp
    rcases h.served p hp with ⟨b, hb, hlt⟩ | hrow
    · exact .inl ⟨b, List.mem_append_right _ hb, hlt⟩
    · obtain ⟨r, hr⟩ := Option.isSome_iff_exists.mp hrow
      rcases hframe.rows p.1 r hr with hkept | ⟨hdel, htoken⟩
      · exact .inr hkept
      · obtain ⟨now, start, selected, ha, hphase, hrecord⟩ := hdeleted p.1 hdel
        have hknows := h.knows d hd
        unfold DrainKnows at hknows
        rw [hphase] at hknows
        have hheld : isHeld d.token p.1 s.queue := by simp [isHeld, hr, htoken]
        have hbefore := hguard now ha p.1 start selected hphase hheld p.2 hp
        refine .inl ⟨start, ?_, hknows.2.1 p.2 hp hbefore⟩
        rw [hrecord]
        exact List.mem_cons_self

lemma before_selected_of_deletesUnreplaced {token : Nat} {now : Time} {d : RecalcDrain}
    {mid : String} {start selected : Nat}
    (hd : s.drains.find? (fun d => d.token = token) = some d)
    (hphase : d.phase = .deleting mid start selected) (hheld : isHeld d.token mid s.queue)
    (hguard : deletesUnreplaced s (.drain token (.finalizeWrite now))) :
    ∀ e, (mid, e) ∈ s.enqueued → e < selected := by
  simp only [deletesUnreplaced, hd, Option.all_some, hphase, hheld, forall_const,
    decide_eq_true_eq, List.all_eq_true] at hguard
  intro e he
  exact hguard (mid, e) he rfl

lemma recalcInvariant_step {a : RecalcAction} (h : RecalcInvariant s)
    (hguard : deletesUnreplaced s a) (hstep : recalcStep settings s a = some s') :
    RecalcInvariant s' := by
  cases a with
  | enqueue matterId reason now =>
    simp only [recalcStep] at hstep
    split at hstep
    · cases hstep
    · split at hstep
      · cases hstep
      · cases hstep
        exact recalcInvariant_enqueue h rfl
  | commit id =>
    simp only [recalcStep] at hstep
    split at hstep
    · cases hstep
    · next u hu =>
      cases hstep
      exact recalcInvariant_commit h hu
  | rollback id =>
    cases hstep
    exact recalcInvariant_rollback h id
  | start =>
    cases hstep
    exact recalcInvariant_start h
  | drain token a =>
    simp only [recalcStep] at hstep
    split at hstep
    · cases hstep
    · next d hd =>
      split at hstep
      · cases hstep
      · next result hresult =>
        cases hstep
        refine recalcInvariant_drain h (List.mem_of_find?_eq_some hd) hresult ?_
        intro now ha mid start selected hphase hheld e he
        subst ha
        exact before_selected_of_deletesUnreplaced hd hphase hheld hguard e he
  | crash token =>
    cases hstep
    exact recalcInvariant_crash h token

/-- A row that a step removes has the payload that the drain locked. -/
lemma removed_payload {a : RecalcAction} (h : RecalcInvariant s)
    (hguard : deletesUnreplaced s a) (hstep : recalcStep settings s a = some s') {mid : String}
    {r : RecalcRow} (hr : s.queue.find mid = some r) (hnone : s'.queue.find mid = none) :
    ∃ d ∈ s.drains, r.lockToken = some d.token ∧ r.payload = d.lockedPayload mid := by
  have hsome : (s.queue.find mid).isSome := by simp [hr]
  cases a with
  | commit id =>
    simp only [recalcStep] at hstep
    split at hstep
    · cases hstep
    · next u _ =>
      cases hstep
      have hkept : ((upsertRequest settings u.mid u.payload s.queue).find mid).isSome :=
        isSome_upsertRequest (.inr hsome)
      simp [hnone] at hkept
  | drain token a =>
    simp only [recalcStep] at hstep
    split at hstep
    · cases hstep
    · next d hd =>
      split at hstep
      · cases hstep
      · next result hresult =>
        cases hstep
        have hmem := List.mem_of_find?_eq_some hd
        have hknows := h.knows d hmem
        obtain ⟨deleted, hframe, hdeleted⟩ := (drainStep_stepped h.past hknows hresult).1.frame
        rcases hframe.rows mid r hr with hkept | ⟨hdel, htoken⟩
        · simp [hnone] at hkept
        · obtain ⟨now, start, selected, ha, hphase, _⟩ := hdeleted mid hdel
          subst ha
          unfold DrainKnows at hknows
          rw [hphase] at hknows
          refine ⟨d, hmem, htoken, (hknows.2.2 r hr htoken).resolve_right ?_⟩
          rintro ⟨e, he, hle⟩
          have hheld : isHeld d.token mid s.queue := by simp [isHeld, hr, htoken]
          have hlt := before_selected_of_deletesUnreplaced hd hphase hheld hguard e he
          omega
  | enqueue matterId reason now =>
    simp only [recalcStep] at hstep
    split at hstep
    · cases hstep
    · split at hstep
      all_goals cases hstep
      simp [hr] at hnone
  | rollback id =>
    cases hstep
    simp [hr] at hnone
  | start =>
    cases hstep
    simp [hr] at hnone
  | crash token =>
    cases hstep
    simp [hr] at hnone

end Steps

lemma recalcInvariant_initial : RecalcInvariant RecalcState.initial := by
  constructor
  all_goals simp [RecalcState.initial, Keyed.empty, Keyed.find, findKey]

/-- In every run in which a drain deletes a row only if no request for the matter has been
committed since it selected the payload, every committed request is followed by a
recalculation that began after it, or its matter has a row in the queue; and a row that the
next such step removes still has the payload that the drain locked. -/
theorem recalc_requests_served (settings : DrainSettings) {as : List RecalcAction}
    {s : RecalcState}
    (h : GuardedRun (recalcStep settings) (fun s a => deletesUnreplaced s a)
      RecalcState.initial as s) :
    (∀ mid e, (mid, e) ∈ s.enqueued →
      (∃ b, (mid, b) ∈ s.recalculated ∧ e < b) ∨ (s.queue.find mid).isSome) ∧
    ∀ a s', deletesUnreplaced s a → recalcStep settings s a = some s' →
      ∀ mid r, s.queue.find mid = some r → s'.queue.find mid = none →
        ∃ d ∈ s.drains, r.lockToken = some d.token ∧ r.payload = d.lockedPayload mid := by
  have hinv : RecalcInvariant s :=
    h.invariant recalcInvariant_initial (fun _ _ _ hi hg hs => recalcInvariant_step hi hg hs)
  constructor
  · intro mid e he
    exact hinv.served (mid, e) he
  · intro a s' hguard hstep mid r hr hnone
    exact removed_payload hinv hguard hstep hr hnone

/-- A request committed during the recalculation is found by the comparison. -/
theorem recalc_requests_served_during_work :
    ∃ s : RecalcState,
      GuardedRun (recalcStep {}) (fun s a => deletesUnreplaced s a) RecalcState.initial
        [.enqueue (some "M1") none 0, .commit 0, .start, .drain 1 (.lockSelect ["M1"] 1),
          .drain 1 .lockUpdate, .drain 1 (.begin "M1"), .enqueue (some "M1") none 2, .commit 2,
          .drain 1 .finalizeSelect, .drain 1 (.finalizeWrite 3)] s ∧
      (∀ mid e, (mid, e) ∈ s.enqueued →
        (∃ b, (mid, b) ∈ s.recalculated ∧ e < b) ∨ (s.queue.find mid).isSome) :=
  exists_guardedRun rfl (fun hrun => (recalc_requests_served {} hrun).1)

/-- A request committed between the comparison and the `DELETE` is deleted with the row, and
the only recalculation began before it. -/
theorem finalize_deletes_new_request :
    ¬∀ (settings : DrainSettings) (as : List RecalcAction) (s : RecalcState),
      Run (recalcStep settings) RecalcState.initial as s →
      ∀ p ∈ s.enqueued, (∃ b ∈ s.recalculated, b.1 = p.1 ∧ p.2 < b.2) ∨
        (s.queue.find p.1).isSome := by
  intro h
  have hserved := h {} [.enqueue (some "M1") none 0, .commit 0, .start,
    .drain 1 (.lockSelect ["M1"] 1), .drain 1 .lockUpdate, .drain 1 (.begin "M1"),
    .drain 1 .finalizeSelect, .enqueue (some "M1") none 2, .commit 2,
    .drain 1 (.finalizeWrite 3)] _ (guardedRun_of_execute rfl)
  revert hserved
  decide

end IpDocket.Queues
