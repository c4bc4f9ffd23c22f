import IpDocket.Queues.AnnuitySync

/-!
# When a synchronisation request is lost

A drain deletes the row by its token and does not look at what was requested since it
locked the row, although `enqueue` leaves a locked row locked. A request that is committed
after the synchronisation has started is deleted with the row.
-/

namespace IpDocket.Queues
open IpDocket.Lib

/-- The matter whose row the statement of the drain deletes, with the start of the
synchronisation. -/
def AnnuityDrain.deletes (settings : DrainSettings) (d : AnnuityDrain) :
    AnnuityDrainAction → Option (String × Nat)
  | .finish =>
    match d.phase with
    | .syncing mid start => some (mid, start)
    | _ => none
  | .failureWrite _ _ =>
    match d.phase with
    | .recording mid _ start attempts _ =>
      if exhausted settings attempts then some (mid, start) else none
    | _ => none
  | _ => none

/-- A drain deletes its row only if no request for the matter has been committed since it
started the synchronisation. -/
def deletesUnrequested (settings : DrainSettings) (s : AnnuityState) : AnnuityAction → Bool
  | .drain token a =>
    (s.drains.find? (fun d => d.token = token)).all (fun d =>
      (d.deletes settings a).all (fun w =>
        isHeld d.token w.1 s.queue → s.enqueued.all (fun p => p.1 = w.1 → p.2 < w.2)))
  | _ => true

/-- A request is served by a later synchronisation, or its matter still has a row. -/
def Synced (t : AnnuityTable) (synced : List (String × Nat)) (request : String × Nat) : Prop :=
  (∃ b, (request.1, b) ∈ synced ∧ request.2 < b) ∨ (t.find request.1).isSome

lemma isSome_upsertRebuild {u : PendingRebuild} {t : AnnuityTable} {m : String}
    (h : m = u.mid ∨ (t.find m).isSome) : ((upsertRebuild u t).find m).isSome :=
  Keyed.isSome_find_upsert (matterId_renewRebuild u) h

/-- A statement of a drain keeps every row, except the one that it deletes by its token. -/
lemma annuityDrainStep_rows {settings : DrainSettings} {clock : Nat} {writing : List String}
    {t : AnnuityTable} {d : AnnuityDrain} {a : AnnuityDrainAction} {result : AnnuityResult}
    (h : annuityDrainStep settings clock writing t d a = some result) {m : String}
    {r : AnnuityRow} (hr : t.find m = some r) :
    (result.queue.find m).isSome ∨
      ∃ start, d.deletes settings a = some (m, start) ∧ isHeld d.token m t ∧
        result.synced = some (m, start) := by
  have hkeep : ∀ {t'}, DrainFrame d.token none t t' → (t'.find m).isSome := by
    intro t' hframe
    rcases hframe.rows m r hr with hkept | ⟨hdel, _⟩
    · exact hkept
    · cases hdel
  have hdelete : ∀ mid, ((deleteHeld d.token mid t).find m).isSome ∨
      (mid = m ∧ isHeld d.token m t) := by
    intro mid
    have hframe : DrainFrame d.token (some mid) t (deleteHeld d.token mid t) := .delete mid
    rcases hframe.rows m r hr with hkept | ⟨hdel, htoken⟩
    · exact .inl hkept
    · exact .inr ⟨Option.some.inj hdel, by simp [isHeld, hr, htoken]⟩
  cases a with
  | pick now =>
    simp only [annuityDrainStep] at h
    split at h
    all_goals cases h
    exact .inl (hkeep (.lock settings now _))
  | lockSelect ids now =>
    simp only [annuityDrainStep] at h
    split at h
    all_goals cases h
    exact .inl (hkeep .refl)
  | lockUpdate =>
    simp only [annuityDrainStep] at h
    split at h
    · next mids now _ =>
      split at h
      all_goals cases h
      exact .inl (hkeep (.lock settings now mids))
    · cases h
  | begin =>
    simp only [annuityDrainStep] at h
    split at h
    all_goals cases h
    exact .inl (hkeep .refl)
  | finish =>
    simp only [annuityDrainStep] at h
    split at h
    · next mid start hphase =>
      split at h
      · split at h
        · cases h
          rcases hdelete mid with hkept | ⟨rfl, hheld⟩
          · exact .inl hkept
          · exact .inr ⟨start, by simp [AnnuityDrain.deletes, hphase], hheld, rfl⟩
        · cases h
          exact .inl (hkeep .refl)
      · cases h
    · cases h
  | raise err =>
    simp only [annuityDrainStep] at h
    split at h
    all_goals cases h
    exact .inl (hkeep .refl)
  | failureSelect =>
    simp only [annuityDrainStep] at h
    split at h
    all_goals cases h
    exact .inl (hkeep .refl)
  | failureWrite now later =>
    simp only [annuityDrainStep] at h
    split at h
    · next mid err start attempts payload hphase =>
      split at h
      · split at h
        · next hexhausted =>
          cases h
          rcases hdelete mid with hkept | ⟨rfl, hheld⟩
          · exact .inl hkept
          · exact .inr ⟨start, by simp [AnnuityDrain.deletes, hphase, hexhausted], hheld, rfl⟩
        · cases h
          exact .inl (hkeep (.fail mid _ _ now))
      · cases h
    · cases h
  | failureError =>
    simp only [annuityDrainStep] at h
    split at h
    all_goals cases h
    all_goals exact .inl (hkeep .refl)
  | heartbeat mid now =>
    simp only [annuityDrainStep] at h
    split at h
    all_goals cases h
    exact .inl (hkeep (.heartbeat (some mid) now))

/-- One step, with the requests served so far. -/
lemma synced_step {settings : DrainSettings} {s s' : AnnuityState} {a : AnnuityAction}
    (h : ∀ p ∈ s.enqueued, Synced s.queue s.synced p) (hguard : deletesUnrequested settings s a)
    (hstep : annuityStep settings s a = some s') :
    ∀ p ∈ s'.enqueued, Synced s'.queue s'.synced p := by
  cases a with
  | enqueue matterId reason now =>
    simp only [annuityStep] at hstep
    split at hstep
    all_goals cases hstep
    exact h
  | commit call =>
    simp only [annuityStep] at hstep
    split at hstep
    · cases hstep
    · cases hstep
      intro p hp
      rcases List.mem_cons.mp hp with rfl | hold
      · exact .inr (isSome_upsertRebuild (.inl rfl))
      · rcases h p hold with hdone | hrow
        · exact .inl hdone
        · exact .inr (isSome_upsertRebuild (.inr hrow))
  | rollback call =>
    cases hstep
    exact h
  | start =>
    cases hstep
    exact h
  | crash token =>
    cases hstep
    exact h
  | drain token a =>
    simp only [annuityStep] at hstep
    split at hstep
    · cases hstep
    · next d hd =>
      split at hstep
      · cases hstep
      · next result hresult =>
        cases hstep
        intro p hp
        rcases h p hp with ⟨b, hb, hlt⟩ | hrow
        · exact .inl ⟨b, List.mem_append_right _ hb, hlt⟩
        · obtain ⟨r, hr⟩ := Option.isSome_iff_exists.mp hrow
          rcases annuityDrainStep_rows hresult hr with hkept | ⟨start, hdel, hheld, hsynced⟩
          · exact .inr hkept
          · simp only [deletesUnrequested, hd, Option.all_some, hdel, hheld, forall_const,
              decide_eq_true_eq, List.all_eq_true] at hguard
            refine .inl ⟨start, ?_, hguard p hp rfl⟩
            rw [hsynced]
            exact List.mem_cons_self

/-- In every run in which a drain deletes a row only if no request for the matter has been
committed since it started the synchronisation, no request is lost: the matter has a row in
the queue, or a synchronisation that started after the request has run. -/
theorem annuity_requests_synced (settings : DrainSettings) {as : List AnnuityAction}
    {s : AnnuityState}
    (h : GuardedRun (annuityStep settings) (fun s a => deletesUnrequested settings s a)
      AnnuityState.initial as s)
    (mid : String) (e : Nat) (he : (mid, e) ∈ s.enqueued) :
    (∃ b, (mid, b) ∈ s.synced ∧ e < b) ∨ (s.queue.find mid).isSome := by
  have hinv : ∀ p ∈ s.enqueued, Synced s.queue s.synced p := by
    refine GuardedRun.invariant (I := fun s => ∀ p ∈ s.enqueued, Synced s.queue s.synced p) h
      ?_ (fun _ _ _ hi hg hs => synced_step hi hg hs)
    intro p hp
    cases hp
  exact hinv (mid, e) he

/-- A request committed after the lock and before the synchronisation starts. -/
theorem annuity_requests_synced_before_start :
    ∃ s : AnnuityState,
      GuardedRun (annuityStep {}) (fun s a => deletesUnrequested {} s a) AnnuityState.initial
        [.enqueue "M1" none 0, .commit 0, .start, .drain 1 (.lockSelect ["M1"] 1),
          .drain 1 .lockUpdate, .enqueue "M1" (some "fee") 2, .commit 2, .drain 1 .begin,
          .drain 1 .finish] s ∧
      ((∃ b, ("M1", b) ∈ s.synced ∧ 6 < b) ∨ (s.queue.find "M1").isSome) :=
  exists_guardedRun rfl (fun hrun =>
    annuity_requests_synced {} hrun "M1" 6 (List.mem_cons_self))

/-- A request committed while the synchronisation runs is deleted with the row. -/
theorem finish_deletes_new_request :
    ¬∀ (settings : DrainSettings) (as : List AnnuityAction) (s : AnnuityState),
      Run (annuityStep settings) AnnuityState.initial as s →
      ∀ p ∈ s.enqueued, (∃ b ∈ s.synced, b.1 = p.1 ∧ p.2 < b.2) ∨
        (s.queue.find p.1).isSome := by
  intro h
  have hserved := h {} [.enqueue "M1" none 0, .commit 0, .start,
    .drain 1 (.lockSelect ["M1"] 1), .drain 1 .lockUpdate, .drain 1 .begin,
    .enqueue "M1" (some "fee") 2, .commit 2, .drain 1 .finish] _ (guardedRun_of_execute rfl)
  revert hserved
  decide

end IpDocket.Queues
