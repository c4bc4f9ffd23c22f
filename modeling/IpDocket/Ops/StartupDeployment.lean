import IpDocket.Ops.StartupRecovery

/-!
# One worker process per host

Where a host runs one worker process at a time, and no host name has a wildcard of `LIKE` or a
colon, a process that starts finds only jobs of processes of its own host that have stopped. So the
startup recovery does what it is for, as long as no job changes hands between its query and its
commit.
-/

namespace IpDocket.Ops
open IpDocket.Lib

/-- A host name that stands for itself in `LIKE 'host:%'` and ends before the colon. -/
def plainHost (host : String) : Prop := PlainPattern host.toList ∧ ':' ∉ host.toList

instance (host : String) : Decidable (plainHost host) := inferInstanceAs (Decidable (_ ∧ _))

/-- A process is started on a host without a live one. The commits of the recoveries are those of
`startsAfterDeath`. -/
def oneProcessPerHost (s : FleetState) : FleetAction → Bool
  | .start host _ _ => plainHost host ∧ s.processes.all (fun p => p.live → p.host ≠ host)
  | .recoverCommit i => startsAfterDeath s (.recoverCommit i)
  | _ => true

/-- A host has at most one live process, and a process that holds a job has looked for old ones. -/
structure DeploymentOk (s : FleetState) : Prop where
  plain : ∀ p ∈ s.processes, plainHost p.host
  alone : ∀ (i j : Nat) (p q : WorkerProcess), s.processes[i]? = some p →
    s.processes[j]? = some q → p.live = true → q.live = true → p.host = q.host → i = j
  holders : ∀ k h, s.holders k = some h → ∃ q, s.processes[h]? = some q ∧ q.phase ≠ .starting

section Deployment

variable {settings : QueueSettings} {s s' : FleetState}

/-- The worker ids of a plain host are those that its pattern matches. -/
lemma host_eq_of_like {p q : WorkerProcess} (hp : plainHost p.host) (hq : plainHost q.host)
    (h : sqlLike (p.host.toList ++ [':', '%']) q.workerId.toList = true) : q.host = p.host := by
  have hcolon : PlainPattern (p.host.toList ++ [':']) := by
    intro c hc
    rcases List.mem_append.mp hc with hmem | hmem
    · exact hp.1 c hmem
    · rw [List.mem_singleton.mp hmem]
      decide
  have hsplit : p.host.toList ++ [':', '%'] = (p.host.toList ++ [':']) ++ ['%'] := by simp
  rw [hsplit, sqlLike_plain_percent hcolon] at h
  have htext : q.workerId.toList = q.host.toList ++ ':' :: Nat.toDigits 10 q.pid := by
    simp [WorkerProcess.workerId, String.toList_append]
  obtain ⟨rest, hrest⟩ := h
  rw [htext, List.append_assoc, List.singleton_append] at hrest
  -- both texts are cut at their first colon
  have hcut := congrArg (List.takeWhile (· ≠ ':')) hrest
  have hplain : ∀ (host : String), ':' ∉ host.toList →
      ∀ c ∈ host.toList, decide (c ≠ ':') = true := by
    intro host hhost c hc
    simpa using fun heq : c = ':' => hhost (heq ▸ hc)
  rw [List.takeWhile_append_of_pos (hplain _ hp.2),
    List.takeWhile_append_of_pos (hplain _ hq.2)] at hcut
  simp only [ne_eq, not_true_eq_false, decide_false, Bool.false_eq_true, not_false_eq_true,
    List.takeWhile_cons_of_neg, List.append_nil] at hcut
  exact (String.toList_inj.mp hcut).symm

/-- A process that has moved is still the only live one of its host. -/
lemma DeploymentOk.setPhase (h : DeploymentOk s) {i : Nat} {p : WorkerProcess}
    (hp : s.processes[i]? = some p) (hlive : p.live = true) (phase : WorkerPhase)
    (hphase : phase ≠ .starting) : DeploymentOk (s.setPhase i p phase) := by
  refine ⟨?_, ?_, ?_⟩
  · exact (forall_mem_set hp).mpr ⟨h.plain p (List.mem_of_getElem? hp),
      fun j q _ hq => h.plain q (List.mem_of_getElem? hq)⟩
  · -- a live process was one before
    have hbefore : ∀ (j : Nat) (q : WorkerProcess), (s.setPhase i p phase).processes[j]? = some q →
        q.live = true → ∃ q', s.processes[j]? = some q' ∧ q'.live = true ∧ q'.host = q.host := by
      intro j q hq hqlive
      rcases getElem?_set_cases hq with ⟨rfl, rfl⟩ | ⟨_, hold⟩
      · exact ⟨p, hp, hlive, rfl⟩
      · exact ⟨q, hold, hqlive, rfl⟩
    intro j k q r hq hr hqlive hrlive hhost
    obtain ⟨q', hq', hqlive', hqhost⟩ := hbefore j q hq hqlive
    obtain ⟨r', hr', hrlive', hrhost⟩ := hbefore k r hr hrlive
    exact h.alone j k q' r' hq' hr' hqlive' hrlive' (by rw [hqhost, hrhost, hhost])
  · intro k j hk
    obtain ⟨q, hq, hstarted⟩ := h.holders k j hk
    by_cases hij : i = j
    · subst hij
      exact ⟨_, List.getElem?_set_self (List.getElem?_eq_some_iff.mp hp).1, hphase⟩
    · exact ⟨q, (List.getElem?_set_ne hij).trans hq, hstarted⟩

lemma deploymentOk_start (h : DeploymentOk s) {host : String} {pid : Nat} {queues : List String}
    (hguard : oneProcessPerHost s (.start host pid queues) = true) :
    DeploymentOk { s with processes := s.processes ++ [⟨host, pid, queues, .starting⟩] } := by
  obtain ⟨hplain, hnone⟩ := of_decide_eq_true hguard
  have hfree : ∀ (j : Nat) (q : WorkerProcess), s.processes[j]? = some q → q.live = true →
      q.host ≠ host := by
    intro j q hq
    have hq' := List.all_eq_true.mp hnone q (List.mem_of_getElem? hq)
    exact of_decide_eq_true hq'
  refine ⟨?_, ?_, ?_⟩
  · intro p hp
    rcases List.mem_append.mp hp with hold | hnew
    · exact h.plain p hold
    · rw [List.mem_singleton.mp hnew]
      exact hplain
  · intro i j p q hp hq hplive hqlive hhost
    rcases getElem?_concat_cases hp with ⟨rfl, rfl⟩ | hp
    · rcases getElem?_concat_cases hq with ⟨rfl, rfl⟩ | hq
      · rfl
      · exact absurd hhost.symm (hfree j q hq hqlive)
    · rcases getElem?_concat_cases hq with ⟨rfl, rfl⟩ | hq
      · exact absurd hhost (hfree i p hp hplive)
      · exact h.alone i j p q hp hq hplive hqlive hhost
  · intro k j hk
    obtain ⟨q, hq, hstarted⟩ := h.holders k j hk
    exact ⟨q, (List.getElem?_append_left (List.getElem?_eq_some_iff.mp hq).1).trans hq, hstarted⟩

/-- Only a process that has recovered claims jobs. -/
lemma deploymentOk_op (h : DeploymentOk s) {a : LeaseAction}
    (hstep : fleetStep settings s (.op a) = some s') : DeploymentOk s' := by
  simp only [fleetStep] at hstep
  split at hstep
  · obtain ⟨lease, -, rfl⟩ := Option.map_eq_some_iff.mp hstep
    refine ⟨h.plain, h.alone, ?_⟩
    intro k j hk
    dsimp only at hk
    split at hk
    · obtain ⟨w, -, hworking⟩ := Option.bind_eq_some_iff.mp hk
      obtain ⟨hj, hq, -⟩ := List.findIdx?_eq_some_iff_getElem.mp hworking
      refine ⟨s.processes[j], List.getElem?_eq_getElem hj, ?_⟩
      rw [(of_decide_eq_true hq).1]
      decide
    · exact h.holders k j hk
  · cases hstep

lemma deploymentOk_step {a : FleetAction} (h : DeploymentOk s)
    (hguard : oneProcessPerHost s a = true) (hstep : fleetStep settings s a = some s') :
    DeploymentOk s' := by
  cases a with
  | start host pid queues =>
    simp only [fleetStep] at hstep
    split at hstep
    · cases hstep
    · cases hstep
      have hstarted := deploymentOk_start h hguard
      exact ⟨hstarted.plain, hstarted.alone, hstarted.holders⟩
  | stop i =>
    simp only [fleetStep] at hstep
    split at hstep
    · cases hstep
    · next p hp =>
      split at hstep
      · next hlive =>
        cases hstep
        have hmoved := h.setPhase hp hlive .stopped (by decide)
        exact ⟨hmoved.plain, hmoved.alone, hmoved.holders⟩
      · cases hstep
  | recoverRead i now =>
    simp only [fleetStep] at hstep
    split at hstep
    · cases hstep
    · next p hp =>
      split at hstep
      · next hphase =>
        cases hstep
        exact h.setPhase hp (by simp [WorkerProcess.live, hphase]) _ (by simp)
      · cases hstep
  | recoverCommit i =>
    simp only [fleetStep] at hstep
    split at hstep
    · cases hstep
    · next p hp =>
      split at hstep
      · next loads hphase =>
        have hmoved := h.setPhase hp (by simp [WorkerProcess.live, hphase]) .working (by decide)
        split at hstep
        · cases hstep
          exact hmoved
        · cases hstep
          exact ⟨hmoved.plain, hmoved.alone, hmoved.holders⟩
      · cases hstep
  | op a => exact deploymentOk_op h hstep

/-- What a starting process finds under its host name was held by one that has stopped. -/
lemma startsAfterDeath_of_step {a : FleetAction} (h : DeploymentOk s)
    (hguard : oneProcessPerHost s a = true) (hstep : fleetStep settings s a = some s') :
    startsAfterDeath s a = true := by
  cases a with
  | start host pid queues => rfl
  | stop i => rfl
  | op a => rfl
  | recoverCommit i => exact hguard
  | recoverRead i now =>
    simp only [fleetStep] at hstep
    split at hstep
    · cases hstep
    · next p hp =>
      split at hstep
      · next hphase =>
        rw [startsAfterDeath, hp, Option.all_some]
        refine List.all_eq_true.mpr fun r hr => decide_eq_true fun hrun => ?_
        cases hk : s.holders r.id with
        | none => rfl
        | some k =>
          obtain ⟨q, hq, hstarted⟩ := h.holders r.id k hk
          rw [Option.all_some, hq, Option.all_some]
          refine decide_eq_true fun hlike => ?_
          have hhost := host_eq_of_like (h.plain p (List.mem_of_getElem? hp))
            (h.plain q (List.mem_of_getElem? hq)) hlike
          refine ⟨hhost, ?_⟩
          -- a live holder would be the starting process itself, which holds nothing yet
          by_contra hlive
          have hself := h.alone k i q p hq hp (by simpa [WorkerProcess.live] using hlive)
            (by simp [WorkerProcess.live, hphase]) hhost
          subst hself
          rw [hp] at hq
          cases hq
          exact hstarted hphase
      · cases hstep

end Deployment

/-- With one process per host, a run keeps what the startup recovery relies on. -/
theorem startsAfterDeath_of_deployment {settings : QueueSettings} {as : List FleetAction}
    {s : FleetState}
    (h : GuardedRun (fleetStep settings) (fun s a => oneProcessPerHost s a)
      FleetState.initial as s) :
    GuardedRun (fleetStep settings) (fun s a => startsAfterDeath s a) FleetState.initial as s := by
  refine h.weaken (I := DeploymentOk) ⟨by simp [FleetState.initial], by simp [FleetState.initial],
    by simp [FleetState.initial]⟩ ?_
  intro s a s' hok hguard hstep
  exact ⟨startsAfterDeath_of_step hok hguard hstep, deploymentOk_step hok hguard hstep⟩

end IpDocket.Ops
