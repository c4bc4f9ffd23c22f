import Mathlib.Data.List.Dedup
import Mathlib.Data.List.Sort
import IpDocket.Queues.AnnuitySyncStranded

/-!
# The task that synchronises given matters

`run_annuity_workflow_sync_task` enqueues all its matters in one transaction and then locks
and synchronises them one after another. The lock of a matter commits this transaction if
there is a row to lock, and rolls it back otherwise. So what becomes of all the requests is
decided by the first matter.

A request that fails and a lock step that fails are reported and passed over. A failed request
may lose the transaction: then nothing runs until the lock step of the first matter, which
fails too and rolls back.

The clock is read once for each statement; what the synchronisation of a matter does, and
whether its failure could be recorded, is arbitrary. No other worker writes meanwhile.
-/

namespace IpDocket.Queues
open IpDocket.Lib

/-- How the synchronisation of a matter ends; `recorded` says that its failure was written. -/
inductive SyncOutcome
  | succeeds
  | raises (err : String) (recorded : Bool)
  deriving DecidableEq

/-- How the statement of a request ends. -/
inductive RequestEnd
  | runs
  | fails (transactionLost : Bool)
  deriving DecidableEq

/-- What the task meets: its settings, its token, the clock, which does not run back, the
failures of its requests and of its lock steps, and the synchronisations. -/
structure TaskEnv where
  settings : DrainSettings
  token : Nat
  enqueueAt : String → Time
  lockAt : String → Time
  failAt : String → Time
  request : String → RequestEnd
  lockFails : String → Bool
  outcome : String → SyncOutcome
  forward : ∀ m, enqueueAt m ≤ lockAt m

/-- The session of the task: the committed table, the table as the session sees it, and whether
its transaction is lost. -/
structure TaskSession where
  committed : AnnuityTable
  view : AnnuityTable
  lost : Bool
  synced : List String
  deadLetters : List DeadLetter

def TaskSession.commit (s : TaskSession) (t : AnnuityTable) : TaskSession :=
  { s with committed := t, view := t, lost := false }

def TaskSession.rollback (s : TaskSession) : TaskSession :=
  { s with view := s.committed, lost := false }

/-- The ids of the payload, stripped, without the empty ones, as a sorted set. -/
def taskMatters (ids : List String) : List String :=
  (((ids.map (fun id => String.ofList (pyStrip id.toList))).filter (· ≠ "")).dedup).insertionSort
    (fun m n => m ≤ n)

def TaskEnv.rebuild (env : TaskEnv) (m : String) : PendingRebuild :=
  ⟨0, m, reasonPayload (some "durable_queue"), env.enqueueAt m⟩

/-- `enqueue_annuity_matter_rebuild`, which lets no exception through. -/
def TaskEnv.enqueueOne (env : TaskEnv) (s : TaskSession) (m : String) : TaskSession :=
  if s.lost then s
  else
    match env.request m with
    | .runs => { s with view := upsertRebuild (env.rebuild m) s.view }
    | .fails transactionLost => { s with lost := transactionLost }

def TaskEnv.enqueueAll (env : TaskEnv) (mids : List String) (s : TaskSession) : TaskSession :=
  mids.foldl env.enqueueOne s

/-- `_lock_specific_items` for one matter. Whatever fails in it is rolled back. -/
def TaskEnv.lockOne (env : TaskEnv) (m : String) (s : TaskSession) : TaskSession × Bool :=
  if s.lost || env.lockFails m then (s.rollback, false)
  else
    let now := env.lockAt m
    let mids := (s.view.rows.filter (fun r =>
      r.matterId ∈ [m] ∧ claimable env.settings now r)).map QueueRow.matterId
    if mids.isEmpty then (s.rollback, false)
    else
      let t := lockRows env.settings env.token now mids s.view
      if (lockedRows env.token mids t).isEmpty then (s.rollback, false) else (s.commit t, true)

/-- The exception path of `_drain_one`. -/
def TaskEnv.failOne (env : TaskEnv) (m err : String) (recorded : Bool) (s : TaskSession) :
    TaskSession :=
  let attempts := ((s.view.find m).map QueueRow.attempts).getD 0
  let payload := (s.view.find m).bind QueueRow.payload
  if recorded then
    if exhausted env.settings attempts then
      { s.commit (deleteHeld env.token m s.view) with
        deadLetters := ⟨m, payload, attempts, errorText err⟩ :: s.deadLetters }
    else if isHeld env.token m s.view then
      s.commit (updateHeld env.token m
        (failRow (errorText err) (some (rebuildNextRun env.settings attempts (env.failAt m)))
          (env.failAt m)) (matterId_failRow _ _ _) s.view)
    else s.rollback
  else s.rollback

/-- `_drain_one` for a matter that this session has locked. -/
def TaskEnv.drainOne (env : TaskEnv) (m : String) (s : TaskSession) : TaskSession :=
  match env.outcome m with
  | .succeeds =>
    if isHeld env.token m s.view then
      { s.commit (deleteHeld env.token m s.view) with synced := m :: s.synced }
    else env.failOne m syncLockLost true s.rollback
  | .raises err recorded => env.failOne m err recorded s

def TaskEnv.serve (env : TaskEnv) (s : TaskSession) (m : String) : TaskSession :=
  match env.lockOne m s with
  | (s, false) => s
  | (s, true) => env.drainOne m s

/-- `run_annuity_workflow_sync_task(matter_ids = ids)` on a committed table. With no ids at all
it asks for no matter and drains the queue as any worker does, which is not part of this. -/
def runAnnuityWorkflowSyncTask (env : TaskEnv) (t : AnnuityTable) (ids : List String) :
    TaskSession :=
  (taskMatters ids).foldl env.serve (env.enqueueAll (taskMatters ids) ⟨t, t, false, [], []⟩)

/-- What the task has done for a matter: it was synchronised, it has a committed row, it was
moved to the dead letters. -/
structure MatterOutcome where
  synced : Bool
  queued : Bool
  dead : Bool
  deriving DecidableEq

def TaskSession.outcomeOf (s : TaskSession) (m : String) : MatterOutcome :=
  ⟨m ∈ s.synced, (s.committed.find m).isSome, s.deadLetters.any (fun l => l.matterId = m)⟩

/-- The row of the matter after its own request. -/
def TaskEnv.requestedRow (env : TaskEnv) (t : AnnuityTable) (m : String) : AnnuityRow :=
  (t.find m).elim (rebuildRow (env.rebuild m)) (renewRebuild (env.rebuild m))

def TaskEnv.viewedRow (env : TaskEnv) (t : AnnuityTable) (m : String) : Option AnnuityRow :=
  if env.request m = .runs then some (env.requestedRow t m) else t.find m

/-- The lock step takes the row. -/
def TaskEnv.locks (env : TaskEnv) (m : String) (r : AnnuityRow) : Bool :=
  !env.lockFails m && claimable env.settings (env.lockAt m) r

/-- The matter fails in its last permitted attempt. -/
def TaskEnv.diesIn (env : TaskEnv) (t : AnnuityTable) (m : String) : Bool :=
  env.locks m (env.requestedRow t m) &&
    (match env.outcome m with
    | .raises _ true => exhausted env.settings ((env.requestedRow t m).attempts + 1)
    | _ => false)

/-- One of the requests loses the transaction. -/
def TaskEnv.loses (env : TaskEnv) (ids : List String) : Bool :=
  (taskMatters ids).any (fun m => env.request m = .fails true)

/-- The first matter is locked right away, which commits the requests. -/
def TaskEnv.firstLocked (env : TaskEnv) (t : AnnuityTable) (ids : List String) : Bool :=
  !env.loses ids && (taskMatters ids).head?.all (fun m => (env.viewedRow t m).any (env.locks m))

/-- The matter had a row before, or its request runs and is committed. -/
def TaskEnv.requestKept (env : TaskEnv) (t : AnnuityTable) (ids : List String) (m : String) : Bool :=
  (t.find m).isSome || (decide (env.request m = .runs) && env.firstLocked t ids)

lemma nodup_taskMatters (ids : List String) : (taskMatters ids).Nodup :=
  (List.perm_insertionSort _ _).nodup_iff.mpr (List.nodup_dedup _)

/-- The task does not depend on the order of its ids. -/
lemma taskMatters_eq {ids ids' : List String}
    (h : ∀ m, m ∈ taskMatters ids' ↔ m ∈ taskMatters ids) : taskMatters ids' = taskMatters ids := by
  have hperm : (taskMatters ids').Perm (taskMatters ids) :=
    (List.perm_ext_iff_of_nodup (nodup_taskMatters ids') (nodup_taskMatters ids)).mpr h
  exact hperm.eq_of_pairwise (fun m n _ _ hmn hnm => String.le_antisymm hmn hnm)
    (List.pairwise_insertionSort _ _) (List.pairwise_insertionSort _ _)

/-- What the requests have done to the session. -/
structure Enqueued (env : TaskEnv) (mids : List String) (s s' : TaskSession) : Prop where
  committed : s'.committed = s.committed
  synced : s'.synced = s.synced
  deadLetters : s'.deadLetters = s.deadLetters
  lost : s'.lost = mids.any (fun m => env.request m = .fails true)
  view : s'.lost = false → ∀ m, s'.view.find m =
    if m ∈ mids then env.viewedRow s.view m else s.view.find m

lemma enqueueAll_of_lost {env : TaskEnv} {s : TaskSession} (h : s.lost = true) (mids : List String) :
    env.enqueueAll mids s = s := by
  induction mids with
  | nil => rfl
  | cons m mids ih =>
    have hone : env.enqueueOne s m = s := if_pos h
    unfold TaskEnv.enqueueAll at ih ⊢
    rw [List.foldl_cons, hone, ih]

lemma viewedRow_congr {env : TaskEnv} {t t' : AnnuityTable} {m : String} (h : t'.find m = t.find m) :
    env.viewedRow t' m = env.viewedRow t m := by
  unfold TaskEnv.viewedRow TaskEnv.requestedRow
  rw [h]

/-- After a request that runs, the others find the rows they would have found. -/
lemma Enqueued.cons_runs {env : TaskEnv} {mids : List String} {s s' : TaskSession} {n : String}
    (hn : n ∉ mids) (hruns : env.request n = .runs)
    (h : Enqueued env mids { s with view := upsertRebuild (env.rebuild n) s.view } s') :
    Enqueued env (n :: mids) s s' := by
  refine ⟨h.committed, h.synced, h.deadLetters, ?_, ?_⟩
  · rw [h.lost, List.any_cons, hruns]
    simp
  · intro hopen m
    have hfind : (upsertRebuild (env.rebuild n) s.view).find m =
        if m = n then some ((s.view.find m).elim (rebuildRow (env.rebuild n))
          (renewRebuild (env.rebuild n))) else s.view.find m := find_upsertRebuild (env.rebuild n) s.view m
    rw [h.view hopen]
    by_cases hm : m = n
    · subst hm
      rw [if_neg hn, if_pos List.mem_cons_self, hfind, if_pos rfl]
      unfold TaskEnv.viewedRow
      rw [if_pos hruns]
      rfl
    · rw [if_neg hm] at hfind
      have hmem : m ∈ n :: mids ↔ m ∈ mids := by simp [hm]
      rw [viewedRow_congr hfind, hfind]
      simp only [hmem]

lemma enqueued_enqueueAll {env : TaskEnv} {mids : List String} (hmids : mids.Nodup) {s : TaskSession}
    (hopen : s.lost = false) : Enqueued env mids s (env.enqueueAll mids s) := by
  induction mids generalizing s with
  | nil => exact ⟨rfl, rfl, rfl, hopen, fun _ _ => rfl⟩
  | cons n mids ih =>
    obtain ⟨hn, hrest⟩ := List.nodup_cons.mp hmids
    have hcons : env.enqueueAll (n :: mids) s = env.enqueueAll mids (env.enqueueOne s n) := rfl
    rw [hcons]
    unfold TaskEnv.enqueueOne
    rw [if_neg (by simp [hopen])]
    cases hrequest : env.request n with
    | runs =>
      have h := ih (s := { s with view := upsertRebuild (env.rebuild n) s.view }) hrest hopen
      exact h.cons_runs hn hrequest
    | fails transactionLost =>
      cases transactionLost with
      | true =>
        dsimp only
        rw [enqueueAll_of_lost rfl]
        refine ⟨rfl, rfl, rfl, ?_, fun h => by cases h⟩
        rw [List.any_cons, hrequest]
        simp
      | false =>
        have hsame : { s with lost := false } = s := by rw [← hopen]
        dsimp only
        rw [hsame]
        have h := ih hrest hopen
        refine ⟨h.committed, h.synced, h.deadLetters, ?_, ?_⟩
        · rw [h.lost, List.any_cons, hrequest]
          simp
        · intro hlost m
          rw [h.view hlost]
          by_cases hm : m = n
          · subst hm
            rw [if_neg hn, if_pos List.mem_cons_self]
            unfold TaskEnv.viewedRow
            rw [if_neg (by simp [hrequest])]
          · have hmem : m ∈ n :: mids ↔ m ∈ mids := by simp [hm]
            simp only [hmem]

/-! ### One matter -/

/-- What becomes of a matter whose row has been locked. -/
def TaskEnv.attemptOutcome (env : TaskEnv) (m : String) (r : AnnuityRow) : MatterOutcome :=
  match env.outcome m with
  | .succeeds => ⟨true, false, false⟩
  | .raises _ true =>
    if exhausted env.settings (r.attempts + 1) then ⟨false, false, true⟩ else ⟨false, true, false⟩
  | .raises _ false => ⟨false, true, false⟩

/-- What becomes of a matter when nothing is pending in the session. -/
def TaskEnv.rowOutcome (env : TaskEnv) (m : String) (row : Option AnnuityRow) : MatterOutcome :=
  match row with
  | none => ⟨false, false, false⟩
  | some r => if env.locks m r then env.attemptOutcome m r else ⟨false, true, false⟩

section One

variable {env : TaskEnv} {s : TaskSession} {m : String} {r : AnnuityRow}

lemma mem_lockIds {n : String} :
    n ∈ (s.view.rows.filter (fun r => r.matterId ∈ [m] ∧
        claimable env.settings (env.lockAt m) r)).map QueueRow.matterId ↔
      n = m ∧ (s.view.find m).any (claimable env.settings (env.lockAt m)) := by
  rw [List.mem_map]
  constructor
  · rintro ⟨r, hr, rfl⟩
    obtain ⟨hrow, hp⟩ := List.mem_filter.mp hr
    obtain ⟨hid, hc⟩ := of_decide_eq_true hp
    have heq := List.mem_singleton.mp hid
    have hfind : s.view.find m = some r := by
      rw [← heq]
      exact Keyed.find_of_mem hrow
    refine ⟨heq, ?_⟩
    rw [hfind]
    exact hc
  · rintro ⟨rfl, hany⟩
    obtain ⟨r, hr, hc⟩ := (Option.any_eq_true _ _).mp hany
    obtain ⟨hrow, hid⟩ := Keyed.find_eq_some.mp hr
    refine ⟨r, List.mem_filter.mpr ⟨hrow, ?_⟩, hid⟩
    exact decide_eq_true ⟨List.mem_singleton.mpr hid, hc⟩

/-- Without a row to lock, everything pending is rolled back. -/
lemma lockOne_none (h : s.lost = false → (s.view.find m).any (env.locks m) = false) :
    env.lockOne m s = (s.rollback, false) := by
  unfold TaskEnv.lockOne
  by_cases hfails : (s.lost || env.lockFails m) = true
  · rw [if_pos hfails]
  · obtain ⟨hopen, hruns⟩ := Bool.or_eq_false_iff.mp (Bool.eq_false_iff.mpr hfails)
    have hlocks := h hopen
    unfold TaskEnv.locks at hlocks
    simp only [hruns, Bool.not_false, Bool.true_and] at hlocks
    rw [if_neg hfails]
    dsimp only
    rw [if_pos]
    rw [List.isEmpty_iff, List.eq_nil_iff_forall_not_mem]
    intro n hn
    rw [(mem_lockIds.mp hn).2] at hlocks
    cases hlocks

/-- With one, everything pending is committed with the lock. -/
lemma lockOne_some (hopen : s.lost = false) (hr : s.view.find m = some r) (hlocks : env.locks m r) :
    ∃ t, env.lockOne m s = (s.commit t, true) ∧
      t.find m = some (lockRow env.token (env.lockAt m) r) ∧
      ∀ n, n ≠ m → t.find n = s.view.find n := by
  obtain ⟨hruns, hc⟩ := Bool.and_eq_true_iff.mp hlocks
  rw [Bool.not_eq_true'] at hruns
  have hany : (s.view.find m).any (claimable env.settings (env.lockAt m)) := by
    rw [hr]
    exact hc
  unfold TaskEnv.lockOne
  rw [if_neg (by simp [hopen, hruns])]
  dsimp only
  generalize hmids : (s.view.rows.filter (fun r => r.matterId ∈ [m] ∧
    claimable env.settings (env.lockAt m) r)).map QueueRow.matterId = mids
  have hmem : ∀ n, n ∈ mids ↔ n = m := by
    intro n
    rw [← hmids, mem_lockIds]
    exact ⟨fun h => h.1, fun h => ⟨h, hany⟩⟩
  have hfind : ∀ n, (lockRows env.settings env.token (env.lockAt m) mids s.view).find n =
      (s.view.find n).map (fun r =>
        if decide (r.matterId ∈ mids ∧ claimable env.settings (env.lockAt m) r) then
          lockRow env.token (env.lockAt m) r else r) := by
    intro n
    exact Keyed.find_update_onRows (matterId_lockRow env.token (env.lockAt m))
  have hlocked : (lockRows env.settings env.token (env.lockAt m) mids s.view).find m =
      some (lockRow env.token (env.lockAt m) r) := by
    have hid := Keyed.key_of_find hr
    rw [hfind m, hr, Option.map_some, if_pos (decide_eq_true ⟨(hmem _).mpr hid, hc⟩)]
  have hothers : ∀ n, n ≠ m → (lockRows env.settings env.token (env.lockAt m) mids s.view).find n =
      s.view.find n := by
    intro n hne
    rw [hfind n]
    cases hn : s.view.find n with
    | none => rfl
    | some q =>
      have hid := Keyed.key_of_find hn
      have hnot : ¬(q.matterId ∈ mids ∧ claimable env.settings (env.lockAt m) q) := by
        rintro ⟨hq, _⟩
        exact hne (hid ▸ (hmem _).mp hq)
      rw [Option.map_some, if_neg (by simpa using hnot)]
  refine ⟨_, ?_, hlocked, hothers⟩
  have hne : ¬mids.isEmpty = true := by
    rw [List.isEmpty_iff]
    exact List.ne_nil_of_mem ((hmem m).mpr rfl)
  have hrows : ¬(lockedRows env.token mids
      (lockRows env.settings env.token (env.lockAt m) mids s.view)).isEmpty = true := by
    rw [List.isEmpty_iff]
    apply List.ne_nil_of_mem (a := lockRow env.token (env.lockAt m) r)
    refine List.mem_filter.mpr ⟨Keyed.mem_of_find hlocked, ?_⟩
    have hid : (lockRow env.token (env.lockAt m) r).matterId = m := Keyed.key_of_find hlocked
    exact decide_eq_true ⟨(hmem _).mpr hid, rfl⟩
  rw [if_neg hne, if_neg hrows]

/-- What the work on `mids` leaves. The rows of the other matters are those of `base`, the
lists grow by `mids` only, and nothing is pending. -/
structure Worked (mids : List String) (o : String → MatterOutcome) (base : AnnuityTable)
    (s s' : TaskSession) : Prop where
  clean : s'.view = s'.committed ∧ s'.lost = false
  others : ∀ n, n ∉ mids → s'.committed.find n = base.find n
  row : ∀ n ∈ mids, (s'.committed.find n).isSome = (o n).queued
  synced : ∀ n, n ∈ s'.synced ↔ n ∈ s.synced ∨ (n ∈ mids ∧ (o n).synced)
  dead : ∀ n, s'.deadLetters.any (fun l => l.matterId = n) =
    (s.deadLetters.any (fun l => l.matterId = n) || (decide (n ∈ mids) && (o n).dead))

lemma find_deleteHeld_ne {t : AnnuityTable} {token : Nat} {n : String} (hne : n ≠ m) :
    (deleteHeld token m t).find n = t.find n := by
  cases hn : t.find n with
  | none => simp [deleteHeld, Keyed.find_delete, hn]
  | some q =>
    have hnot : ¬holdsToken token m q = true := by
      intro hheld
      have hid := (of_decide_eq_true hheld).1
      exact hne ((Keyed.key_of_find hn).symm.trans hid)
    rw [find_deleteHeld hn, if_neg hnot]

lemma find_updateHeld {t : AnnuityTable} {token : Nat} {n : String}
    {f : AnnuityRow → AnnuityRow} (hf : ∀ r, (f r).matterId = r.matterId) :
    (updateHeld token m f hf t).find n =
      (t.find n).map (fun r => if holdsToken token m r then f r else r) :=
  Keyed.find_update_onRows hf

lemma find_updateHeld_ne {t : AnnuityTable} {token : Nat} {n : String}
    {f : AnnuityRow → AnnuityRow} (hf : ∀ r, (f r).matterId = r.matterId) (hne : n ≠ m) :
    (updateHeld token m f hf t).find n = t.find n := by
  rw [find_updateHeld hf]
  cases hn : t.find n with
  | none => rfl
  | some q =>
    have hnot : ¬holdsToken token m q = true := by
      intro hheld
      exact hne ((Keyed.key_of_find hn).symm.trans (of_decide_eq_true hheld).1)
    rw [Option.map_some, if_neg hnot]

/-- The work on one matter, from what it does to its row and to the lists. -/
lemma worked_singleton {o : String → MatterOutcome} {base : AnnuityTable} {s s' : TaskSession}
    (hclean : s'.view = s'.committed ∧ s'.lost = false)
    (hothers : ∀ n, n ≠ m → s'.committed.find n = base.find n)
    (hrow : (s'.committed.find m).isSome = (o m).queued)
    (hsynced : s'.synced = if (o m).synced then m :: s.synced else s.synced)
    (hdead : ∀ n, s'.deadLetters.any (fun l => l.matterId = n) =
      (s.deadLetters.any (fun l => l.matterId = n) || (decide (n = m) && (o m).dead))) :
    Worked [m] o base s s' := by
  refine ⟨hclean, ?_, ?_, ?_, ?_⟩
  · intro n hn
    exact hothers n (fun h => hn (List.mem_singleton.mpr h))
  · intro n hn
    rw [List.mem_singleton.mp hn]
    exact hrow
  · intro n
    rw [hsynced, List.mem_singleton]
    by_cases hn : n = m
    · subst hn
      by_cases ho : (o n).synced <;> simp [ho]
    · by_cases ho : (o m).synced <;> simp [ho, hn]
  · intro n
    rw [hdead]
    by_cases hn : n = m
    · subst hn
      simp
    · simp [hn]

lemma worked_drainOne {o : String → MatterOutcome} {t : AnnuityTable} {now : Time}
    (hm : t.find m = some (lockRow env.token now r)) (ho : o m = env.attemptOutcome m r) :
    Worked [m] o t s (env.drainOne m (s.commit t)) := by
  have hid : (lockRow env.token now r).matterId = m := Keyed.key_of_find hm
  have hheld : isHeld env.token m t = true := by simp [isHeld, hm, lockRow]
  have hgone : (deleteHeld env.token m t).find m = none := by
    rw [find_deleteHeld hm, if_pos]
    exact decide_eq_true ⟨hid, rfl⟩
  unfold TaskEnv.attemptOutcome at ho
  unfold TaskEnv.drainOne
  cases henv : env.outcome m with
  | succeeds =>
    rw [henv] at ho
    dsimp only
    rw [if_pos (show isHeld env.token m (s.commit t).view = true from hheld)]
    apply worked_singleton ⟨rfl, rfl⟩
    · intro n hne
      exact find_deleteHeld_ne hne
    · change ((deleteHeld env.token m t).find m).isSome = _
      rw [hgone, ho]
      rfl
    · rw [ho]
      rfl
    · intro n
      simp [ho, TaskSession.commit]
  | raises err recorded =>
    unfold TaskEnv.failOne
    rw [henv] at ho
    have hview : (s.commit t).view.find m = some (lockRow env.token now r) := hm
    dsimp only
    rw [hview, Option.map_some, Option.getD_some]
    cases recorded with
    | false =>
      rw [if_neg Bool.false_ne_true]
      apply worked_singleton ⟨rfl, rfl⟩
      · intro n _
        rfl
      · change (t.find m).isSome = _
        rw [hm, ho]
        rfl
      · rw [ho]
        rfl
      · intro n
        rw [ho]
        simp [TaskSession.rollback, TaskSession.commit]
    | true =>
      by_cases hex : exhausted env.settings (r.attempts + 1)
      · rw [if_pos rfl, if_pos (show exhausted env.settings (lockRow env.token now r).attempts from hex)]
        dsimp only at ho
        rw [if_pos hex] at ho
        apply worked_singleton ⟨rfl, rfl⟩
        · intro n hne
          exact find_deleteHeld_ne hne
        · change ((deleteHeld env.token m t).find m).isSome = _
          rw [hgone, ho]
          rfl
        · rw [ho]
          rfl
        · intro n
          rw [ho]
          simp [TaskSession.commit, eq_comm, Bool.or_comm]
      · rw [if_pos rfl, if_neg (show ¬exhausted env.settings (lockRow env.token now r).attempts from hex),
          if_pos (show isHeld env.token m (s.commit t).view = true from hheld)]
        dsimp only at ho
        rw [if_neg hex] at ho
        apply worked_singleton ⟨rfl, rfl⟩
        · intro n hne
          exact find_updateHeld_ne (matterId_failRow _ _ _) hne
        · change ((updateHeld env.token m _ (matterId_failRow _ _ _) t).find m).isSome = _
          rw [find_updateHeld, hm, ho]
          rfl
        · rw [ho]
          rfl
        · intro n
          rw [ho]
          simp [TaskSession.commit]

/-- A matter that can be locked commits everything pending, and is worked on. -/
lemma worked_serve_of_locks {o : String → MatterOutcome} (hopen : s.lost = false)
    (hr : s.view.find m = some r) (hlocks : env.locks m r) (ho : o m = env.attemptOutcome m r) :
    Worked [m] o s.view s (env.serve s m) := by
  obtain ⟨t, hlock, hm, hothers⟩ := lockOne_some hopen hr hlocks
  have hwork : Worked [m] o t s (env.drainOne m (s.commit t)) := worked_drainOne hm ho
  unfold TaskEnv.serve
  rw [hlock]
  refine { hwork with others := ?_ }
  intro n hn
  rw [hwork.others n hn, hothers n (fun h => hn (List.mem_singleton.mpr h))]

lemma serve_of_not_locks (h : s.lost = false → (s.view.find m).any (env.locks m) = false) :
    env.serve s m = s.rollback := by
  unfold TaskEnv.serve
  rw [lockOne_none h]

/-- A rollback leaves the matter with the row it had. -/
lemma worked_rollback {o : String → MatterOutcome}
    (ho : o m = ⟨false, (s.committed.find m).isSome, false⟩) : Worked [m] o s.committed s s.rollback := by
  apply worked_singleton ⟨rfl, rfl⟩
  · intro n _
    rfl
  · rw [ho]
    rfl
  · rw [ho]
    rfl
  · intro n
    rw [ho]
    simp [TaskSession.rollback]

lemma rowOutcome_of_not_locks {row : Option AnnuityRow} (h : row.any (env.locks m) = false) :
    env.rowOutcome m row = ⟨false, row.isSome, false⟩ := by
  cases row with
  | none => rfl
  | some r =>
    rw [Option.any_some] at h
    unfold TaskEnv.rowOutcome
    dsimp only
    rw [if_neg (Bool.eq_false_iff.mp h)]
    rfl

/-- A matter is served by its own row when nothing is pending. -/
lemma worked_serve {o : String → MatterOutcome} (hclean : s.view = s.committed ∧ s.lost = false)
    (ho : o m = env.rowOutcome m (s.committed.find m)) :
    Worked [m] o s.committed s (env.serve s m) := by
  by_cases hany : (s.view.find m).any (env.locks m) = true
  · obtain ⟨r, hr, hlocks⟩ := (Option.any_eq_true _ _).mp hany
    rw [← hclean.1, hr] at ho
    unfold TaskEnv.rowOutcome at ho
    dsimp only at ho
    rw [if_pos hlocks] at ho
    have hwork : Worked [m] o s.view s (env.serve s m) := worked_serve_of_locks hclean.2 hr hlocks ho
    rwa [hclean.1] at hwork
  · have hnone := Bool.eq_false_iff.mpr hany
    rw [serve_of_not_locks (fun _ => hnone)]
    rw [hclean.1] at hnone
    exact worked_rollback (ho.trans (rowOutcome_of_not_locks hnone))

end One

/-! ### All matters of a task -/

lemma Worked.cons {m : String} {mids : List String} {o : String → MatterOutcome}
    {base : AnnuityTable} {s s' s'' : TaskSession} (hm : m ∉ mids)
    (h : Worked [m] o base s s') (hrest : Worked mids o s'.committed s' s'') :
    Worked (m :: mids) o base s s'' := by
  refine ⟨hrest.clean, ?_, ?_, ?_, ?_⟩
  · intro n hn
    rw [List.mem_cons, not_or] at hn
    rw [hrest.others n hn.2, h.others n (by simpa using hn.1)]
  · intro n hn
    obtain rfl | hn := List.mem_cons.mp hn
    · rw [hrest.others n hm, h.row n List.mem_cons_self]
    · exact hrest.row n hn
  · intro n
    rw [hrest.synced, h.synced, List.mem_singleton, List.mem_cons]
    grind
  · intro n
    rw [hrest.dead, h.dead, Bool.or_assoc, ← Bool.and_or_distrib_right]
    simp [List.mem_cons]

/-- From a session with nothing pending, every matter is served by its own row. -/
lemma worked_foldl_serve {env : TaskEnv} {mids : List String} (hmids : mids.Nodup)
    {o : String → MatterOutcome} {s : TaskSession} (hclean : s.view = s.committed ∧ s.lost = false)
    (ho : ∀ m ∈ mids, o m = env.rowOutcome m (s.committed.find m)) :
    Worked mids o s.committed s (mids.foldl env.serve s) := by
  induction mids generalizing s with
  | nil => exact ⟨hclean, by simp, by simp, by simp, by simp⟩
  | cons m mids ih =>
    obtain ⟨hm, hrest⟩ := List.nodup_cons.mp hmids
    have hfirst : Worked [m] o s.committed s (env.serve s m) :=
      worked_serve hclean (ho m List.mem_cons_self)
    apply hfirst.cons hm
    apply ih hrest hfirst.clean
    intro n hn
    have hne : n ∉ [m] := fun h => hm (List.mem_singleton.mp h ▸ hn)
    rw [hfirst.others n hne]
    exact ho n (List.mem_cons_of_mem m hn)

/-- A request does not change whether the row of its matter can be locked, since the clock
does not run back. -/
lemma claimable_requestedRow {env : TaskEnv} {t : AnnuityTable} {m : String} {r : AnnuityRow}
    (hr : t.find m = some r) :
    claimable env.settings (env.lockAt m) (env.requestedRow t m) =
      claimable env.settings (env.lockAt m) r := by
  have hforward := env.forward m
  have hnext : (env.requestedRow t m).nextRunAt.all (· ≤ env.lockAt m) =
      r.nextRunAt.all (· ≤ env.lockAt m) := by
    unfold TaskEnv.requestedRow
    rw [hr]
    rw [Option.elim_some, renewRebuild]
    have hnow : (env.rebuild m).now = env.enqueueAt m := rfl
    cases r.nextRunAt with
    | none => simpa [hnow] using hforward
    | some next =>
      dsimp only
      rw [hnow]
      split
      · have hnext : next ≤ env.lockAt m := le_trans ‹_› hforward
        simp [hforward, hnext]
      · rfl
  have hrest : (env.requestedRow t m).lockedAt = r.lockedAt ∧
      (env.requestedRow t m).attempts = r.attempts := by
    unfold TaskEnv.requestedRow
    rw [hr]
    exact ⟨rfl, rfl⟩
  unfold claimable
  rw [hnext, hrest.1, hrest.2]

lemma locks_requestedRow {env : TaskEnv} {t : AnnuityTable} {m : String} {r : AnnuityRow}
    (hr : t.find m = some r) : env.locks m (env.requestedRow t m) = env.locks m r := by
  unfold TaskEnv.locks
  rw [claimable_requestedRow hr]

/-- The request makes no difference for a matter that has a row. -/
lemma rowOutcome_requestedRow {env : TaskEnv} {t : AnnuityTable} {m : String}
    (hm : (t.find m).isSome) :
    env.rowOutcome m (some (env.requestedRow t m)) = env.rowOutcome m (t.find m) := by
  obtain ⟨r, hr⟩ := Option.isSome_iff_exists.mp hm
  have hlocks : env.locks m (env.requestedRow t m) = env.locks m r := locks_requestedRow hr
  have hattempts : (env.requestedRow t m).attempts = r.attempts := by
    unfold TaskEnv.requestedRow
    rw [hr]
    rfl
  unfold TaskEnv.rowOutcome TaskEnv.attemptOutcome
  rw [hr]
  dsimp only
  rw [hlocks, hattempts]

/-- A matter that is not locked with its request was not to be locked without it. -/
lemma any_locks_of_viewedRow {env : TaskEnv} {t : AnnuityTable} {m : String}
    (h : (env.viewedRow t m).any (env.locks m) = false) : (t.find m).any (env.locks m) = false := by
  unfold TaskEnv.viewedRow at h
  split at h
  · cases hr : t.find m with
    | none => rfl
    | some r =>
      rw [Option.any_some, locks_requestedRow hr] at h
      exact h
  · exact h

/-- What becomes of a matter. The first matter decides which row it is served by, and a lost
transaction costs the first matter its turn. -/
def TaskEnv.taskOutcome (env : TaskEnv) (t : AnnuityTable) (ids : List String) (m : String) :
    MatterOutcome :=
  if env.loses ids = true ∧ (taskMatters ids).head? = some m then ⟨false, (t.find m).isSome, false⟩
  else env.rowOutcome m (if env.firstLocked t ids then env.viewedRow t m else t.find m)

section Task

variable {env : TaskEnv} {t : AnnuityTable} {ids mids : List String} {m : String} {s : TaskSession}

/-- The first matter is locked: the others are served by the rows as the requests leave them. -/
lemma worked_of_firstLocked (h : env.firstLocked t ids) (hids : taskMatters ids = m :: mids)
    (henq : Enqueued env (m :: mids) ⟨t, t, false, [], []⟩ s) :
    Worked (m :: mids) (env.taskOutcome t ids) s.view s ((m :: mids).foldl env.serve s) := by
  have hout : ∀ n, env.taskOutcome t ids n = env.rowOutcome n (env.viewedRow t n) := by
    intro n
    unfold TaskEnv.taskOutcome
    have hkept := (Bool.and_eq_true_iff.mp h).1
    rw [Bool.not_eq_true'] at hkept
    rw [if_neg (by simp [hkept]), if_pos h]
  obtain ⟨hkept, hfirst⟩ := Bool.and_eq_true_iff.mp h
  unfold TaskEnv.loses at hkept
  rw [hids, Bool.not_eq_true'] at hkept
  rw [hids, List.head?_cons, Option.all_some] at hfirst
  obtain ⟨r, hr, hlocks⟩ := (Option.any_eq_true _ _).mp hfirst
  have hopen : s.lost = false := henq.lost.trans hkept
  have hfind : ∀ n ∈ m :: mids, s.view.find n = env.viewedRow t n := by
    intro n hn
    rw [henq.view hopen, if_pos hn]
  have hnodup := nodup_taskMatters ids
  rw [hids] at hnodup
  obtain ⟨hm, hrest⟩ := List.nodup_cons.mp hnodup
  have hwork : Worked [m] (env.taskOutcome t ids) s.view s (env.serve s m) := by
    apply worked_serve_of_locks hopen ((hfind m List.mem_cons_self).trans hr) hlocks
    rw [hout, hr]
    exact if_pos hlocks
  apply hwork.cons hm
  apply worked_foldl_serve hrest hwork.clean
  intro n hn
  have hne : n ∉ [m] := fun h => hm (List.mem_singleton.mp h ▸ hn)
  rw [hwork.others n hne, hfind n (List.mem_cons_of_mem m hn), hout]

/-- The first matter is not locked: all requests go with the rollback. -/
lemma worked_of_not_firstLocked (h : ¬env.firstLocked t ids) (hids : taskMatters ids = m :: mids)
    (henq : Enqueued env (m :: mids) ⟨t, t, false, [], []⟩ s) :
    Worked (m :: mids) (env.taskOutcome t ids) t s ((m :: mids).foldl env.serve s) := by
  have hnodup := nodup_taskMatters ids
  rw [hids] at hnodup
  obtain ⟨hm, hrest⟩ := List.nodup_cons.mp hnodup
  have hlost : s.lost = env.loses ids := by
    unfold TaskEnv.loses
    rw [henq.lost, hids]
  have hnone : env.loses ids = false → (env.viewedRow t m).any (env.locks m) = false := by
    intro hkept
    unfold TaskEnv.firstLocked at h
    rw [hkept, hids] at h
    simpa using h
  have hwork : Worked [m] (env.taskOutcome t ids) t s (env.serve s m) := by
    rw [serve_of_not_locks]
    · have hcommitted : s.committed = t := henq.committed
      rw [← hcommitted]
      apply worked_rollback
      rw [hcommitted]
      unfold TaskEnv.taskOutcome
      rw [if_neg h, hids, List.head?_cons]
      by_cases hloses : env.loses ids = true
      · rw [if_pos ⟨hloses, rfl⟩]
      · rw [if_neg (by simp [hloses])]
        exact rowOutcome_of_not_locks (any_locks_of_viewedRow (hnone (Bool.eq_false_iff.mpr hloses)))
    · intro hopen
      rw [henq.view hopen, if_pos List.mem_cons_self]
      exact hnone (hlost.symm.trans hopen)
  apply hwork.cons hm
  apply worked_foldl_serve hrest hwork.clean
  intro n hn
  have hne : n ≠ m := fun h => hm (h ▸ hn)
  rw [hwork.others n (by simpa using hne)]
  unfold TaskEnv.taskOutcome
  rw [if_neg h, hids, List.head?_cons, if_neg]
  rintro ⟨-, hsame⟩
  exact hne (Option.some.inj hsame).symm

lemma outcomeOf_task (env : TaskEnv) (t : AnnuityTable) (hm : m ∈ taskMatters ids) :
    (runAnnuityWorkflowSyncTask env t ids).outcomeOf m = env.taskOutcome t ids m := by
  unfold runAnnuityWorkflowSyncTask
  have henq : Enqueued env (taskMatters ids) ⟨t, t, false, [], []⟩
      (env.enqueueAll (taskMatters ids) ⟨t, t, false, [], []⟩) :=
    enqueued_enqueueAll (nodup_taskMatters ids) rfl
  generalize env.enqueueAll (taskMatters ids) ⟨t, t, false, [], []⟩ = s at henq
  obtain ⟨base, hwork⟩ : ∃ base, Worked (taskMatters ids) (env.taskOutcome t ids) base s
      ((taskMatters ids).foldl env.serve s) := by
    cases hids : taskMatters ids with
    | nil =>
      rw [hids] at hm
      cases hm
    | cons n mids =>
      rw [hids] at henq
      by_cases hfirst : env.firstLocked t ids = true
      · exact ⟨_, worked_of_firstLocked hfirst hids henq⟩
      · exact ⟨_, worked_of_not_firstLocked hfirst hids henq⟩
  have hsynced := hwork.synced m
  have hdead := hwork.dead m
  rw [henq.synced] at hsynced
  rw [henq.deadLetters] at hdead
  unfold TaskSession.outcomeOf
  rw [hwork.row m hm, hdead]
  simp only [hsynced, List.not_mem_nil, false_or, hm, true_and, List.any_nil, Bool.false_or,
    decide_true, Bool.true_and, Bool.decide_eq_true]

/-- A matter whose request is kept is served by the row its request leaves. -/
lemma taskOutcome_of_requestKept (h : env.requestKept t ids m)
    (hturn : ¬(env.loses ids = true ∧ (taskMatters ids).head? = some m)) :
    env.taskOutcome t ids m = env.rowOutcome m (some (env.requestedRow t m)) := by
  unfold TaskEnv.taskOutcome TaskEnv.viewedRow
  rw [if_neg hturn]
  obtain hrow | hnew := (Bool.or_eq_true _ _).mp h
  · split
    · split
      · rfl
      · exact (rowOutcome_requestedRow hrow).symm
    · exact (rowOutcome_requestedRow hrow).symm
  · obtain ⟨hruns, hfirst⟩ := Bool.and_eq_true_iff.mp hnew
    rw [if_pos hfirst, if_pos (of_decide_eq_true hruns)]

/-- A matter that has a row in the end was synchronised, still has one, or died. -/
lemma rowOutcome_some (env : TaskEnv) (m : String) (r : AnnuityRow) :
    (env.rowOutcome m (some r)).synced ∨ (env.rowOutcome m (some r)).queued ∨
      ((env.rowOutcome m (some r)).dead ∧ env.locks m r ∧
        ∃ err, env.outcome m = .raises err true ∧ exhausted env.settings (r.attempts + 1)) := by
  unfold TaskEnv.rowOutcome
  dsimp only
  split
  · rename_i hlocks
    unfold TaskEnv.attemptOutcome
    split
    · exact .inl rfl
    · rename_i err henv
      split
      · rename_i hex
        exact .inr (.inr ⟨rfl, hlocks, err, henv, hex⟩)
      · exact .inr (.inl rfl)
    · exact .inr (.inl rfl)
  · exact .inr (.inl rfl)

/-- A matter whose request is kept is served, keeps its row, or dies in its last attempt. -/
lemma taskOutcome_served (h : env.requestKept t ids m) :
    (env.taskOutcome t ids m).synced ∨ (env.taskOutcome t ids m).queued ∨
      ((env.taskOutcome t ids m).dead ∧ env.diesIn t m) := by
  by_cases hturn : env.loses ids = true ∧ (taskMatters ids).head? = some m
  · have hrow : (t.find m).isSome = true := by
      obtain hrow | hnew := (Bool.or_eq_true _ _).mp h
      · exact hrow
      · have hkept := (Bool.and_eq_true_iff.mp (Bool.and_eq_true_iff.mp hnew).2).1
        rw [hturn.1] at hkept
        cases hkept
    unfold TaskEnv.taskOutcome
    rw [if_pos hturn]
    exact .inr (.inl hrow)
  · rw [taskOutcome_of_requestKept h hturn]
    obtain hsynced | hqueued | ⟨hdead, hlocks, err, henv, hex⟩ :=
      rowOutcome_some env m (env.requestedRow t m)
    · exact .inl hsynced
    · exact .inr (.inl hqueued)
    · refine .inr (.inr ⟨hdead, ?_⟩)
      unfold TaskEnv.diesIn
      rw [henv]
      exact Bool.and_eq_true_iff.mpr ⟨hlocks, hex⟩

/-- When the first matter is not locked, the new requests of all matters are lost. -/
lemma outcomeOf_request_lost (hfirst : ¬env.firstLocked t ids) (hm : m ∈ taskMatters ids)
    (hrow : t.find m = none) :
    (runAnnuityWorkflowSyncTask env t ids).outcomeOf m = ⟨false, false, false⟩ := by
  rw [outcomeOf_task env t hm]
  unfold TaskEnv.taskOutcome
  rw [if_neg hfirst, hrow]
  split
  · rfl
  · rfl

end Task

/-- A task whose matters all end in the given way, at one moment. -/
def momentEnv (maxAttempts : Int) (o : SyncOutcome) : TaskEnv where
  settings := { maxAttempts := maxAttempts }
  token := 1
  enqueueAt _ := 100
  lockAt _ := 100
  failAt _ := 100
  request _ := .runs
  lockFails _ := false
  outcome _ := o
  forward _ := le_refl _

def noRows : AnnuityTable := ⟨[], List.Pairwise.nil⟩

/-- The row of `M1` after a failure, to be tried again at 200. -/
def backedOff : AnnuityTable :=
  ⟨[{ rebuildRow ⟨0, "M1", none, 50⟩ with attempts := 1, nextRunAt := some 200 }],
    List.pairwise_singleton _ _⟩

end IpDocket.Queues
