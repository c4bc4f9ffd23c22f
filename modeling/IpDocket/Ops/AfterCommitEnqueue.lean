import IpDocket.Lib.Run
import IpDocket.Ops.DurableQueue

/-!
# Enqueues staged until the commit

`enqueue_after_commit` appends to one list in `session.info`, and two listeners of
`app/ops/durable_queue.py` empty it: `_drain_after_commit_enqueues` on `after_commit` and
`_clear_after_commit_enqueues` on `after_rollback`. The session fires both events for
savepoints as well. A savepoint that is not the innermost one is released or rolled back
after the savepoints inside it, so that the operations below act on the innermost one.
-/

namespace IpDocket.Ops
open IpDocket.Lib

structure DurableEnqueueSpec where
  task : String
  payload : String
  queue : String
  runAt : Option Time
  maxAttempts : Int
  dedupeKey : Option String
  payloadVersion : Int
  sourceEventId : Option String
  providerRequestId : Option String
  idempotencyScope : Option String
  settings : QueueSettings

/-- The arguments of one call of `enqueue_after_commit`. -/
structure EnqueueAfterCommitCall where
  task : String
  payload : Option String := none
  queue : String := "default"
  runAt : Option Time := none
  maxAttempts : Int := 5
  dedupeKey : Option String := none
  payloadVersion : Int := 1
  sourceEventId : Option String := none
  providerRequestId : Option String := none
  idempotencyScope : Option String := none
  settings : QueueSettings := {}

def EnqueueAfterCommitCall.spec (call : EnqueueAfterCommitCall) : DurableEnqueueSpec where
  task := call.task
  payload := call.payload.getD "\x7b\x7d"
  queue := if call.queue = "" then "default" else call.queue
  runAt := call.runAt
  maxAttempts := if call.maxAttempts = 0 then 5 else call.maxAttempts
  dedupeKey := cleanOptional call.dedupeKey
  payloadVersion := max 1 (if call.payloadVersion = 0 then 1 else call.payloadVersion)
  sourceEventId := cleanOptional call.sourceEventId
  providerRequestId := cleanOptional call.providerRequestId
  idempotencyScope := cleanOptional call.idempotencyScope
  settings := call.settings

/-- A session inside its outer transaction. `depth` counts the open savepoints, `pending` is
the entry of `session.info`, and `enqueued` lists the calls of `DurableQueue.enqueue` in the
order they were made. -/
structure SessionState where
  depth : Nat := 0
  pending : Option (List DurableEnqueueSpec) := none
  enqueued : List DurableEnqueueSpec := []

def enqueueAfterCommit (call : EnqueueAfterCommitCall) (s : SessionState) : SessionState :=
  { s with pending := some (s.pending.getD [] ++ [call.spec]) }

/-- The loop swallows the error of a call, so that every popped spec is passed to `enqueue`. -/
def drainAfterCommitEnqueues (inNestedTransaction : Bool) (s : SessionState) : SessionState :=
  if inNestedTransaction then s
  else { s with
    pending := none
    enqueued := s.enqueued ++ s.pending.getD [] }

def clearAfterCommitEnqueues (s : SessionState) : SessionState := { s with pending := none }

inductive SessionOp
  | stage (call : EnqueueAfterCommitCall)
  | beginNested
  | releaseNested
  | rollbackNested

def sessionStep (s : SessionState) : SessionOp → Option SessionState
  | .stage call => some (enqueueAfterCommit call s)
  | .beginNested => some { s with depth := s.depth + 1 }
  | .releaseNested =>
    if s.depth = 0 then none
    else some { drainAfterCommitEnqueues true s with depth := s.depth - 1 }
  | .rollbackNested =>
    if s.depth = 0 then none
    else some { clearAfterCommitEnqueues s with depth := s.depth - 1 }

inductive OuterEnd
  | commit | rollback
  deriving DecidableEq

/-- A commit first releases the savepoints that are still open. -/
def releaseAll : Nat → SessionState → SessionState
  | 0, s => s
  | n + 1, s => releaseAll n { drainAfterCommitEnqueues true s with depth := s.depth - 1 }

def endTransaction (s : SessionState) : OuterEnd → SessionState
  | .commit => drainAfterCommitEnqueues false (releaseAll s.depth s)
  | .rollback => { clearAfterCommitEnqueues s with depth := 0 }

/-- The scope of a spec outlives `ops`. The number counts the savepoints opened since the
spec was staged: a rollback concerns the spec when none of them is left, and a release then
moves the spec into the scope outside. -/
def survives : Nat → List SessionOp → Bool
  | _, [] => true
  | n, .stage _ :: ops => survives n ops
  | n, .beginNested :: ops => survives (n + 1) ops
  | n, .releaseNested :: ops => survives (n - 1) ops
  | 0, .rollbackNested :: _ => false
  | n + 1, .rollbackNested :: ops => survives n ops

/-- The specs whose staging is followed by operations with `p`, in staging order. -/
def stagedWhere (p : List SessionOp → Bool) : List SessionOp → List DurableEnqueueSpec
  | [] => []
  | .stage call :: ops => (if p ops then [call.spec] else []) ++ stagedWhere p ops
  | _ :: ops => stagedWhere p ops

/-- What the outer end of the transaction should enqueue. -/
def expectedEnqueues (ops : List SessionOp) : OuterEnd → List DurableEnqueueSpec
  | .commit => stagedWhere (survives 0) ops
  | .rollback => []

def SessionOp.isRollback : SessionOp → Bool
  | .rollbackNested => true
  | _ => false

def noRollback (ops : List SessionOp) : Bool := ops.all (fun op => !op.isRollback)

lemma survives_of_noRollback {ops : List SessionOp} (h : noRollback ops = true) (n : Nat) :
    survives n ops = true := by
  induction ops generalizing n with
  | nil => rw [survives]
  | cons op ops ih =>
    rw [noRollback, List.all_cons, Bool.and_eq_true] at h
    have htail : noRollback ops = true := h.2
    cases op with
    | stage call => exact ih htail n
    | beginNested => exact ih htail (n + 1)
    | releaseNested => exact ih htail (n - 1)
    | rollbackNested => exact absurd h.1 (by decide)

section StagedWhere

variable {p q : List SessionOp → Bool}

lemma stagedWhere_sublist (hpq : ∀ ops, p ops = true → q ops = true) (ops : List SessionOp) :
    (stagedWhere p ops).Sublist (stagedWhere q ops) := by
  induction ops with
  | nil => exact List.Sublist.refl []
  | cons op ops ih =>
    cases op with
    | stage call =>
      refine List.Sublist.append ?_ ih
      by_cases hp : p ops = true
      · have hq := hpq ops hp
        simp [hp, hq]
      · rw [if_neg hp]
        exact List.nil_sublist _
    | beginNested => exact ih
    | releaseNested => exact ih
    | rollbackNested => exact ih

/-- A stronger condition keeps the same specs only when it holds after every staging at
which the weaker one does. -/
lemma stagedWhere_eq_iff (hpq : ∀ ops, p ops = true → q ops = true) (ops : List SessionOp) :
    stagedWhere p ops = stagedWhere q ops ↔
      ∀ pre call post, ops = pre ++ .stage call :: post → q post = true → p post = true := by
  induction ops with
  | nil => simp [stagedWhere]
  | cons op ops ih =>
    have hskip (hop : ∀ call, op ≠ .stage call) :
        (∀ pre call post, op :: ops = pre ++ .stage call :: post → q post = true → p post = true) ↔
          ∀ pre call post, ops = pre ++ .stage call :: post → q post = true → p post = true := by
      constructor
      · intro h pre call post hops
        exact h (op :: pre) call post (by rw [hops, List.cons_append])
      · intro h pre call post hops
        cases pre with
        | nil => exact absurd (List.cons.inj hops).1 (hop call)
        | cons first pre => exact h pre call post (List.cons.inj hops).2
    cases op with
    | stage call =>
      constructor
      · intro heq pre call' post hops hq
        have hle := (stagedWhere_sublist hpq ops).length_le
        have hlen := congrArg List.length heq
        simp only [stagedWhere, List.length_append] at hlen
        cases pre with
        | nil =>
          obtain ⟨-, rfl⟩ := List.cons.inj hops
          by_contra hp
          rw [if_neg hp, if_pos hq, List.length_nil, List.length_singleton] at hlen
          omega
        | cons first pre =>
          refine ih.mp ?_ pre call' post (List.cons.inj hops).2 hq
          refine (stagedWhere_sublist hpq ops).eq_of_length ?_
          by_cases hp : p ops = true
          · rw [if_pos hp, if_pos (hpq ops hp)] at hlen
            omega
          · rw [if_neg hp, List.length_nil] at hlen
            omega
      · intro h
        have htail : stagedWhere p ops = stagedWhere q ops := by
          refine ih.mpr ?_
          intro pre call' post hops
          exact h (.stage call :: pre) call' post (by rw [hops, List.cons_append])
        have hhead : p ops = q ops := by
          rw [Bool.eq_iff_iff]
          exact ⟨hpq ops, h [] call ops rfl⟩
        rw [stagedWhere, stagedWhere, htail, hhead]
    | beginNested => exact ih.trans (hskip (by simp)).symm
    | releaseNested => exact ih.trans (hskip (by simp)).symm
    | rollbackNested => exact ih.trans (hskip (by simp)).symm

end StagedWhere

lemma noRollback_append (ops : List SessionOp) (op : SessionOp) :
    noRollback (ops ++ [op]) = (noRollback ops && !op.isRollback) := by
  simp [noRollback]

lemma stagedWhere_noRollback_append {op : SessionOp} (hop : op.isRollback = false)
    (ops : List SessionOp) :
    stagedWhere noRollback (ops ++ [op]) =
      stagedWhere noRollback ops ++ stagedWhere noRollback [op] := by
  induction ops with
  | nil => rfl
  | cons first ops ih =>
    have hlast : noRollback (ops ++ [op]) = noRollback ops := by
      rw [noRollback_append, hop, Bool.not_false, Bool.and_true]
    cases first with
    | stage call =>
      rw [List.cons_append, stagedWhere, stagedWhere, ih, hlast, List.append_assoc]
    | beginNested => exact ih
    | releaseNested => exact ih
    | rollbackNested => exact ih

lemma stagedWhere_noRollback_rollback (ops : List SessionOp) :
    stagedWhere noRollback (ops ++ [SessionOp.rollbackNested]) = [] := by
  induction ops with
  | nil => rfl
  | cons first ops ih =>
    cases first with
    | stage call =>
      rw [List.cons_append, stagedWhere, ih, noRollback_append]
      simp [SessionOp.isRollback]
    | beginNested => exact ih
    | releaseNested => exact ih
    | rollbackNested => exact ih

/-- Inside the transaction the list holds what was staged since the last rollback of a
savepoint, and nothing has been enqueued. -/
lemma pending_of_run {ops : List SessionOp} {s : SessionState}
    (h : Run sessionStep {} ops s) :
    s.pending.getD [] = stagedWhere noRollback ops ∧ s.enqueued = [] := by
  induction h with
  | nil => exact ⟨rfl, rfl⟩
  | @snoc t u ops op _ _ hstep ih =>
    obtain ⟨hpending, henqueued⟩ := ih
    cases op with
    | stage call =>
      cases hstep
      constructor
      · rw [stagedWhere_noRollback_append rfl, ← hpending]
        rfl
      · exact henqueued
    | beginNested =>
      cases hstep
      constructor
      · rw [stagedWhere_noRollback_append rfl, ← hpending]
        exact (List.append_nil _).symm
      · exact henqueued
    | releaseNested =>
      rw [sessionStep] at hstep
      split at hstep
      · cases hstep
      · cases hstep
        constructor
        · rw [stagedWhere_noRollback_append rfl, ← hpending]
          exact (List.append_nil _).symm
        · exact henqueued
    | rollbackNested =>
      rw [sessionStep] at hstep
      split at hstep
      · cases hstep
      · cases hstep
        constructor
        · rw [stagedWhere_noRollback_rollback]
          rfl
        · exact henqueued

lemma releaseAll_pending (n : Nat) (s : SessionState) :
    (releaseAll n s).pending = s.pending ∧ (releaseAll n s).enqueued = s.enqueued := by
  induction n generalizing s with
  | zero => exact ⟨rfl, rfl⟩
  | succ n ih => exact ih _

lemma enqueued_endTransaction {ops : List SessionOp} {s : SessionState}
    (h : Run sessionStep {} ops s) (final : OuterEnd) :
    (endTransaction s final).enqueued =
      match final with
      | .commit => stagedWhere noRollback ops
      | .rollback => [] := by
  obtain ⟨hpending, henqueued⟩ := pending_of_run h
  cases final with
  | commit =>
    obtain ⟨hrelease, hcalls⟩ := releaseAll_pending s.depth s
    change (releaseAll s.depth s).enqueued ++ (releaseAll s.depth s).pending.getD [] = _
    rw [hrelease, hcalls, hpending, henqueued, List.nil_append]
  | rollback => exact henqueued

/-- The outer end of the transaction passes to `enqueue` what was staged in scopes that were not
rolled back, in staging order and once each, exactly when no savepoint is rolled back after a spec
was staged that a commit should enqueue. -/
theorem after_commit_enqueues_iff {ops : List SessionOp} {s : SessionState}
    (h : Run sessionStep {} ops s) (final : OuterEnd) :
    (endTransaction s final).enqueued = expectedEnqueues ops final ↔
      (final = .commit → ∀ pre call post, ops = pre ++ .stage call :: post →
        survives 0 post = true → ∀ op ∈ post, op.isRollback = false) := by
  rw [enqueued_endTransaction h]
  cases final with
  | commit =>
    have hiff := stagedWhere_eq_iff (p := noRollback) (q := survives 0)
      (fun ops hops => survives_of_noRollback hops 0) ops
    change stagedWhere noRollback ops = stagedWhere (survives 0) ops ↔ _
    rw [hiff]
    simp only [noRollback, List.all_eq_true, Bool.not_eq_true', forall_const]
  | rollback => simp [expectedEnqueues]

/-- A spec of the outer scope and a savepoint that is rolled back before the commit. -/
def stagedThenRolledBack : List SessionOp :=
  [.stage { task := "scan" }, .beginNested, .rollbackNested]

theorem after_commit_enqueues_lost :
    ∃ s, Run sessionStep {} stagedThenRolledBack s ∧
      (endTransaction s .commit).enqueued ≠ expectedEnqueues stagedThenRolledBack .commit := by
  refine exists_guardedRun (t := { depth := 0, pending := none, enqueued := [] }) rfl ?_
  intro _ heq
  cases congrArg List.length heq

/-- A savepoint that is released keeps both specs. -/
theorem after_commit_enqueues_released :
    ∃ s, Run sessionStep {} [.stage { task := "scan" }, .beginNested,
        .stage { task := "index" }, .releaseNested] s ∧
      (endTransaction s .commit).enqueued =
        [EnqueueAfterCommitCall.spec { task := "scan" },
          EnqueueAfterCommitCall.spec { task := "index" }] := by
  refine exists_guardedRun rfl ?_
  intro h
  refine (after_commit_enqueues_iff h .commit).mpr ?_
  intro _ pre call post hops _ op hop
  have hmem : op ∈ pre ++ SessionOp.stage call :: post := by
    exact List.mem_append_right _ (List.mem_cons_of_mem _ hop)
  rw [← hops] at hmem
  simp only [List.mem_cons, List.not_mem_nil, or_false] at hmem
  rcases hmem with rfl | rfl | rfl | rfl <;> rfl

end IpDocket.Ops
