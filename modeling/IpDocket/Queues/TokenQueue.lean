import Mathlib.Algebra.Ring.Int.Defs
import Mathlib.Data.List.Sort
import IpDocket.Lib.Keyed
import IpDocket.Lib.Time

/-!
# Queues with one row for each matter

`matter_status_recalc_queue` and `annuity_workflow_sync_queue` have the same columns. A
drain locks rows by writing its token and the time into them, counts the attempt, and
releases or deletes only rows that still carry its token. A lock older than the timeout may
be taken over by another drain. What the two queues share is here, over the type `π` of
their payloads.
-/

namespace IpDocket.Queues
open IpDocket.Lib

structure QueueRow (π : Type) where
  matterId : String
  payload : Option π
  attempts : Nat
  nextRunAt : Option Time
  lockedAt : Option Time
  lockToken : Option Nat
  lastError : Option String
  createdAt : Time
  updatedAt : Time
  deriving DecidableEq, Repr

abbrev QueueTable (π : Type) := Keyed (@QueueRow.matterId π)

/-- The configuration of a drain, with the defaults of the source. -/
structure DrainSettings where
  maxAttempts : Int := 8
  backoffBaseSeconds : Int := 30
  backoffMaxSeconds : Int := 3600
  lockTimeoutSeconds : Int := 300

variable {π : Type}

def expiredBefore (settings : DrainSettings) (now : Time) : Time :=
  now - seconds settings.lockTimeoutSeconds

/-- The condition under which a drain may lock a row. -/
def claimable (settings : DrainSettings) (now : Time) (r : QueueRow π) : Bool :=
  r.lockedAt.all (· < expiredBefore settings now) ∧ r.nextRunAt.all (· ≤ now) ∧
    (r.attempts : Int) < settings.maxAttempts

def lockRow (token : Nat) (now : Time) (r : QueueRow π) : QueueRow π :=
  { r with
    lockedAt := some now
    lockToken := some token
    attempts := r.attempts + 1
    lastError := none
    updatedAt := now }

lemma matterId_lockRow (token : Nat) (now : Time) (r : QueueRow π) :
    (lockRow token now r).matterId = r.matterId := rfl

/-- The `UPDATE` that locks the rows of `ids` that may still be locked. -/
def lockRows (settings : DrainSettings) (token : Nat) (now : Time) (ids : List String)
    (t : QueueTable π) : QueueTable π :=
  t.update (onRows (fun r => r.matterId ∈ ids ∧ claimable settings now r) (lockRow token now))
    (key_onRows (matterId_lockRow token now))

def holdsToken (token : Nat) (mid : String) (r : QueueRow π) : Bool :=
  r.matterId = mid ∧ r.lockToken = some token

/-- The `SELECT` after it, in the same transaction. -/
def lockedRows (token : Nat) (ids : List String) (t : QueueTable π) : List (QueueRow π) :=
  t.rows.filter (fun r => r.matterId ∈ ids ∧ r.lockToken = some token)

def computeBackoffSeconds (attempts : Int) (base cap : Int) : Int :=
  min cap (base * 2 ^ (attempts - 1).toNat)

/-- A row handed back after a failure. -/
def failRow (err : String) (nextRunAt : Option Time) (now : Time) (r : QueueRow π) :
    QueueRow π :=
  { r with
    lastError := some err
    nextRunAt := nextRunAt
    lockedAt := none
    lockToken := none
    updatedAt := now }

lemma matterId_failRow (err : String) (nextRunAt : Option Time) (now : Time) (r : QueueRow π) :
    (failRow err nextRunAt now r).matterId = r.matterId := rfl

/-- An `UPDATE` of the row of `mid` if it still carries the token. -/
def updateHeld (token : Nat) (mid : String) (f : QueueRow π → QueueRow π)
    (hf : ∀ r, (f r).matterId = r.matterId) (t : QueueTable π) : QueueTable π :=
  t.update (onRows (holdsToken token mid) f) (key_onRows hf)

/-- A `DELETE` of the row of `mid` if it still carries the token. -/
def deleteHeld (token : Nat) (mid : String) (t : QueueTable π) : QueueTable π :=
  t.delete (holdsToken token mid)

def isHeld (token : Nat) (mid : String) (t : QueueTable π) : Bool :=
  (t.find mid).any (fun r => r.lockToken = some token)

def refreshRow (now : Time) (r : QueueRow π) : QueueRow π :=
  { r with lockedAt := some now, updatedAt := now }

lemma matterId_refreshRow (now : Time) (r : QueueRow π) :
    (refreshRow now r).matterId = r.matterId := rfl

/-- `QueueLockHeartbeat`, for one row or for all rows of the token. -/
def heartbeat (token : Nat) (mid : Option String) (now : Time) (t : QueueTable π) :
    QueueTable π :=
  t.update (onRows (fun r => mid.all (· = r.matterId) ∧ r.lockToken = some token)
    (refreshRow now)) (key_onRows (matterId_refreshRow now))

/-- A statement that writes the rows `p` does not wait for an open transaction, which has
written the rows of the matters `writing`. -/
def unblocked (writing : List String) (p : QueueRow π → Bool) (t : QueueTable π) : Bool :=
  t.rows.all (fun r => p r → r.matterId ∉ writing)

/-- The text of an exception as it is stored. -/
def errorText (err : String) : String :=
  String.ofList ((if err = "" then "unknown error" else err).toList.take 4000)

/-- What a statement of the drain `token` can do to the rows. It keeps every row, except
that it may delete one that carries the token. A row that somebody else has locked after it
was locked by him before, with the same payload. No payload appears that was not there. -/
structure DrainFrame (token : Nat) (deleted : Option String) (t t' : QueueTable π) : Prop where
  rows : ∀ m r, t.find m = some r →
    (t'.find m).isSome ∨ (deleted = some m ∧ r.lockToken = some token)
  others : ∀ m r' other, t'.find m = some r' → r'.lockToken = some other → other ≠ token →
    ∃ r, t.find m = some r ∧ r.lockToken = some other ∧ r.payload = r'.payload
  payloads : ∀ m r', t'.find m = some r' → ∃ r, t.find m = some r ∧ r.payload = r'.payload

section Frame

variable {t : QueueTable π} {token : Nat} {f : QueueRow π → QueueRow π} {p : QueueRow π → Bool}

lemma DrainFrame.refl : DrainFrame token none t t := by
  constructor
  · intro m r hr
    left
    rw [hr]
    rfl
  · intro m r' other hr' hother _
    exact ⟨r', hr', hother, rfl⟩
  · intro m r' hr'
    exact ⟨r', hr', rfl⟩

/-- An `UPDATE` that keeps the payload and whose rows carry no new token but the drain's. -/
lemma DrainFrame.update (hf : ∀ r, (f r).matterId = r.matterId)
    (hpayload : ∀ r, (f r).payload = r.payload)
    (htoken : ∀ r other, (f r).lockToken = some other →
      other = token ∨ r.lockToken = some other) :
    DrainFrame token none t (t.update (onRows p f) (key_onRows hf)) := by
  constructor
  · intro m r hr
    left
    rw [Keyed.find_update_onRows hf, hr]
    rfl
  · intro m r' other hr' hother hne
    rw [Keyed.find_update_onRows hf] at hr'
    obtain ⟨r, hr, heq⟩ := Option.map_eq_some_iff.mp hr'
    refine ⟨r, hr, ?_⟩
    by_cases hp : p r
    · rw [if_pos hp] at heq
      subst heq
      rcases htoken r other hother with h | h
      · exact absurd h hne
      · exact ⟨h, (hpayload r).symm⟩
    · rw [if_neg hp] at heq
      subst heq
      exact ⟨hother, rfl⟩
  · intro m r' hr'
    rw [Keyed.find_update_onRows hf] at hr'
    obtain ⟨r, hr, heq⟩ := Option.map_eq_some_iff.mp hr'
    refine ⟨r, hr, ?_⟩
    by_cases hp : p r
    · rw [if_pos hp] at heq
      rw [← heq, hpayload]
    · rw [if_neg hp] at heq
      rw [heq]

lemma find_deleteHeld {mid m : String} {r : QueueRow π} (hr : t.find m = some r) :
    (deleteHeld token mid t).find m = if holdsToken token mid r then none else some r := by
  unfold deleteHeld
  rw [Keyed.find_delete, hr, Option.filter_some]
  cases holdsToken token mid r <;> rfl

lemma find_deleteHeld_some {mid m : String} {r : QueueRow π}
    (h : (deleteHeld token mid t).find m = some r) : t.find m = some r := by
  unfold deleteHeld at h
  rw [Keyed.find_delete] at h
  exact Option.eq_some_of_filter_eq_some h

lemma DrainFrame.delete (mid : String) :
    DrainFrame token (some mid) t (deleteHeld token mid t) := by
  constructor
  · intro m r hr
    rw [find_deleteHeld hr]
    by_cases hheld : holdsToken token mid r
    · right
      simp only [holdsToken, decide_eq_true_eq] at hheld
      refine ⟨?_, hheld.2⟩
      rw [← hheld.1, Keyed.key_of_find hr]
    · left
      rw [if_neg hheld]
      rfl
  · intro m r' other hr' hother _
    exact ⟨r', find_deleteHeld_some hr', hother, rfl⟩
  · intro m r' hr'
    exact ⟨r', find_deleteHeld_some hr', rfl⟩

lemma DrainFrame.lock (settings : DrainSettings) (now : Time) (ids : List String) :
    DrainFrame token none t (lockRows settings token now ids t) := by
  refine .update (matterId_lockRow token now) (fun _ => rfl) ?_
  intro r other hother
  exact .inl (Option.some.inj hother).symm

lemma DrainFrame.fail (mid err : String) (nextRunAt : Option Time) (now : Time) :
    DrainFrame token none t
      (updateHeld token mid (failRow err nextRunAt now) (matterId_failRow err nextRunAt now) t) := by
  refine .update (matterId_failRow err nextRunAt now) (fun _ => rfl) ?_
  intro r other hother
  cases hother

lemma DrainFrame.heartbeat (mid : Option String) (now : Time) :
    DrainFrame token none t (heartbeat token mid now t) :=
  .update (matterId_refreshRow now) (fun _ => rfl) (fun _ _ hother => .inr hother)

end Frame

end IpDocket.Queues
