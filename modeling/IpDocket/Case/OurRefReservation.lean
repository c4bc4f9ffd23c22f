import IpDocket.Lib.Run
import IpDocket.Case.OurRefScheme

/-!
# Reserving reference numbers

The statements of `generate_next_our_ref(reserve=True)` as steps of sessions that run at the
same time. A session sees what was committed before the statement and its own writes. Its
`UPDATE` of a counter waits for a session that has written the row and not yet committed,
and then compares with the committed value. After six updates that met another value, and
after any error in `_reserve_next_seq`, the number is not reserved.

`stored`, `started` and `returned` are history variables: the references that have been stored
since the call of the session began, the schemes of the calls, and what the calls returned.
-/

namespace IpDocket.Case
open IpDocket.Lib

/-- Where a call is. `row` is the value that was read, `next` the number to reserve. -/
inductive ReservePhase
  | idle
  | started (scheme : OurRefScheme)
  | counted (scheme : OurRefScheme) (maxSeq : Nat)
  | reading (scheme : OurRefScheme) (maxSeq tries : Nat)
  | probing (scheme : OurRefScheme) (maxSeq tries : Nat) (row : Option Nat) (next : Nat)
  | updating (scheme : OurRefScheme) (maxSeq tries : Nat) (row : Option Nat) (next : Nat)
  deriving DecidableEq

/-- A session with the counters and the references that it has written and not committed. -/
structure Session where
  counters : List (Text × Nat) := []
  matters : List Text := []
  stored : List Text := []
  phase : ReservePhase := .idle
  deriving DecidableEq

/-- A call that has returned: its number and the reference that was built from it. -/
structure ReturnedRef where
  scheme : OurRefScheme
  seq : Nat
  ref : Text
  stored : List Text
  deriving DecidableEq

structure NumberingState where
  counters : List (Text × Nat)
  matters : List Text
  sessions : List Session
  started : List OurRefScheme
  returned : List ReturnedRef

/-- Any counters and any references may be there at the beginning. -/
def NumberingState.initial (counters : List (Text × Nat)) (matters : List Text) :
    NumberingState :=
  ⟨counters, matters, [], [], []⟩

inductive SessionAction
  | start (division matterType country : Text) (today : Date)
  | selectRefs
  | insertCounter
  | selectCounter
  | probe
  | updateCounter
  | error
  | save (ref : Text)
  | commit

inductive NumberingAction
  | connect
  | session (i : Nat) (a : SessionAction)
  | remove (ref : Text)

/-- The value of a counter that the session sees. -/
def Session.counter (t : Session) (committed : List (Text × Nat)) (key : Text) : Option Nat :=
  (t.counters.lookup key).or (committed.lookup key)

/-- The references that the session sees. -/
def visibleMatters (s : NumberingState) (t : Session) : List Text := s.matters ++ t.matters

/-- Another session has written the counter and not yet committed. -/
def NumberingState.locked (s : NumberingState) (i : Nat) (key : Text) : Bool :=
  (s.sessions.eraseIdx i).any (fun u => (u.counters.lookup key).isSome)

/-- The scheme and the highest stored number of a call within `_reserve_next_seq`. -/
def ReservePhase.reserving : ReservePhase → Option (OurRefScheme × Nat)
  | .idle => none
  | .started _ => none
  | .counted scheme maxSeq => some (scheme, maxSeq)
  | .reading scheme maxSeq _ => some (scheme, maxSeq)
  | .probing scheme maxSeq _ _ _ => some (scheme, maxSeq)
  | .updating scheme maxSeq _ _ _ => some (scheme, maxSeq)

section Steps

variable (T : UnicodeTables) (config : JsonObject)

/-- The call returns the reference with the number `seq`; it raises if that cannot be built. -/
def returnRef (s : NumberingState) (t : Session) (scheme : OurRefScheme) (seq : Nat) :
    NumberingState × Session :=
  match scheme.build T seq with
  | none => (s, { t with phase := .idle })
  | some ref =>
    ({ s with returned := ⟨scheme, seq, ref, t.stored⟩ :: s.returned }, { t with phase := .idle })

def sessionStep (s : NumberingState) (i : Nat) (t : Session) :
    SessionAction → Option (NumberingState × Session)
  | .start division matterType country today =>
    if t.phase = .idle then
      match buildOurRefScheme T config today division matterType country with
      | .error _ => some (s, t)
      | .ok scheme =>
        some ({ s with started := scheme :: s.started },
          { t with stored := visibleMatters s t, phase := .started scheme })
    else none
  | .selectRefs =>
    match t.phase with
    | .started scheme =>
      let pattern := scheme.sequencePattern.getD scheme.pattern
      let maxSeq := computeMaxOurRefSeq T (visibleMatters s t) scheme.pre pattern
      some (s, { t with phase := .counted scheme maxSeq })
    | _ => none
  | .insertCounter =>
    match t.phase with
    | .counted scheme maxSeq =>
      let key := scheme.counterKey
      if t.counter s.counters key = none then
        -- an uncommitted row of another session decides whether this one is inserted
        if s.locked i key then none
        else some (s, { t with
          counters := (key, maxSeq) :: t.counters
          phase := .reading scheme maxSeq 0 })
      else some (s, { t with phase := .reading scheme maxSeq 0 })
    | _ => none
  | .selectCounter =>
    match t.phase with
    | .reading scheme maxSeq tries =>
      let row := t.counter s.counters scheme.counterKey
      let current := max (row.getD 0) maxSeq
      some (s, { t with phase := .probing scheme maxSeq tries row (current + 1) })
    | _ => none
  | .probe =>
    match t.phase with
    | .probing scheme maxSeq tries row next =>
      match scheme.build T next with
      -- raises within `_reserve_next_seq`: the action `error`
      | none => none
      | some ref =>
        if ref ∈ visibleMatters s t then
          some (s, { t with phase := .probing scheme maxSeq tries row (next + 1) })
        else some (s, { t with phase := .updating scheme maxSeq tries row next })
    | _ => none
  | .updateCounter =>
    match t.phase with
    | .updating scheme maxSeq tries row next =>
      let key := scheme.counterKey
      if s.locked i key then none
      else if t.counter s.counters key = some (row.getD 0) then
        some (returnRef T s { t with counters := (key, next) :: t.counters } scheme next)
      else if tries + 1 < 6 then
        some (s, { t with phase := .reading scheme maxSeq (tries + 1) })
      else some (returnRef T s t scheme (maxSeq + 1))
    | _ => none
  | .error =>
    match t.phase.reserving with
    | some (scheme, maxSeq) =>
      some (returnRef T s { t with counters := [], matters := [] } scheme (maxSeq + 1))
    | none => none
  | .save ref =>
    if t.phase = .idle then some (s, { t with matters := ref :: t.matters }) else none
  | .commit =>
    if t.phase = .idle then
      some ({ s with counters := t.counters ++ s.counters, matters := t.matters ++ s.matters },
        { t with counters := [], matters := [] })
    else none

def numberingStep (s : NumberingState) : NumberingAction → Option NumberingState
  | .connect => some { s with sessions := s.sessions ++ [{}] }
  | .session i a =>
    match s.sessions[i]? with
    | none => none
    | some t =>
      match sessionStep T config s i t a with
      | none => none
      | some (s', t') => some { s' with sessions := s.sessions.set i t' }
  | .remove ref =>
    some { s with
      matters := s.matters.filter (· ≠ ref)
      sessions := s.sessions.map (fun t => { t with stored := t.stored.filter (· ≠ ref) }) }

end Steps

end IpDocket.Case
