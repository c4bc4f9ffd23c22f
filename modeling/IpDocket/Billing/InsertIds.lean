import Mathlib.Data.List.MinMax
import IpDocket.Lib.Run

/-!
# Insert ids on PostgreSQL

`_PrefixedConnection._execute` follows every `INSERT` without `RETURNING` by the statements
of `_postgres_sync_insert_id`: `SELECT MAX(id)`, which becomes `lastrowid`, and a `setval` of
the sequence to it. Connections are in autocommit mode until an explicit `BEGIN`. The model
is one table with its sequence. `nextval` and `setval` take effect at once, a row is seen by
others after its commit, and the statements of different connections come in any order.

`high`, `handed`, `returned` and `failures` are history variables: the highest id a row ever
had, the ids that `nextval` has handed out, the row of every `INSERT` with the `lastrowid`
returned for it, and the number of ids from the sequence that met an existing row.
-/

namespace IpDocket.Billing
open IpDocket.Lib

/-- How an `INSERT` gets its id: from the sequence; given by the statement; from the
sequence, but no row is inserted because of `ON CONFLICT DO NOTHING`; or from the sequence
without the synchronisation (`RETURNING`, `executemany`). -/
inductive InsertKind
  | default
  | explicit (id : Nat)
  | skipped
  | unsynced
  deriving DecidableEq

/-- Where a connection is in an `INSERT`: the row it made and the result of `MAX`. -/
inductive InsertPhase
  | idle
  | inserted (row : Option Nat)
  | selected (row lastId : Option Nat)
  deriving DecidableEq

def InsertPhase.row : InsertPhase → Option Nat
  | .idle => none
  | .inserted row => row
  | .selected row _ => row

/-- A connection with the inserts and deletes of its open transaction. -/
structure Connection where
  own : List Nat := []
  deleted : List Nat := []
  inTransaction : Bool := false
  aborted : Bool := false
  phase : InsertPhase := .idle
  deriving DecidableEq

structure SequenceState where
  last : Nat
  committed : List Nat
  conns : List Connection
  high : Nat
  handed : List Nat
  returned : List (Option Nat × Option Nat)
  failures : Nat

def SequenceState.initial : SequenceState := ⟨0, [], [], 0, [], [], 0⟩

inductive ConnectionAction
  | begin
  | commit
  | rollback
  | insert (kind : InsertKind)
  | delete (id : Nat)
  | selectMax
  | setval
  | selectMaxError
  | setvalError
  | disconnect

inductive SequenceAction
  | connect
  | conn (i : Nat) (a : ConnectionAction)

/-- The ids that the connection sees. -/
def visibleIds (committed : List Nat) (c : Connection) : List Nat :=
  (committed ++ c.own).filter (fun id => id ∉ c.deleted)

/-- The uncommitted rows of the other connections. -/
def SequenceState.otherRows (s : SequenceState) (i : Nat) : List Nat :=
  (s.conns.eraseIdx i).flatMap Connection.own

/-- The table with the row `id` inserted by `c`. -/
def insertRow (s : SequenceState) (c : Connection) (id : Nat) (phase : InsertPhase) :
    SequenceState × Connection :=
  if c.inTransaction then
    ({ s with high := max s.high id },
      { c with own := c.own ++ [id], deleted := c.deleted.filter (· ≠ id), phase := phase })
  else ({ s with high := max s.high id, committed := s.committed ++ [id] }, { c with phase := phase })

/-- An `INSERT` whose id meets a row that is there: the statement fails. -/
def failInsert (s : SequenceState) (c : Connection) : SequenceState × Connection :=
  (s, { c with aborted := c.inTransaction })

def nextval (s : SequenceState) : Nat × SequenceState :=
  (s.last + 1, { s with last := s.last + 1, handed := (s.last + 1) :: s.handed })

/-- An `INSERT` that meets an uncommitted row of another connection waits. -/
def insertStep (s : SequenceState) (others : List Nat) (c : Connection) :
    InsertKind → Option (SequenceState × Connection)
  | .default =>
    let (id, t) := nextval s
    if id ∈ others then none
    else if id ∈ visibleIds s.committed c then
      some (failInsert { t with failures := s.failures + 1 } c)
    else some (insertRow t c id (.inserted (some id)))
  | .explicit id =>
    if id ∈ others then none
    else if id ∈ visibleIds s.committed c then some (failInsert s c)
    else some (insertRow s c id (.inserted (some id)))
  | .skipped => some ((nextval s).2, { c with phase := .inserted none })
  | .unsynced =>
    let (id, t) := nextval s
    if id ∈ others then none
    else if id ∈ visibleIds s.committed c then
      some (failInsert { t with failures := s.failures + 1 } c)
    else some (insertRow t c id .idle)

def endTransaction (c : Connection) : Connection :=
  { c with own := [], deleted := [], inTransaction := false, aborted := false }

/-- What a commit leaves in the table. -/
def commitRows (s : SequenceState) (c : Connection) : List Nat :=
  if c.aborted then s.committed else visibleIds s.committed c

def connectionStep (s : SequenceState) (others : List Nat) (c : Connection) :
    ConnectionAction → Option (SequenceState × Connection)
  | .begin =>
    if c.phase = .idle ∧ ¬c.inTransaction then some (s, { c with inTransaction := true }) else none
  | .commit =>
    if c.phase = .idle ∧ c.inTransaction then
      some ({ s with committed := commitRows s c }, endTransaction c)
    else none
  | .rollback =>
    if c.phase = .idle ∧ c.inTransaction then some (s, endTransaction c) else none
  | .insert kind => if c.phase = .idle ∧ ¬c.aborted then insertStep s others c kind else none
  | .delete id =>
    if c.phase = .idle ∧ ¬c.aborted then
      if c.inTransaction then some (s, { c with deleted := id :: c.deleted })
      else some ({ s with committed := s.committed.filter (· ≠ id) }, c)
    else none
  | .selectMax =>
    match c.phase with
    | .inserted row =>
      some (s, { c with phase := .selected row (visibleIds s.committed c).max? })
    | _ => none
  | .setval =>
    match c.phase with
    | .selected row lastId =>
      some ({ s with last := lastId.getD s.last, returned := (row, lastId) :: s.returned },
        { c with phase := .idle })
    | _ => none
  | .selectMaxError =>
    match c.phase with
    | .inserted row =>
      some ({ s with returned := (row, none) :: s.returned }, { c with phase := .idle })
    | _ => none
  | .setvalError =>
    match c.phase with
    | .selected row lastId =>
      some ({ s with returned := (row, lastId) :: s.returned }, { c with phase := .idle })
    | _ => none
  | .disconnect => some (s, {})

def sequenceStep (s : SequenceState) : SequenceAction → Option SequenceState
  | .connect => some { s with conns := s.conns ++ [{}] }
  | .conn i a =>
    match s.conns[i]? with
    | none => none
    | some c =>
      match connectionStep s (s.otherRows i) c a with
      | none => none
      | some (t, c') => some { t with conns := s.conns.set i c' }

end IpDocket.Billing
