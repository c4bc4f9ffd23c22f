import Mathlib.Data.List.MinMax
import IpDocket.Accounting.Journal

/-!
# Reversing a journal entry, statement by statement

The billing connection is in autocommit mode and `journal_reverse` issues no `BEGIN`: every
statement is committed by itself, `conn.commit()` does nothing, and what was written before a
failure stays. On PostgreSQL the id of the new entry is what `SELECT MAX(id)` returns after
the `INSERT`. The other requests on the books are one step each; ids come from a sequence
that is ahead of the rows.

The row that a call has inserted is kept with it as a history variable (`newId`), next to the
id that it goes on with.
-/

namespace IpDocket.Accounting
open IpDocket.Lib

/-- The next statement of a call. With no lines left, `insertLine` is the `UPDATE` of the
original. -/
inductive ReversePhase
  | selectEntry
  | selectPeriod (e : JournalEntry)
  | selectLines (e : JournalEntry)
  | insertEntry (e : JournalEntry) (values : List LineValues)
  | selectMax (newId : Nat) (values : List LineValues)
  | insertLine (newId reversalId : Nat) (values : List LineValues)
  | done
  deriving DecidableEq

structure ReverseCall where
  entryId : Nat
  reversalDate : Option Date
  today : Date
  reason : Text
  phase : ReversePhase := .selectEntry
  deriving DecidableEq

/-- The entry that the call has inserted and not finished. -/
def ReversePhase.writing : ReversePhase → Option Nat
  | .selectMax newId _ => some newId
  | .insertLine newId _ _ => some newId
  | _ => none

structure ReversalState where
  books : Books
  calls : List ReverseCall

def ReversalState.fresh (profiles : Keyed BusinessProfile.id) (accounts : Keyed Account.id) :
    ReversalState := ⟨.fresh profiles accounts, []⟩

def maxEntryId (b : Books) : Option Nat := (b.entries.rows.map JournalEntry.id).max?

/-- The values of the `INSERT INTO journal_entries`. -/
def reversalEntry (c : ReverseCall) (e : JournalEntry) (id : Nat) : JournalEntry where
  id := id
  entryDate := c.reversalDate.getD c.today
  memo := reversalMemo c.entryId c.reason e.memo
  businessProfileId := if e.businessProfileId = 0 then 1 else e.businessProfileId
  sourceType := .reversal
  sourceId := some c.entryId
  approved := true
  posted := true
  reversalOfEntryId := some c.entryId

lemma id_reversalEntry (c : ReverseCall) (e : JournalEntry) (id : Nat) :
    (reversalEntry c e id).id = id := rfl

def markReversed (reversalId : Nat) (e : JournalEntry) : JournalEntry :=
  { e with reversed := true, reversedByEntryId := some reversalId }

lemma id_markReversed (reversalId : Nat) (e : JournalEntry) :
    (markReversed reversalId e).id = e.id := rfl

variable (U : UpperTable)

/-- One statement. A statement that fails, and a check that does, ends the call. -/
def reverseNext (b : Books) (c : ReverseCall) : Books × ReversePhase :=
  match c.phase with
  | .selectEntry =>
    match b.entries.find c.entryId with
    | none => (b, .done)
    | some e => (b, if journalStatus e = .posted then .selectPeriod e else .done)
  | .selectPeriod e =>
    let date := c.reversalDate.getD c.today
    (b, if (getClosedPeriod b date e.businessProfileId).isSome then .done else .selectLines e)
  | .selectLines e =>
    let lines := linesOf b c.entryId
    (b, if lines.length < 2 then .done
      else .insertEntry e (lines.map (JournalLine.reverse U)))
  | .insertEntry e values =>
    if (b.profiles.find (reversalEntry c e b.entries.next).businessProfileId).isSome then
      ({ b with entries := b.entries.insert (reversalEntry c e) (id_reversalEntry c e) },
        .selectMax b.entries.next values)
    else (b, .done)
  | .selectMax newId values =>
    match maxEntryId b with
    | none => (b, .done)
    | some reversalId => (b, .insertLine newId reversalId values)
  | .insertLine newId reversalId (v :: values) =>
    if (b.accounts.find v.accountId).isSome ∧ (b.entries.find reversalId).isSome then
      ({ b with lines := b.lines.insert (v.line reversalId) (id_line v reversalId) },
        .insertLine newId reversalId values)
    else (b, .done)
  | .insertLine _ reversalId [] =>
    (updateEntries (fun q => q.id = c.entryId) (markReversed reversalId)
      (id_markReversed reversalId) b, .done)
  | .done => (b, .done)

/-- `fail` is an error of a statement, or the end of the process. -/
inductive ReversalAction
  | reverse (entryId : Nat) (reversalDate : Option Date) (today : Date) (reason : Text)
  | next (i : Nat)
  | fail (i : Nat)
  | request (r : LedgerRequest)

def reversalStep (s : ReversalState) : ReversalAction → Option ReversalState
  | .reverse entryId date today reason =>
    some { s with calls := s.calls ++ [⟨entryId, date, today, reason, .selectEntry⟩] }
  | .next i =>
    match s.calls[i]? with
    | none => none
    | some c =>
      let (b, phase) := reverseNext U s.books c
      some ⟨b, s.calls.set i { c with phase := phase }⟩
  | .fail i =>
    match s.calls[i]? with
    | none => none
    | some c => some { s with calls := s.calls.set i { c with phase := .done } }
  | .request (.journalReverse _ _ _ _) => none
  | .request r => (ledgerStep U s.books r).map (fun b => { s with books := b })

/-- Some call has inserted the entry `id` and has not finished. -/
def ReversalState.beingWritten (s : ReversalState) (id : Nat) : Prop :=
  ∃ c ∈ s.calls, c.phase.writing = some id
  deriving Decidable

/-- Some call is writing a reversal of the entry. -/
def ReversalState.beingReversed (s : ReversalState) (entryId : Nat) : Prop :=
  ∃ c ∈ s.calls, c.entryId = entryId ∧ c.phase.writing.isSome = true
  deriving Decidable

/-- Calls do not get into each other's way. A call that has inserted its entry does not fail;
the lines it reads are not those of a reversal that is being written; when it inserts its
entry, the original is not reversed yet and no other call is about to do so; and when it asks
for the highest id, nobody has inserted another entry since. -/
def reversesAlone (s : ReversalState) : ReversalAction → Bool
  | .next i =>
    (s.calls[i]?).all (fun c =>
      match c.phase with
      | .selectLines _ => ¬s.beingWritten c.entryId
      | .insertEntry _ _ =>
        (s.books.entries.find c.entryId).all (fun e => e.reversed = false) ∧
          ¬s.beingReversed c.entryId
      | .selectMax newId _ => maxEntryId s.books = some newId
      | _ => true)
  | .fail i => (s.calls[i]?).all (fun c => c.phase.writing = none)
  | _ => true

end IpDocket.Accounting
