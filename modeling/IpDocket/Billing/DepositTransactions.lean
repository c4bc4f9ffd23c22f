import IpDocket.Lib.Run
import IpDocket.Billing.DepositLedger

/-!
# Concurrent writers of the retainer ledger

On PostgreSQL `BEGIN IMMEDIATE` is rewritten to `BEGIN`, and transactions are
`READ COMMITTED`: a statement sees the rows committed before it and those of its own
transaction. The model takes every statement of `insert_client_deposit_ledger_entry` as one
step. A transaction makes any number of calls with any arguments, goes on after a call that
was aborted or not, and ends with a commit or a rollback; the requests of the application
(applying and cancelling a retainer, creating, editing, voiding and deleting an invoice) are
such transactions. What the `SELECT` on the invoices returns is an input of the step.

`seen` is a history variable: how many entries had been committed when the balance was read.
-/

namespace IpDocket.Billing
open IpDocket.Lib

/-- The last check of the call that the transaction has passed. -/
inductive CallPhase
  | idle
  | validated (c : EntryCall)
  | invoiceChecked (c : EntryCall)
  | relatedChecked (c : EntryCall)
  | alreadyChecked (c : EntryCall)
  | balanceChecked (c : EntryCall) (seen : Nat)
  deriving DecidableEq

structure OwnEntry where
  entry : LedgerEntry
  seen : Nat
  deriving DecidableEq

structure Transaction where
  own : List OwnEntry := []
  aborted : Bool := false
  phase : CallPhase := .idle
  deriving DecidableEq

structure LedgerState where
  committed : List LedgerEntry
  nextId : Nat
  conns : List Transaction

def LedgerState.initial : LedgerState := ⟨[], 1, []⟩

inductive TransactionAction
  | call (c : EntryCall)
  | selectInvoice (row : Option Invoice)
  | selectRelated
  | selectAlready
  | selectBalance
  | insert
  | insertError
  | commit
  | rollback

/-- `detach` is `ON DELETE SET NULL` for an invoice that was deleted. -/
inductive LedgerAction
  | connect
  | conn (i : Nat) (a : TransactionAction)
  | detach (invoiceId : Nat)

def Transaction.entries (t : Transaction) : List LedgerEntry := t.own.map OwnEntry.entry

/-- The entries that a statement of the transaction sees. -/
def visibleEntries (committed : List LedgerEntry) (t : Transaction) : List LedgerEntry :=
  committed ++ t.entries

/-- A check that fails raises out of the call. -/
def CallPhase.after (next : CallPhase) : Except String Unit → CallPhase
  | .ok _ => next
  | .error _ => .idle

variable (U : UpperTable)

def transactionStep (s : LedgerState) (t : Transaction) :
    TransactionAction → Option (LedgerState × Transaction)
  | .call c =>
    if t.phase = .idle ∧ ¬t.aborted then
      some (s, { t with phase := (CallPhase.validated c).after (validateEntry U c) })
    else none
  | .selectInvoice row =>
    match t.phase with
    | .validated c =>
      some (s, { t with phase := (CallPhase.invoiceChecked c).after (checkInvoice U c row) })
    | _ => none
  | .selectRelated =>
    match t.phase with
    | .invoiceChecked c =>
      let row := (truthy c.relatedEntryId).bind
        (fun k => (visibleEntries s.committed t).find? (fun e => e.id = k))
      some (s, { t with phase := (CallPhase.relatedChecked c).after (checkRelated U c row) })
    | _ => none
  | .selectAlready =>
    match t.phase with
    | .relatedChecked c =>
      let checked := checkAlready c (visibleEntries s.committed t)
      some (s, { t with phase := (CallPhase.alreadyChecked c).after checked })
    | _ => none
  | .selectBalance =>
    match t.phase with
    | .alreadyChecked c =>
      let balBefore := bucketSum (c.bucket U) (visibleEntries s.committed t)
      let next := CallPhase.balanceChecked c s.committed.length
      some (s, { t with phase := next.after (checkBalance c balBefore) })
    | _ => none
  | .insert =>
    match t.phase with
    | .balanceChecked c seen =>
      some ({ s with nextId := s.nextId + 1 },
        { t with own := t.own ++ [⟨c.toEntry U s.nextId, seen⟩], phase := .idle })
    | _ => none
  | .insertError =>
    match t.phase with
    | .balanceChecked _ _ =>
      some ({ s with nextId := s.nextId + 1 }, { t with aborted := true, phase := .idle })
    | _ => none
  | .commit =>
    if t.phase = .idle then
      if t.aborted then some (s, {})
      else some ({ s with committed := s.committed ++ t.entries }, {})
    else none
  | .rollback => some (s, {})

def ledgerStep (s : LedgerState) : LedgerAction → Option LedgerState
  | .connect => some { s with conns := s.conns ++ [{}] }
  | .conn i a =>
    match s.conns[i]? with
    | none => none
    | some t =>
      match transactionStep U s t a with
      | none => none
      | some (s', t') => some { s' with conns := s.conns.set i t' }
  | .detach invoiceId => some { s with committed := s.committed.map (detachInvoice invoiceId) }

end IpDocket.Billing
