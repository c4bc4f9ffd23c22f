import Mathlib.Data.List.Sort
import IpDocket.Billing.DepositTransactions
import IpDocket.Billing.DepositRequests

/-!
# Applying and cancelling retainers, statement by statement

`apply_deposit` reads the invoice, the sum of its applications and two balances before its
`BEGIN`; what it applies is fixed by then. `cancel_deposit_apply`, voiding and deleting read
what there is to cancel and call `insert_client_deposit_ledger_entry` for each application.
Here a request is the list of the statements it still has to run, and the calls are those of
the concurrent writers: every `next` is one statement of one request, which sees the rows
committed before it and those of its own transaction. Locks and foreign keys are left out;
they only take runs away.

`seen` and `alreadyAt` are history variables: how many entries had been committed when the
sum of the invoice was read, and when an application was last found without a cancellation.
-/

namespace IpDocket.Billing
open IpDocket.Lib

/-- `payment` is an `UPDATE` that leaves the billing status of the row alone. -/
inductive InvoiceWrite
  | status (invoiceId : Nat) (billing : BillingStatus) (payment : PaymentStatus) (verified : Bool)
  | payment (invoiceId : Nat) (payment : PaymentStatus) (verified : Bool)
  | delete (invoiceId : Nat)

def Invoice.withPayment (payment : PaymentStatus) (verified : Bool) (inv : Invoice) : Invoice :=
  inv.withStatus inv.billingStatus payment verified

def InvoiceWrite.run (invoices : Table Invoice.id) : InvoiceWrite → Table Invoice.id
  | .status id billing paymentStatus verified =>
    invoices.update
      (onRows (fun inv => inv.id = id) (Invoice.withStatus billing paymentStatus verified))
      (key_onRows (fun _ => rfl))
  | .payment id paymentStatus verified =>
    invoices.update (onRows (fun inv => inv.id = id) (Invoice.withPayment paymentStatus verified))
      (key_onRows (fun _ => rfl))
  | .delete id => invoices.delete id

/-- What the write does to the entries of the ledger: `ON DELETE SET NULL`. -/
def InvoiceWrite.detach (entries : List LedgerEntry) : InvoiceWrite → List LedgerEntry
  | .delete id => entries.map (detachInvoice id)
  | _ => entries

/-- The checks after the `SELECT` of the invoice. -/
def checkApplicable (inv : Invoice) : Except String Unit := do
  check (inv.billingStatus ≠ .void) "Retainer deposits are not available for void invoices."
  check (inv.paymentVerified = false) "Payment verification is already complete for this invoice."

/-- What is outstanding and what is requested of it, with the sum of the applications and
cancellations. -/
def requestedDeposit (sumMinor : Int) (inv : Invoice) (amount : AmountField) :
    Except String (Int × Int) := do
  let alreadyApplied := max 0 (-sumMinor)
  let outstanding := max 0 (inv.totalMinor - alreadyApplied)
  check (0 < outstanding) " Paid Invoice."
  let req ← amount.requested outstanding "Amount is invalid."
  check (0 < req) "Amount is invalid."
  return (outstanding, min req outstanding)

/-- How much is taken from which balance. -/
def splitDeposit (amount : AmountField) (outstanding req balBp balGlobal : Int) :
    Except String DepositPlan := do
  let available := balBp + balGlobal
  let req := if amount = .blank then min req available else req
  check (req ≤ available) "Retainer balance ."
  check (0 < req) "Retainer balance ."
  let useBp := min req balBp
  let useGlobal := req - useBp
  check (useGlobal ≤ balGlobal) "Retainer balance ."
  return ⟨useBp, useGlobal, outstanding - req⟩

variable (U : UpperTable)

def Invoice.depositCurrency (inv : Invoice) : Text := stripUpper U (currencyOrDefault inv.currency)

/-- The bucket of the business profile of the invoice. -/
def Invoice.profileBucket (inv : Invoice) : Bucket :=
  ⟨some (profileOrDefault inv.businessProfileId), inv.clientId, stripUpper U (inv.depositCurrency U)⟩

/-- `cancelInvoice`, `cancelTarget` and `cancelSum` belong to `cancel_deposit_apply`; the loop
of `apply_bulk_invoice_status_update` goes on at `resume` after an exception. -/
inductive Statement
  | cancelInvoice (invoiceId entryId : Nat)
  | cancelTarget (inv : Invoice) (entryId : Nat)
  | cancelSum (inv : Invoice)
  | voidInvoice (invoiceId : Nat)
  | bulkVoidInvoice (invoiceId : Nat)
  | deleteInvoice (invoiceId : Nat) (skipMissing : Bool)
  | selectApplies (invoiceId : Nat)
  | call (c : EntryCall)
  | write (w : InvoiceWrite)
  | resume

def Statement.isResume : Statement → Bool
  | .resume => true
  | _ => false

/-- What a statement leads to: statements to run next, statements to run at the end, and a
write to the invoices. -/
structure Effect where
  next : List Statement := []
  last : List Statement := []
  writes : List InvoiceWrite := []

def selectInvoice (invoices : Table Invoice.id) (id : Nat) : Except String Invoice :=
  match invoices.find id with
  | some inv => .ok inv
  | none => .error "404"

/-- The changes to `void` that `_BILLING_TRANSITIONS` allows. -/
def billingVoidAllowed : BillingStatus → Bool
  | .draft => true
  | .sent => true
  | .preOverdue => true
  | .void => true
  | _ => false

/-- The call of `cancel_deposit_apply` for the application `a` to the invoice. -/
def cancelApplyCall (inv : Invoice) (a : LedgerEntry) (entryId : Nat) : EntryCall where
  businessProfileId := a.businessProfileId
  clientId := inv.clientId
  currency := inv.depositCurrency U
  amountMinor := -a.amountMinor
  entryType := .cancelApply
  relatedInvoiceId := some inv.id
  relatedEntryId := some entryId

/-- The applications that `cancel_uncanceled_deposit_applies_for_invoice` cancels. -/
def cancelCalls (entries : List LedgerEntry) (invoiceId : Nat) : List EntryCall :=
  let rows := (uncanceledApplies entries invoiceId).insertionSort (fun a b => a.id ≤ b.id)
  (rows.filter (fun a => stripUpper U a.currency ≠ [] ∧ 0 < -a.amountMinor)).map
    (cancelCall U invoiceId)

/-- A statement that is no call, with the rows it sees. -/
def Statement.run (entries : List LedgerEntry) (invoices : Table Invoice.id) :
    Statement → Except String Effect
  | .cancelInvoice invoiceId entryId => do
    let inv ← selectInvoice invoices invoiceId
    return { next := [.cancelTarget inv entryId] }
  | .cancelTarget inv entryId =>
    match entries.find? (fun e =>
      e.id = entryId ∧ e.entryType = .apply ∧ e.relatedInvoiceId = some inv.id) with
    | none => .error "Cancel target not found."
    | some a => do
      check (0 < -a.amountMinor) "Cancel target Amount is invalid."
      return { next := [.call (cancelApplyCall U inv a entryId), .cancelSum inv] }
  | .cancelSum inv =>
    let nowApplied := max 0 (-invoiceSum entries inv.id)
    let newOutstanding := max 0 (inv.totalMinor - nowApplied)
    let paid : Bool := newOutstanding ≤ 0 ∧ 0 < inv.totalMinor
    .ok { next := [.write (.payment inv.id (if paid then .paid else .pending)
      (paid ∧ 0 < nowApplied))] }
  | .voidInvoice invoiceId => do
    let inv ← selectInvoice invoices invoiceId
    check (voidAllowed inv.status) " Invoice status ."
    return { next := [.selectApplies invoiceId, .write (.status invoiceId .void .none false)] }
  | .bulkVoidInvoice invoiceId =>
    match invoices.find invoiceId with
    | none => .ok {}
    | some inv =>
      if billingVoidAllowed inv.billingStatus then
        .ok { next := [.selectApplies invoiceId, .write (.status invoiceId .void .none false),
          .resume] }
      else .ok {}
  | .deleteInvoice invoiceId skipMissing =>
    match invoices.find invoiceId with
    | none => if skipMissing then .ok {} else .error "Invoice not found"
    | some inv => do
      ensureInvoiceDeletable inv
      return { last := [.selectApplies invoiceId, .write (.delete invoiceId)] }
  | .selectApplies invoiceId => .ok { next := (cancelCalls U entries invoiceId).map .call }
  | .write w => .ok { writes := [w] }
  | .call _ => .ok {}
  | .resume => .ok {}

/-- The invoice whose applications were summed up, and when. -/
structure SumRead where
  invoiceId : Nat
  seen : Nat

/-- `applyInvoice` to `applyOffice` are the reads of `apply_deposit` before its `BEGIN`. -/
inductive Task
  | applyInvoice (invoiceId : Nat) (amount : AmountField)
  | applySum (inv : Invoice) (amount : AmountField)
  | applyProfile (inv : Invoice) (amount : AmountField) (outstanding req : Int) (seen : Nat)
  | applyOffice (inv : Invoice) (amount : AmountField) (outstanding req balBp : Int) (seen : Nat)
  | running (read : Option SumRead) (todo : List Statement)
  | done

structure Request where
  task : Task
  tx : Transaction := {}
  writes : List InvoiceWrite := []
  alreadyAt : Nat → Nat := fun _ => 0

def Request.ended : Request where
  task := .done

inductive ProgramRequest
  | applyDeposit (invoiceId : Nat) (amount : AmountField)
  | cancelDepositApply (invoiceId entryId : Nat)
  | voidInvoice (invoiceId : Nat)
  | bulkVoidInvoices (ids : List Nat)
  | deleteInvoices (ids : List Nat) (skipMissing : Bool)
  | topup (businessProfileId : Option Nat) (clientId : Nat) (currency : Text) (amount : Int)
  | refund (businessProfileId : Option Nat) (clientId : Nat) (currency : Text) (amount : Int)
  | adjust (businessProfileId : Option Nat) (clientId : Nat) (currency : Text) (amount : Int)

/-- The call of a request on the page of a client. -/
def depositCall (businessProfileId : Option Nat) (clientId : Nat) (currency : Text)
    (amountMinor : Int) (entryType : EntryType) : EntryCall where
  businessProfileId := businessProfileId
  clientId := clientId
  currency := stripUpper U currency
  amountMinor := amountMinor
  entryType := entryType

def ProgramRequest.start : ProgramRequest → Except String Task
  | .applyDeposit invoiceId amount => .ok (.applyInvoice invoiceId amount)
  | .cancelDepositApply invoiceId entryId => .ok (.running none [.cancelInvoice invoiceId entryId])
  | .voidInvoice invoiceId => .ok (.running none [.voidInvoice invoiceId])
  | .bulkVoidInvoices ids => .ok (.running none (ids.map .bulkVoidInvoice))
  | .deleteInvoices ids skipMissing =>
    .ok (.running none (ids.eraseDups.map (fun id => .deleteInvoice id skipMissing)))
  | .topup bp clientId currency amount => do
    check (0 < amount) " Amount 0 ."
    return .running none [.call (depositCall U bp clientId currency amount .topup)]
  | .refund bp clientId currency amount => do
    check (0 < amount.natAbs) " Amount 0 ."
    return .running none [.call (depositCall U bp clientId currency (-amount.natAbs) .refund)]
  | .adjust bp clientId currency amount => do
    check (amount ≠ 0) " Amount 0  not available."
    return .running none [.call (depositCall U bp clientId currency amount .adjust)]

structure ProgramState where
  committed : List LedgerEntry
  nextId : Nat
  invoices : Table Invoice.id
  requests : List Request

def ProgramState.initial : ProgramState := ⟨[], 1, .empty _, []⟩

/-- The ledger and the transactions on it. -/
def ProgramState.ledger (s : ProgramState) : LedgerState :=
  ⟨s.committed, s.nextId, s.requests.map Request.tx⟩

/-- An exception leaves the statements up to the next `resume` out; without one the request
ends with a rollback. -/
def Request.abort (r : Request) : Request :=
  match r.task with
  | .running read todo =>
    match todo.dropWhile (fun st => ¬st.isResume) with
    | [] => .ended
    | _ :: rest => { r with task := .running read rest }
  | _ => .ended

/-- The result of a read before `BEGIN`. -/
def Request.onRead (r : Request) : Except String Task → Request
  | .ok task => { r with task := task }
  | .error _ => .ended

/-- The calls and the `UPDATE` of `apply_deposit` after its `BEGIN`. -/
def applyStatements (inv : Invoice) (plan : DepositPlan) : List Statement :=
  let bp := profileOrDefault inv.businessProfileId
  let currency := inv.depositCurrency U
  let payment : PaymentStatus := if plan.newOutstanding ≤ 0 then .paid else .pending
  (if 0 < plan.useBp then
    [.call (applyCall (some bp) inv.clientId currency plan.useBp inv.id)] else []) ++
  (if 0 < plan.useGlobal then
    [.call (applyCall none inv.clientId currency plan.useGlobal inv.id)] else []) ++
  [.write (if inv.billingStatus = .draft then
      .status inv.id .sent payment (plan.newOutstanding ≤ 0)
    else .payment inv.id payment (plan.newOutstanding ≤ 0))]

/-- The call is a cancellation of the entry `k`. -/
def EntryCall.cancels (c : EntryCall) (k : Nat) : Bool :=
  c.entryType = .cancelApply ∧ truthy c.relatedEntryId = some k

/-- When the entries were last found without a cancellation, after the check for the call. -/
def Request.noteAlready (r : Request) (seen k : Nat) : Nat :=
  match r.tx.phase with
  | .relatedChecked c => if c.cancels k then seen else r.alreadyAt k
  | _ => r.alreadyAt k

/-- The request after a statement of a call, which leaves its transaction as `t`. A check that
failed has ended the call. -/
def Request.afterCall (r : Request) (seen : Nat) (t : Transaction) : TransactionAction → Request
  | .insert => { r with tx := t }
  | .selectAlready =>
    if t.phase = .idle then { r with tx := t }.abort
    else { r with tx := t, alreadyAt := r.noteAlready seen }
  | _ => if t.phase = .idle then { r with tx := t }.abort else { r with tx := t }

def callStep (s : ProgramState) (r : Request) (a : TransactionAction) :
    Option (ProgramState × Request) :=
  match transactionStep U s.ledger r.tx a with
  | none => none
  | some (l, t) => some ({ s with nextId := l.nextId }, r.afterCall s.committed.length t a)

/-- The next statement of the call in progress. -/
def CallPhase.statement (invoices : Table Invoice.id) : CallPhase → Option TransactionAction
  | .idle => none
  | .validated c => some (.selectInvoice ((truthy c.relatedInvoiceId).bind invoices.find))
  | .invoiceChecked _ => some .selectRelated
  | .relatedChecked _ => some .selectAlready
  | .alreadyChecked _ => some .selectBalance
  | .balanceChecked _ _ => some .insert

/-- The commit makes the entries and the writes to the invoices visible. -/
def commitStep (s : ProgramState) (r : Request) : Option (ProgramState × Request) :=
  match transactionStep U s.ledger r.tx .commit with
  | none => none
  | some (l, _) =>
    if r.tx.aborted then some (s, .ended)
    else some ({ s with
      committed := r.writes.foldl InvoiceWrite.detach l.committed
      invoices := r.writes.foldl InvoiceWrite.run s.invoices }, .ended)

/-- The next statement of a request that is in no call. -/
def taskStep (s : ProgramState) (r : Request) : Option (ProgramState × Request) :=
  let entries := visibleEntries s.committed r.tx
  let invoices := r.writes.foldl InvoiceWrite.run s.invoices
  match r.task with
  | .applyInvoice invoiceId amount =>
    some (s, r.onRead (do
      let inv ← selectInvoice invoices invoiceId
      checkApplicable inv
      return .applySum inv amount))
  | .applySum inv amount =>
    some (s, r.onRead (do
      let (outstanding, req) ← requestedDeposit (invoiceSum entries inv.id) inv amount
      return .applyProfile inv amount outstanding req s.committed.length))
  | .applyProfile inv amount outstanding req seen =>
    some (s, r.onRead (do
      let bp := profileOrDefault inv.businessProfileId
      let currency := inv.depositCurrency U
      let balBp ← getClientDepositBalanceMinor U entries (some bp) inv.clientId currency
      return .applyOffice inv amount outstanding req balBp seen))
  | .applyOffice inv amount outstanding req balBp seen =>
    some (s, r.onRead (do
      let currency := inv.depositCurrency U
      let balGlobal ← getClientDepositBalanceMinor U entries none inv.clientId currency
      let plan ← splitDeposit amount outstanding req balBp balGlobal
      return .running (some ⟨inv.id, seen⟩) (applyStatements U inv plan)))
  | .running _ [] => commitStep U s r
  | .running read (.call c :: todo) =>
    callStep U s { r with task := .running read todo } (.call c)
  | .running read (st :: todo) =>
    match st.run U entries invoices with
    | .ok effect =>
      some (s, { r with
        task := .running read (effect.next ++ todo ++ effect.last)
        writes := r.writes ++ effect.writes })
    | .error _ => some (s, { r with task := .running read todo }.abort)
  | .done => none

def requestNext (s : ProgramState) (r : Request) : Option (ProgramState × Request) :=
  match r.tx.phase.statement (r.writes.foldl InvoiceWrite.run s.invoices) with
  | some a => callStep U s r a
  | none => taskStep U s r

/-- An `INSERT` that fails, after it has taken its id, ends the request with a rollback; so
does a lost connection. `createInvoice` is a new invoice without a retainer and
`statusColumns` any other request that changes the status columns of an invoice only. -/
inductive ProgramAction
  | request (r : ProgramRequest)
  | next (i : Nat)
  | insertError (i : Nat)
  | disconnect (i : Nat)
  | createInvoice (form : InvoiceForm)
  | statusColumns (invoiceId : Nat) (billing : BillingStatus) (payment : PaymentStatus)
      (verified : Bool)

def programStep (s : ProgramState) : ProgramAction → Option ProgramState
  | .request r =>
    match r.start U with
    | .ok task => some { s with requests := s.requests ++ [{ task := task }] }
    | .error _ => some s
  | .next i =>
    match s.requests[i]? with
    | none => none
    | some r =>
      match requestNext U s r with
      | none => none
      | some (s', r') => some { s' with requests := s.requests.set i r' }
  | .insertError i =>
    match s.requests[i]? with
    | none => none
    | some r =>
      match transactionStep U s.ledger r.tx .insertError with
      | none => none
      | some (l, _) =>
        some { s with nextId := l.nextId, requests := s.requests.set i .ended }
  | .disconnect i => some { s with requests := s.requests.set i .ended }
  | .createInvoice form =>
    some { s with
      invoices := s.invoices.insert (form.toInvoice form.statusCode) (fun _ => rfl) }
  | .statusColumns invoiceId billing payment verified =>
    some { s with
      invoices := (InvoiceWrite.status invoiceId billing payment verified).run s.invoices }

end IpDocket.Billing
