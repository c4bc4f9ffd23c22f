import IpDocket.Lib.Run
import IpDocket.Billing.DepositLedger

/-!
# Requests on invoices and their retainers

The requests that write to `client_deposit_ledger` or to the columns of `invoices` that a
ledger entry is checked against. A request is one transaction here: what it aborts with is
rolled back. The exceptions are as in the source: an invoice stays when its retainer could
not be applied at creation, and an edit swallows whatever goes wrong with its retainer.
-/

namespace IpDocket.Billing
open IpDocket.Lib

structure DepositDb where
  invoices : Table Invoice.id
  ledger : Table LedgerEntry.id

def DepositDb.empty : DepositDb := ⟨.empty _, .empty _⟩

structure EntryResult where
  entryId : Nat
  balanceBeforeMinor : Int
  balanceAfterMinor : Int
  deriving DecidableEq

/-- An entry of the list that a cancellation returns for the audit log. -/
structure CanceledEntry where
  applyEntryId : Nat
  bucket : Bucket
  amountMinor : Int
  relatedInvoiceId : Nat
  result : EntryResult
  deriving DecidableEq

/-- `amount_minor` over the applications and cancellations of an invoice. -/
def invoiceSum (entries : List LedgerEntry) (invoiceId : Nat) : Int :=
  ((entries.filter (fun e => e.relatedInvoiceId = some invoiceId ∧
    (e.entryType = .apply ∨ e.entryType = .cancelApply))).map LedgerEntry.amountMinor).sum

/-- The applications to the invoice without a cancellation, in the order of their ids. -/
def uncanceledApplies (entries : List LedgerEntry) (invoiceId : Nat) : List LedgerEntry :=
  entries.filter (fun a => a.relatedInvoiceId = some invoiceId ∧ a.entryType = .apply ∧
    isCanceled entries a.id = false)

section Ledger

variable (U : UpperTable)

/-- `insert_client_deposit_ledger_entry` within one transaction. -/
def insertEntry (db : DepositDb) (c : EntryCall) : Except String (DepositDb × EntryResult) := do
  validateEntry U c
  checkInvoice U c ((truthy c.relatedInvoiceId).bind db.invoices.find)
  checkRelated U c ((truthy c.relatedEntryId).bind db.ledger.find)
  checkAlready c db.ledger.rows
  let balBefore := bucketSum (c.bucket U) db.ledger.rows
  checkBalance c balBefore
  return ({ db with ledger := db.ledger.insert (c.toEntry U) (c.id_toEntry U) },
    ⟨db.ledger.next, balBefore, balBefore + c.amountMinor⟩)

def cancelCall (invoiceId : Nat) (a : LedgerEntry) : EntryCall where
  businessProfileId := a.businessProfileId
  clientId := a.clientId
  currency := stripUpper U a.currency
  amountMinor := -a.amountMinor
  entryType := .cancelApply
  relatedInvoiceId := some invoiceId
  relatedEntryId := some a.id

/-- The loop over the selected applications. -/
def cancelApplies (invoiceId : Nat) :
    DepositDb → List LedgerEntry → Except String (DepositDb × List CanceledEntry)
  | db, [] => .ok (db, [])
  | db, a :: as =>
    if stripUpper U a.currency = [] ∨ -a.amountMinor ≤ 0 then cancelApplies invoiceId db as
    else do
      let call := cancelCall U invoiceId a
      let (db, result) ← insertEntry U db call
      let (db, out) ← cancelApplies invoiceId db as
      return (db, ⟨a.id, call.bucket U, call.amountMinor, invoiceId, result⟩ :: out)

def cancelUncanceledDepositAppliesForInvoice (db : DepositDb) (invoiceId : Nat) :
    Except String (DepositDb × List CanceledEntry) :=
  cancelApplies U invoiceId db (uncanceledApplies db.ledger.rows invoiceId)

/-- An application to the invoice from the bucket of the profile, and one from the bucket of
the whole office, as far as they are needed. -/
def applyCall (businessProfileId : Option Nat) (clientId : Nat) (currency : Text) (amount : Int)
    (invoiceId : Nat) : EntryCall :=
  { businessProfileId := businessProfileId, clientId := clientId, currency := currency,
    amountMinor := -amount, entryType := .apply, relatedInvoiceId := some invoiceId }

def applyUse (db : DepositDb) (call : EntryCall) : Except String DepositDb :=
  if 0 < -call.amountMinor then do
    let (db, _) ← insertEntry U db call
    return db
  else .ok db

end Ledger

/-- `_compute_billing_payment_from_status`; `none` is a text that is no status. -/
def computeBillingPaymentFromStatus (status : Option LegacyStatus) (verified : Bool) :
    BillingStatus × PaymentStatus :=
  let billing := match status with
    | some .draft => BillingStatus.draft
    | some .sent => .sent
    | some .void => .void
    | some .taxIssued => .taxIssued
    | some .cashIssued => .cashIssued
    | some .processed => .processed
    | some .preOverdue => .preOverdue
    | some .paymentPending => .sent
    | some .paid => .sent
    | none => .draft
  let payment := match status with
    | some .paid => PaymentStatus.paid
    | some .paymentPending => .pending
    | some .preOverdue => .pending
    | some .void => .none
    | _ => .unpaid
  (billing, if verified ∧ billing ≠ .void then .paid else payment)

/-- `_derive_legacy_status_from_split`, where `void` and `none` imply each other. -/
def deriveLegacyStatusFromSplit : BillingStatus → PaymentStatus → LegacyStatus
  | .void, _ => .void
  | _, .none => .void
  | .draft, _ => .draft
  | .taxIssued, _ => .taxIssued
  | .cashIssued, _ => .cashIssued
  | .processed, _ => .processed
  | .preOverdue, _ => .preOverdue
  | .sent, .paid => .paid
  | .sent, .pending => .paymentPending
  | .sent, .unpaid => .sent

/-- The status changes to `void` that `_STATUS_TRANSITIONS` allows. -/
def voidAllowed : LegacyStatus → Bool
  | .draft => true
  | .sent => true
  | .paymentPending => true
  | .preOverdue => true
  | .void => true
  | _ => false

def BillingStatus.finalized : BillingStatus → Bool
  | .taxIssued => true
  | .cashIssued => true
  | .processed => true
  | _ => false

def LegacyStatus.finalized : LegacyStatus → Bool
  | .taxIssued => true
  | .cashIssued => true
  | .processed => true
  | _ => false

def Invoice.withStatus (billing : BillingStatus) (payment : PaymentStatus) (verified : Bool)
    (inv : Invoice) : Invoice :=
  { inv with
    billingStatus := billing
    paymentStatus := payment
    paymentVerified := verified
    status := deriveLegacyStatusFromSplit billing payment }

/-- An `UPDATE` of the invoice `id`. -/
def DepositDb.updateInvoice (db : DepositDb) (id : Nat) (f : Invoice → Invoice)
    (hf : ∀ inv, (f inv).id = inv.id) : DepositDb where
  invoices := db.invoices.update (onRows (fun inv => inv.id = id) f) (key_onRows hf)
  ledger := db.ledger

lemma find_updateInvoice (db : DepositDb) (id k : Nat) (f : Invoice → Invoice)
    (hf : ∀ inv, (f inv).id = inv.id) :
    (db.updateInvoice id f hf).invoices.find k =
      if k = id then (db.invoices.find k).map f else db.invoices.find k :=
  Table.find_update_key hf

def DepositDb.setStatus (db : DepositDb) (id : Nat) (billing : BillingStatus)
    (payment : PaymentStatus) (verified : Bool) : DepositDb :=
  db.updateInvoice id (Invoice.withStatus billing payment verified) (fun _ => rfl)

def findInvoice (db : DepositDb) (id : Nat) : Except String Invoice :=
  match db.invoices.find id with
  | some inv => .ok inv
  | none => .error "404"

/-! ### Applying and cancelling a retainer -/

/-- An amount in a form: empty, a text that cannot be parsed, or an amount. -/
inductive AmountField
  | blank
  | invalid
  | minor (n : Int)
  deriving DecidableEq

def AmountField.requested (outstanding : Int) (text : String) : AmountField → Except String Int
  | .blank => .ok outstanding
  | .invalid => .error text
  | .minor n => .ok n.natAbs

/-- How much is taken from the profile and from the office, and what is left to pay. -/
structure DepositPlan where
  useBp : Int
  useGlobal : Int
  newOutstanding : Int
  deriving DecidableEq

/-- `currency or "USD"`. -/
def currencyOrDefault : Option Text → Text
  | none => "USD".toList
  | some [] => "USD".toList
  | some currency => currency

section Handlers

variable (U : UpperTable)

def applyDepositPlan (entries : List LedgerEntry) (inv : Invoice) (amount : AmountField) :
    Except String DepositPlan := do
  check (inv.billingStatus ≠ .void) "Retainer deposits are not available for void invoices."
  check (inv.paymentVerified = false) "Payment verification is already complete for this invoice."
  let currency := stripUpper U (currencyOrDefault inv.currency)
  let alreadyApplied := max 0 (-invoiceSum entries inv.id)
  let outstanding := max 0 (inv.totalMinor - alreadyApplied)
  check (0 < outstanding) " Paid Invoice."
  let req ← amount.requested outstanding "Amount is invalid."
  check (0 < req) "Amount is invalid."
  let req := min req outstanding
  let bp := profileOrDefault inv.businessProfileId
  let balBp ← getClientDepositBalanceMinor U entries (some bp) inv.clientId currency
  let balGlobal ← getClientDepositBalanceMinor U entries none inv.clientId currency
  let available := balBp + balGlobal
  let req := if amount = .blank then min req available else req
  check (req ≤ available) "Retainer balance ."
  check (0 < req) "Retainer balance ."
  let useBp := min req balBp
  let useGlobal := req - useBp
  check (useGlobal ≤ balGlobal) "Retainer balance ."
  return ⟨useBp, useGlobal, outstanding - req⟩

def applyDeposit (db : DepositDb) (invoiceId : Nat) (amount : AmountField) :
    Except String DepositDb := do
  let inv ← findInvoice db invoiceId
  let plan ← applyDepositPlan U db.ledger.rows inv amount
  let bp := profileOrDefault inv.businessProfileId
  let currency := stripUpper U (currencyOrDefault inv.currency)
  let db ← applyUse U db (applyCall (some bp) inv.clientId currency plan.useBp invoiceId)
  let db ← applyUse U db (applyCall none inv.clientId currency plan.useGlobal invoiceId)
  let billing := if inv.billingStatus = .draft then .sent else inv.billingStatus
  let payment := if plan.newOutstanding ≤ 0 then .paid else .pending
  return db.setStatus invoiceId billing payment (plan.newOutstanding ≤ 0)

/-- The application to cancel: `WHERE id=? AND entry_type='apply' AND related_invoice_id=?`. -/
def findApply (db : DepositDb) (entryId invoiceId : Nat) : Except String LedgerEntry :=
  match db.ledger.find entryId with
  | none => .error "Cancel target not found."
  | some a =>
    if a.entryType = .apply ∧ a.relatedInvoiceId = some invoiceId then .ok a
    else .error "Cancel target not found."

def cancelDepositApply (db : DepositDb) (invoiceId entryId : Nat) : Except String DepositDb := do
  let inv ← findInvoice db invoiceId
  let a ← findApply db entryId invoiceId
  check (0 < -a.amountMinor) "Cancel target Amount is invalid."
  let (db, _) ← insertEntry U db
    { businessProfileId := a.businessProfileId, clientId := inv.clientId,
      currency := stripUpper U (currencyOrDefault inv.currency), amountMinor := -a.amountMinor,
      entryType := .cancelApply, relatedInvoiceId := some invoiceId, relatedEntryId := some entryId }
  let nowApplied := max 0 (-invoiceSum db.ledger.rows invoiceId)
  let newOutstanding := max 0 (inv.totalMinor - nowApplied)
  let paid : Bool := newOutstanding ≤ 0 ∧ 0 < inv.totalMinor
  return db.setStatus invoiceId inv.billingStatus (if paid then .paid else .pending)
    (paid ∧ 0 < nowApplied)

/-- `topup`, `refund` and `adjust` on the page of a client. -/
def clientDeposit (db : DepositDb) (businessProfileId : Option Nat) (clientId : Nat)
    (currency : Text) (amountMinor : Int) (entryType : EntryType) : Except String DepositDb := do
  let (db, _) ← insertEntry U db
    { businessProfileId := businessProfileId, clientId := clientId,
      currency := stripUpper U currency, amountMinor := amountMinor, entryType := entryType }
  return db

def clientDepositTopup (db : DepositDb) (businessProfileId : Option Nat) (clientId : Nat)
    (currency : Text) (amount : Int) : Except String DepositDb := do
  check (0 < amount) " Amount 0 ."
  clientDeposit U db businessProfileId clientId currency amount .topup

def clientDepositRefund (db : DepositDb) (businessProfileId : Option Nat) (clientId : Nat)
    (currency : Text) (amount : Int) : Except String DepositDb := do
  check (0 < amount.natAbs) " Amount 0 ."
  clientDeposit U db businessProfileId clientId currency (-amount.natAbs) .refund

def clientDepositAdjust (db : DepositDb) (businessProfileId : Option Nat) (clientId : Nat)
    (currency : Text) (amount : Int) : Except String DepositDb := do
  check (amount ≠ 0) " Amount 0  not available."
  clientDeposit U db businessProfileId clientId currency amount .adjust

/-- The fields of the form that matter for the header and the retainer; `currency` is that of
the profile, or `"USD"`, and `deposit` the amount to apply if `use_deposit` is set. -/
structure InvoiceForm where
  clientId : Nat
  businessProfileId : Nat
  currency : Text
  totalMinor : Int
  statusCode : Option LegacyStatus
  deposit : Option AmountField
  deriving DecidableEq

/-- The requested amount and the status after it, which is `sent` instead of `draft`. -/
def validateDepositRequest (entries : List LedgerEntry) (form : InvoiceForm) :
    Except String (Option Int × Option LegacyStatus) :=
  match form.deposit with
  | none => .ok (none, form.statusCode)
  | some amount => do
    let statusCode := if form.statusCode = some .draft then some .sent else form.statusCode
    check (statusCode ≠ some .void)
      "Retainers cannot be applied to void invoices. Change the status first."
    check (0 < form.totalMinor) "There is no balance available for retainer application."
    let req ← amount.requested form.totalMinor "Invalid retainer amount format."
    check (0 < req) "Invalid retainer amount."
    let req := min req form.totalMinor
    let balance := fun bp =>
      match getClientDepositBalanceMinor U entries bp form.clientId form.currency with
      | .ok bal => bal
      | .error _ => 0
    let available := balance (some form.businessProfileId) + balance none
    let req := if amount = .blank then min req available else req
    check (req ≤ available) "Insufficient retainer balance."
    check (0 < req) "Insufficient retainer balance."
    return (some req, statusCode)

/-- The transaction of `_apply_deposit_if_requested`. -/
def applyRequestedDeposit (db : DepositDb) (invoiceId : Nat) (form : InvoiceForm) (req : Int) :
    Except String DepositDb := do
  let bp := form.businessProfileId
  let balBp ← getClientDepositBalanceMinor U db.ledger.rows (some bp) form.clientId form.currency
  let balGlobal ← getClientDepositBalanceMinor U db.ledger.rows none form.clientId form.currency
  let available := balBp + balGlobal
  let req := if form.deposit = some .blank then min req available else req
  check (req ≤ available) "Insufficient retainer balance."
  check (0 < req) "Insufficient retainer balance."
  let useBp := min req balBp
  let useGlobal := req - useBp
  check (useGlobal ≤ balGlobal) "Insufficient retainer balance."
  let db ← applyUse U db (applyCall (some bp) form.clientId form.currency useBp invoiceId)
  let db ← applyUse U db (applyCall none form.clientId form.currency useGlobal invoiceId)
  let inv ← findInvoice db invoiceId
  let newOutstanding := form.totalMinor - (useBp + useGlobal)
  let payment := if newOutstanding ≤ 0 then .paid else .pending
  return db.setStatus invoiceId inv.billingStatus payment (newOutstanding ≤ 0)

def applyDepositIfRequested (db : DepositDb) (invoiceId : Nat) (form : InvoiceForm)
    (apply : Option Int) : DepositDb :=
  match apply with
  | none => db
  | some req =>
    if req ≤ 0 then db
    else match applyRequestedDeposit U db invoiceId form req with
      | .ok db' => db'
      | .error _ => db

def InvoiceForm.toInvoice (form : InvoiceForm) (statusCode : Option LegacyStatus) (id : Nat) :
    Invoice :=
  let split := computeBillingPaymentFromStatus statusCode false
  { id := id, clientId := form.clientId, businessProfileId := some form.businessProfileId,
    currency := some form.currency, totalMinor := form.totalMinor,
    status := deriveLegacyStatusFromSplit split.1 split.2, billingStatus := split.1,
    paymentStatus := split.2, paymentVerified := false }

def createInvoice (db : DepositDb) (form : InvoiceForm) : Except String DepositDb := do
  check (∀ status ∈ form.statusCode, ¬status.finalized)
    "Tax-recorded status is applied only after tax documentation is confirmed."
  let (apply, statusCode) ← validateDepositRequest U db.ledger.rows form
  let created : DepositDb :=
    { db with invoices := db.invoices.insert (form.toInvoice statusCode) (fun _ => rfl) }
  return applyDepositIfRequested U created db.invoices.next form apply

/-- `lineError` says that `_deposit_edit_line_structure_error` has an objection. -/
structure EditForm extends InvoiceForm where
  lineError : Bool
  deriving DecidableEq

/-- The columns of the header that an edit writes. -/
def EditForm.header (form : EditForm) (billing : BillingStatus) (payment : PaymentStatus)
    (inv : Invoice) : Invoice :=
  { inv with
    clientId := form.clientId
    businessProfileId := some form.businessProfileId
    currency := some form.currency
    totalMinor := form.totalMinor
    status := deriveLegacyStatusFromSplit billing payment
    billingStatus := billing
    paymentStatus := payment
    paymentVerified := if billing = .void then false else inv.paymentVerified }

lemma EditForm.id_header (form : EditForm) (billing : BillingStatus) (payment : PaymentStatus)
    (inv : Invoice) : (form.header billing payment inv).id = inv.id := rfl

/-- An amount that cannot be parsed counts as none given. -/
def AmountField.editRequested (outstanding : Int) : AmountField → Int
  | .minor n => min n.natAbs outstanding
  | _ => outstanding

/-- The writes of `_apply_edit_deposit`. Nothing of them is undone: an entry that was inserted
before something went wrong stays. -/
def applyEditUses (db : DepositDb) (invoiceId : Nat) (form : EditForm) (billing : BillingStatus)
    (appliedAlready useBp useGlobal : Int) : DepositDb :=
  let bp := form.businessProfileId
  match applyUse U db (applyCall (some bp) form.clientId form.currency useBp invoiceId) with
  | .error _ => db
  | .ok db₁ =>
    match applyUse U db₁ (applyCall none form.clientId form.currency useGlobal invoiceId) with
    | .error _ => db₁
    | .ok db₂ =>
      let newOutstanding := form.totalMinor - (appliedAlready + (max useBp 0 + max useGlobal 0))
      let payment := if newOutstanding ≤ 0 then .paid else .pending
      db₂.setStatus invoiceId billing payment (newOutstanding ≤ 0)

def applyEditDeposit (db : DepositDb) (invoiceId : Nat) (form : EditForm)
    (billing : BillingStatus) : DepositDb :=
  match form.deposit with
  | none => db
  | some amount =>
    let applied := uncanceledApplies db.ledger.rows invoiceId
    let appliedAlready : Int := (applied.map (fun a => (a.amountMinor.natAbs : Int))).sum
    let outstanding := form.totalMinor - appliedAlready
    if billing = .void ∨ outstanding ≤ 0 then db
    else
      let bp := form.businessProfileId
      match getClientDepositBalanceMinor U db.ledger.rows (some bp) form.clientId form.currency,
        getClientDepositBalanceMinor U db.ledger.rows none form.clientId form.currency with
      | .ok balBp, .ok balGlobal =>
        let req := min (amount.editRequested outstanding) (balBp + balGlobal)
        if req ≤ 0 then db
        else
          let useBp := min req balBp
          applyEditUses U db invoiceId form billing appliedAlready useBp (req - useBp)
      | _, _ => db

/-- The checks of an edit before its transaction. -/
def editGate (db : DepositDb) (invoiceId : Nat) (form : EditForm) : Except String Invoice := do
  let inv ← findInvoice db invoiceId
  check (¬inv.billingStatus.finalized ∧ ¬inv.status.finalized)
    "tax-recorded status Invoice Edit not available. ( change status required)"
  check (inv.paymentStatus ≠ .paid ∧ inv.paymentVerified = false)
    "Paid Invoice Edit not available. Payment status (Payment pending) Edit."
  check (form.lineError = false)
    ("Saving was stopped because retainer application was submitted with a reduced line-item " ++
      "structure. Save line-item changes first, then apply the retainer from the invoice screen.")
  check (¬(computeBillingPaymentFromStatus form.statusCode inv.paymentVerified).1.finalized)
    "Tax-recorded status can only be changed from the tax documentation confirmation screen."
  return inv

def editInvoice (db : DepositDb) (invoiceId : Nat) (form : EditForm) : Except String DepositDb := do
  let inv ← editGate db invoiceId form
  let (billing, payment) := computeBillingPaymentFromStatus form.statusCode inv.paymentVerified
  let db ← if billing = .void then do
      let (db, _) ← cancelUncanceledDepositAppliesForInvoice U db invoiceId
      pure db
    else pure db
  let db := db.updateInvoice invoiceId (form.header billing payment) (form.id_header billing payment)
  return applyEditDeposit U db invoiceId form billing

/-- `update_invoice_status` with the new status `void`. -/
def voidInvoice (db : DepositDb) (invoiceId : Nat) : Except String DepositDb := do
  let inv ← findInvoice db invoiceId
  check (voidAllowed inv.status) " Invoice status ."
  let (db, _) ← (cancelUncanceledDepositAppliesForInvoice U db invoiceId).mapError (fun _ =>
    "Void Process Retainer applicationCancel failed. Retainer applicationCancel retry.")
  return db.setStatus invoiceId .void .none false

def ensureInvoiceDeletable (inv : Invoice) : Except String Unit := do
  check (¬inv.billingStatus.finalized ∧ ¬inv.status.finalized)
    "A tax-recorded invoice cannot be deleted. Change the billing status first."
  check (inv.paymentStatus ≠ .paid ∧ inv.status ≠ .paid ∧ inv.paymentVerified = false)
    "A paid invoice cannot be deleted. Cancel or reverse the payment status first."

/-- The invoices to delete; a missing one is skipped or an error. -/
def deleteSnapshots (db : DepositDb) (skipMissing : Bool) : List Nat → Except String (List Nat)
  | [] => .ok []
  | id :: ids =>
    match db.invoices.find id with
    | none =>
      if skipMissing then deleteSnapshots db skipMissing ids else .error "Invoice not found"
    | some inv => do
      ensureInvoiceDeletable inv
      let rest ← deleteSnapshots db skipMissing ids
      return id :: rest

/-- `DELETE FROM invoices`, with `ON DELETE SET NULL` in the ledger. -/
def DepositDb.deleteInvoice (db : DepositDb) (id : Nat) : DepositDb where
  invoices := db.invoices.delete id
  ledger := db.ledger.update (detachInvoice id) (fun _ => rfl)

def deleteLoop : DepositDb → List Nat → Except String DepositDb
  | db, [] => .ok db
  | db, id :: ids => do
    let (db, _) ← (cancelUncanceledDepositAppliesForInvoice U db id).mapError (fun _ =>
      "Delete Retainer applicationCancel Auto Process failed. Retainer applicationCancel Delete.")
    deleteLoop (db.deleteInvoice id) ids

def deleteInvoices (db : DepositDb) (ids : List Nat) (skipMissing : Bool) :
    Except String DepositDb := do
  let snapshots ← deleteSnapshots db skipMissing ids.eraseDups
  deleteLoop U db snapshots

/-- `statusColumns` is any other request that changes the status columns of an invoice only;
`burnIds` uses up ids, as inserts that are rolled back do. -/
inductive DepositRequest
  | createInvoice (form : InvoiceForm)
  | applyDeposit (invoiceId : Nat) (amount : AmountField)
  | cancelDepositApply (invoiceId entryId : Nat)
  | editInvoice (invoiceId : Nat) (form : EditForm)
  | voidInvoice (invoiceId : Nat)
  | deleteInvoices (ids : List Nat) (skipMissing : Bool)
  | topup (businessProfileId : Option Nat) (clientId : Nat) (currency : Text) (amount : Int)
  | refund (businessProfileId : Option Nat) (clientId : Nat) (currency : Text) (amount : Int)
  | adjust (businessProfileId : Option Nat) (clientId : Nat) (currency : Text) (amount : Int)
  | statusColumns (invoiceId : Nat) (billing : BillingStatus) (payment : PaymentStatus)
      (verified : Bool)
  | burnIds

def handle (db : DepositDb) : DepositRequest → Except String DepositDb
  | .createInvoice form => createInvoice U db form
  | .applyDeposit invoiceId amount => applyDeposit U db invoiceId amount
  | .cancelDepositApply invoiceId entryId => cancelDepositApply U db invoiceId entryId
  | .editInvoice invoiceId form => editInvoice U db invoiceId form
  | .voidInvoice invoiceId => voidInvoice U db invoiceId
  | .deleteInvoices ids skipMissing => deleteInvoices U db ids skipMissing
  | .topup bp clientId currency amount => clientDepositTopup U db bp clientId currency amount
  | .refund bp clientId currency amount => clientDepositRefund U db bp clientId currency amount
  | .adjust bp clientId currency amount => clientDepositAdjust U db bp clientId currency amount
  | .statusColumns invoiceId billing payment verified =>
    .ok (db.setStatus invoiceId billing payment verified)
  | .burnIds => .ok ⟨db.invoices.burn, db.ledger.burn⟩

/-- A request that fails leaves the database as it was. -/
def requestStep (db : DepositDb) (r : DepositRequest) : Option DepositDb :=
  match handle U db r with
  | .ok db' => some db'
  | .error _ => some db

end Handlers

end IpDocket.Billing
