import IpDocket.Billing.EffectivePaid
import IpDocket.Billing.RetainerMoves

/-!
# Collecting an invoice in two ways

An invoice is paid out of the retainer, by `apply_deposit`, or by bank deposits, which
`save_payment_meta` records. Each of them compares its own kind with the total, and the report
takes the larger of the two. As long as an invoice is paid in one way at a time and both readers
of a deposit agree on it, the report is what was received.
-/

namespace IpDocket.Billing
open IpDocket.Lib

/-- The columns of an invoice that only the payment data need. -/
structure PaymentColumns (V : Type) where
  number : Option Text
  total : ℚ
  isDeleted : Bool
  paymentMeta : Option V

section Model

variable (T : DigitTables) (H : PyHost T.toUnicodeTables)

structure CollectionDb where
  deposits : DepositDb
  columns : Nat → PaymentColumns (Value T H)
  payments : List InvoicePayment
  bank : List BankTransaction

/-- Who verified the payment, and when. -/
structure VerifiedStamp where
  userId : Value T H
  username : Value T H
  verifiedAt : Text

inductive CollectRequest
  | applyDeposit (invoiceId : Nat) (amount : AmountField) (stamp : VerifiedStamp T H)
  | cancelDepositApply (invoiceId entryId : Nat) (stamp : VerifiedStamp T H)
  | savePaymentMeta (invoiceId : Nat) (req : SaveRequest T H)

variable {T H}

/-- `fields.pop(key, None)`. -/
def pop (key : String) (fields : Fields T H) : Fields T H :=
  fields.filter (fun kv => kv.1 ≠ key.toList)

/-- The document with the mark that the retainer has paid the invoice, or without it. -/
def stampedMeta (verified : Bool) (stamp : VerifiedStamp T H) (fields : Fields T H) :
    Fields T H :=
  if verified then
    put "verified_via" (.str "deposit".toList) (put "verified_at" (.str stamp.verifiedAt)
      (put "verified_by_username" stamp.username (put "verified_by_user_id" stamp.userId fields)))
  else
    match get fields "verified_via" with
    | .str via =>
      if via = "deposit".toList then
        pop "verified_via" (pop "verified_at" (pop "verified_by_username"
          (pop "verified_by_user_id" fields)))
      else fields
    | _ => fields

def CollectionDb.paidInvoice (db : CollectionDb T H) (inv : Invoice) : PaidInvoice (Value T H) :=
  { inv with
    number := (db.columns inv.id).number
    total := (db.columns inv.id).total
    isDeleted := (db.columns inv.id).isDeleted
    paymentMeta := (db.columns inv.id).paymentMeta }

def CollectionDb.rows (db : CollectionDb T H) : List (PaidInvoice (Value T H)) :=
  db.deposits.invoices.rows.map db.paidInvoice

/-- `SET payment_meta=?`. -/
def CollectionDb.setMeta (db : CollectionDb T H) (deposits : DepositDb) (id : Nat)
    (fields : Fields T H) : CollectionDb T H :=
  { db with
    deposits := deposits
    columns := Function.update db.columns id
      { db.columns id with paymentMeta := some (.obj fields) } }

/-- The retainer has been moved, and the document gets its mark. -/
def CollectionDb.stamp (db : CollectionDb T H) (deposits : DepositDb) (id : Nat)
    (stamp : VerifiedStamp T H) : CollectionDb T H :=
  let verified := (deposits.invoices.find id).any Invoice.paymentVerified
  db.setMeta deposits id
    (stampedMeta verified stamp (existingFields (db.columns id).paymentMeta))

/-- `SET payment_verified=0`. -/
def Invoice.unverified (inv : Invoice) : Invoice := { inv with paymentVerified := false }

def collectSave (db : CollectionDb T H) (invoiceId : Nat) (req : SaveRequest T H) :
    Except (SaveError T H) (CollectionDb T H) :=
  match db.deposits.invoices.find invoiceId with
  | none => .error .notFound
  | some inv => do
    require (metaEditable inv) .alreadyVerified
    let fields ← metaToSave T H db.bank db.rows (db.paidInvoice inv) req
    return db.setMeta (db.deposits.updateInvoice invoiceId Invoice.unverified (fun _ => rfl))
      invoiceId fields

def collectStep (db : CollectionDb T H) : CollectRequest T H → Option (CollectionDb T H)
  | .applyDeposit id amount stamp =>
    (applyDeposit T.toUpperTable db.deposits id amount).toOption.map
      (fun deposits => db.stamp deposits id stamp)
  | .cancelDepositApply id entryId stamp =>
    (cancelDepositApply T.toUpperTable db.deposits id entryId).toOption.map
      (fun deposits => db.stamp deposits id stamp)
  | .savePaymentMeta id req => (collectSave db id req).toOption

/-- A record in minor units of the invoice. -/
def recordMinor (inv : Invoice) (r : Fields T H) : ℤ :=
  (paymentDepositMinor T H (get r "deposit") (ofColumn T H inv.currency)).getD 0

/-- The bank deposits of the invoice. -/
def bankMinor (inv : Invoice) (v : Option (Value T H)) : ℤ :=
  ((paymentMetaRecords v).map (recordMinor inv)).sum

def CollectionDb.effectivePaid (db : CollectionDb T H) (inv : Invoice) : Option ℤ :=
  effectivePaidMinor T H db.payments db.deposits.ledger.rows (db.paidInvoice inv)

/-- Both readers agree on a record, and it is not negative. -/
def recordAgrees (inv : Invoice) (r : Fields T H) : Bool :=
  let code := defaultCurrency T inv
  nativeOrBlank T code (get r "currency") ∧ 0 ≤ recordMinor inv r ∧
    amountToMinor T H (get r "deposit") (.str code) = some (recordMinor inv r)

/-- A document that replaces the payment data: both readers agree on every record, the records
add up to no more than the deposit of the document, and the report is their sum. -/
def replacementAgrees (inv : Invoice) (fields : Fields T H) : Bool :=
  let bank := bankMinor inv (some (.obj fields))
  (paymentMetaRecords (some (.obj fields))).all (recordAgrees inv) ∧
    bank ≤ (paymentDepositMinor T H (get fields "deposit")
      (.str (defaultCurrency T inv))).getD 0 ∧
    paymentMetaPaidMinor T H fields (upperCurrency T inv) = some bank

/-- The invoice is paid in one way: no retainer is applied where bank deposits are recorded, and
none are recorded where a retainer is applied. The deposits are in the currency of the invoice,
which is not `USD`, and not negative; the total can be compared as a float. -/
def paidInOneWay (db : CollectionDb T H) : CollectRequest T H → Bool
  | .applyDeposit id _ _ => (db.deposits.invoices.find id).all
      (fun inv => bankMinor inv (db.columns inv.id).paymentMeta = 0)
  | .cancelDepositApply _ _ _ => true
  | .savePaymentMeta id req => (db.deposits.invoices.find id).all (fun inv =>
      (inputFor (db.paidInvoice inv) req).all (fun input =>
        let code := defaultCurrency T inv
        netApplied db.deposits inv.id = 0 ∧ inv.totalMinor < 2 ^ 50 ∧
          code ≠ [] ∧ code ≠ "USD".toList ∧
          nativeOrBlank T code (get input.metaFields "currency") ∧
          0 ≤ (paymentDepositMinor T H (get input.metaFields "deposit") (.str code)).getD 0 ∧
          (input.append ∨ replacementAgrees inv input.metaFields)))

end Model

end IpDocket.Billing
