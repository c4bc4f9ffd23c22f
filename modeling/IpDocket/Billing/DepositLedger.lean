import Mathlib.Algebra.Order.BigOperators.Group.List
import IpDocket.Lib.Text
import IpDocket.Lib.Table

/-!
# The client retainer ledger

`insert_client_deposit_ledger_entry` is the only function that writes to
`client_deposit_ledger`. It is a sequence of statements: the invoice, the related entry, an
earlier cancellation and the balance are read one after another, each with its own checks,
before the row is inserted. The checks are separate functions of what was read, so that they
serve a model in which every statement is a step and one in which the call is atomic.
-/

namespace IpDocket.Billing
open IpDocket.Lib

inductive EntryType
  | topup
  | apply
  | cancelApply
  | refund
  | adjust
  deriving DecidableEq

/-- A balance is kept for every bucket; no business profile stands for the whole office. -/
structure Bucket where
  businessProfileId : Option Nat
  clientId : Nat
  currency : Text
  deriving DecidableEq

structure LedgerEntry where
  id : Nat
  businessProfileId : Option Nat
  clientId : Nat
  currency : Text
  amountMinor : Int
  entryType : EntryType
  relatedInvoiceId : Option Nat
  relatedEntryId : Option Nat
  deriving DecidableEq

def LedgerEntry.bucket (e : LedgerEntry) : Bucket := ⟨e.businessProfileId, e.clientId, e.currency⟩

def bucketSum (b : Bucket) (entries : List LedgerEntry) : Int :=
  ((entries.filter (fun e => e.bucket = b)).map LedgerEntry.amountMinor).sum

@[simp] lemma bucketSum_append (b : Bucket) (es fs : List LedgerEntry) :
    bucketSum b (es ++ fs) = bucketSum b es + bucketSum b fs := by
  simp [bucketSum]

lemma bucketSum_singleton (b : Bucket) (e : LedgerEntry) :
    bucketSum b [e] = if e.bucket = b then e.amountMinor else 0 := by
  by_cases h : e.bucket = b <;> simp [bucketSum, h]

lemma bucketSum_nonneg {b : Bucket} {es : List LedgerEntry}
    (h : ∀ e ∈ es, e.bucket = b → 0 ≤ e.amountMinor) : 0 ≤ bucketSum b es := by
  apply List.sum_nonneg
  intro amount hamount
  obtain ⟨e, he, rfl⟩ := List.mem_map.mp hamount
  obtain ⟨hmem, hb⟩ := List.mem_filter.mp he
  exact h e hmem (by simpa using hb)

/-- An `UPDATE` of the other columns leaves every balance alone. -/
lemma bucketSum_map {b : Bucket} {es : List LedgerEntry} {f : LedgerEntry → LedgerEntry}
    (hbucket : ∀ e, (f e).bucket = e.bucket) (hamount : ∀ e, (f e).amountMinor = e.amountMinor) :
    bucketSum b (es.map f) = bucketSum b es := by
  simp only [bucketSum, List.filter_map, List.map_map]
  congr 1
  have hfilter : ((fun e => decide (e.bucket = b)) ∘ f) = fun e => decide (e.bucket = b) :=
    funext (fun e => by simp [hbucket e])
  rw [hfilter]
  exact List.map_congr_left (fun e _ => hamount e)

/-- `ON DELETE SET NULL` for the entries of an invoice. -/
def detachInvoice (invoiceId : Nat) (e : LedgerEntry) : LedgerEntry :=
  { e with relatedInvoiceId := e.relatedInvoiceId.filter (fun inv => inv ≠ invoiceId) }

lemma bucketSum_detachInvoice (b : Bucket) (invoiceId : Nat) (es : List LedgerEntry) :
    bucketSum b (es.map (detachInvoice invoiceId)) = bucketSum b es :=
  bucketSum_map (fun _ => rfl) (fun _ => rfl)

inductive BillingStatus
  | draft
  | sent
  | void
  | taxIssued
  | cashIssued
  | processed
  | preOverdue
  deriving DecidableEq

inductive PaymentStatus
  | unpaid
  | pending
  | paid
  | none
  deriving DecidableEq

/-- The column `status` that was there before it was split in two. -/
inductive LegacyStatus
  | draft
  | sent
  | paymentPending
  | preOverdue
  | paid
  | taxIssued
  | cashIssued
  | processed
  | void
  deriving DecidableEq

structure Invoice where
  id : Nat
  clientId : Nat
  businessProfileId : Option Nat
  currency : Option Text
  totalMinor : Int
  status : LegacyStatus
  billingStatus : BillingStatus
  paymentStatus : PaymentStatus
  paymentVerified : Bool
  deriving DecidableEq

/-- `int(business_profile_id or 1)`. -/
def profileOrDefault : Option Nat → Nat
  | none => 1
  | some 0 => 1
  | some bp => bp

/-- An `abort(400, …)` with its text unless the condition holds. -/
def check (ok : Bool) (text : String) : Except String Unit :=
  if ok then .ok () else .error text

lemma check_eq_ok {ok : Bool} {text : String} {u : Unit} : check ok text = .ok u ↔ ok = true := by
  cases ok <;> simp [check]

lemma check_bind_eq_ok {α : Type} {ok : Bool} {text : String} {f : Unit → Except String α}
    {r : α} : (check ok text >>= f) = .ok r ↔ ok = true ∧ f () = .ok r := by
  cases ok <;> simp [check, bind, Except.bind]

lemma bind_eq_ok {α β : Type} {x : Except String α} {f : α → Except String β} {r : β} :
    (x >>= f) = .ok r ↔ ∃ a, x = .ok a ∧ f a = .ok r := by
  cases x <;> simp [bind, Except.bind]

/-- The arguments of `insert_client_deposit_ledger_entry`. -/
structure EntryCall where
  businessProfileId : Option Nat
  clientId : Nat
  currency : Text
  amountMinor : Int
  entryType : EntryType
  relatedInvoiceId : Option Nat := none
  relatedEntryId : Option Nat := none
  deriving DecidableEq

/-- `None` and `0` count as missing. -/
def truthy (id : Option Nat) : Option Nat := id.filter (fun k => k ≠ 0)

variable (U : UpperTable)

def EntryCall.bucket (c : EntryCall) : Bucket :=
  ⟨c.businessProfileId, c.clientId, stripUpper U c.currency⟩

def validateEntry (c : EntryCall) : Except String Unit := do
  check (stripUpper U c.currency ≠ []) "Currency ."
  check (c.amountMinor ≠ 0) "Amount 0  not available."
  check (c.entryType = .topup → 0 < c.amountMinor) " Amount ."
  check (c.entryType = .apply → c.amountMinor < 0) " Amount ."
  check (c.entryType = .cancelApply → 0 < c.amountMinor) "Cancel Amount ."
  check (c.entryType = .refund → c.amountMinor < 0) " Amount ."
  check (c.entryType = .apply ∨ c.entryType = .cancelApply → (truthy c.relatedInvoiceId).isSome)
    " Invoice required."

/-- The header that a new entry of an invoice has to match. -/
def checkHeader (c : EntryCall) (inv : Invoice) : Except String Unit := do
  check (inv.clientId = c.clientId) "Invoice Client does not match."
  check (∀ bp ∈ c.businessProfileId, profileOrDefault inv.businessProfileId = bp)
    "Invoice Business profile information does not match."
  let invCur := stripUpper U (inv.currency.getD [])
  check (invCur ≠ [] → invCur = stripUpper U c.currency)
    "Invoice Currency Retainer Currency does not match."

/-- The checks after the `SELECT` of the invoice, with the row it returned. -/
def checkInvoice (c : EntryCall) (row : Option Invoice) : Except String Unit :=
  match truthy c.relatedInvoiceId, row with
  | none, _ => .ok ()
  | some _, none => .error " Invoice not found."
  | some _, some inv => checkHeader U c inv

/-- The entry that a new entry refers to: it has to be of the same bucket, and for a
cancellation the application of the opposite amount. -/
def checkTarget (c : EntryCall) (rel : LedgerEntry) : Except String Unit := do
  check (rel.clientId = c.clientId) " Retainer Client does not match."
  check (rel.businessProfileId = c.businessProfileId) " Retainer Business profile does not match."
  let relCur := stripUpper U rel.currency
  check (relCur ≠ [] → relCur = stripUpper U c.currency) " Retainer Currency does not match."
  check (c.entryType = .cancelApply → rel.entryType = .apply) "Cancel target is invalid."
  check (c.entryType = .cancelApply → c.amountMinor = -rel.amountMinor)
    "Cancel Amount Source transaction does not match."

/-- The checks after the `SELECT` of the related entry. -/
def checkRelated (c : EntryCall) (row : Option LedgerEntry) : Except String Unit :=
  match truthy c.relatedEntryId, row with
  | none, _ => check (c.entryType ≠ .cancelApply) "Cancel target required."
  | some _, none => .error " Retainer not found."
  | some _, some rel => checkTarget U c rel

/-- Some cancellation of the entry `id` is in the ledger. -/
def isCanceled (entries : List LedgerEntry) (id : Nat) : Bool :=
  entries.any (fun e => e.relatedEntryId = some id ∧ e.entryType = .cancelApply)

def checkAlready (c : EntryCall) (entries : List LedgerEntry) : Except String Unit :=
  check (c.entryType = .cancelApply → ∀ id ∈ truthy c.relatedEntryId, isCanceled entries id = false)
    " Cancel ."

/-- The check after the `SELECT` of the balance, with `enforce_non_negative`. -/
def checkBalance (c : EntryCall) (balBefore : Int) : Except String Unit :=
  check (0 ≤ balBefore + c.amountMinor) "Retainer balance ."

/-- The inserted row. -/
def EntryCall.toEntry (c : EntryCall) (id : Nat) : LedgerEntry :=
  { id := id, businessProfileId := c.businessProfileId, clientId := c.clientId,
    currency := stripUpper U c.currency, amountMinor := c.amountMinor, entryType := c.entryType,
    relatedInvoiceId := truthy c.relatedInvoiceId, relatedEntryId := truthy c.relatedEntryId }

lemma EntryCall.id_toEntry (c : EntryCall) (id : Nat) : (c.toEntry U id).id = id := rfl

@[simp] lemma bucket_toEntry (c : EntryCall) (id : Nat) : (c.toEntry U id).bucket = c.bucket U := rfl

/-- `get_client_deposit_balance_minor`. -/
def getClientDepositBalanceMinor (entries : List LedgerEntry) (businessProfileId : Option Nat)
    (clientId : Nat) (currency : Text) : Except String Int := do
  check (stripUpper U currency ≠ []) "Currency ."
  return bucketSum ⟨businessProfileId, clientId, stripUpper U currency⟩ entries

end IpDocket.Billing
