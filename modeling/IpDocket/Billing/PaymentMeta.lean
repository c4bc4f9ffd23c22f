import Mathlib.Algebra.Order.BigOperators.Group.List
import IpDocket.Billing.DepositRequests
import IpDocket.Billing.Money

/-!
# Bank deposits of an invoice

`save_payment_meta` stores the bank deposits that pay an invoice in the JSON column
`payment_meta`. The request replaces the column or appends one deposit to it. What has been
taken from a bank transaction is found by a text search through the columns of all other
invoices; an appended deposit is compared with what the transaction has left, a replacing one
is not.
-/

namespace IpDocket.Billing
open IpDocket.Lib

/-- An invoice with the other columns that `save_payment_meta` reads. -/
structure PaidInvoice (V : Type) extends Invoice where
  number : Option Text
  total : ℚ
  isDeleted : Bool
  paymentMeta : Option V

def PaidInvoice.key {V : Type} (inv : PaidInvoice V) : Nat := inv.id

structure BankTransaction where
  tid : Text
  accIn : Option ℤ
  memo : Option Text

/-- The tags of `INV:([^\s|]+)` in a memo; `fuel` bounds the length of the text. -/
def memoTags : Nat → Text → List Text
  | 0, _ => []
  | _ + 1, [] => []
  | fuel + 1, 'I' :: 'N' :: 'V' :: ':' :: t =>
    let (tag, rest) := t.span (fun c => !pyIsSpace c && c ≠ '|')
    if tag = [] then memoTags fuel ('N' :: 'V' :: ':' :: t) else tag :: memoTags fuel rest
  | fuel + 1, _ :: t => memoTags fuel t

/-- `_bank_activity_memo_invoice_numbers`. -/
def bankActivityMemoInvoiceNumbers (memo : Option Text) : List Text :=
  let text := memo.getD []
  (memoTags text.length text).foldl
    (fun numbers tag => if tag ∈ numbers then numbers else numbers ++ [tag]) []

def bankActivityMemo (bank : List BankTransaction) (tid : Text) : Option Text :=
  (bank.find? (fun tx => tx.tid = tid)).bind BankTransaction.memo

/-- `_bank_activity_tid_amount_minor`. -/
def bankActivityTidAmountMinor (bank : List BankTransaction) (tid : Text) : ℤ :=
  let key := pyStrip tid
  if key = [] then 0
  else ((bank.find? (fun tx => tx.tid = key)).bind BankTransaction.accIn).getD 0

/-- `{n:,}` for the digits of `n`. -/
def groupThousands (digits : Text) : Text :=
  let rec groups : Nat → Text → Text
    | 0, t => t
    | fuel + 1, t => if t.length ≤ 3 then t else t.take 3 ++ ',' :: groups fuel (t.drop 3)
  (groups digits.length digits.reverse).reverse

def formatThousands (n : ℤ) : Text :=
  if n < 0 then '-' :: groupThousands (pyDigits n.natAbs) else groupThousands (pyDigits n.natAbs)

section Model

variable (T : DigitTables) (H : PyHost T.toUnicodeTables)

abbrev Fields := List (Text × Value T H)

variable {T H} in
/-- `fields.get(key)`. -/
def get (fields : Fields T H) (key : String) : Value T H := field fields key.toList

variable {T H} in
/-- `fields[key] = v`. -/
def put (key : String) (v : Value T H) (fields : Fields T H) : Fields T H :=
  setField key.toList v fields

variable {T H} in
/-- `str(v or "")`. -/
def strOrEmpty (v : Value T H) : Text := pyStr H (pyOr H v (.str []))

inductive SaveError
  | notFound
  | alreadyVerified
  | raised
  | matchedElsewhere (already : List Text)
  | allocatedElsewhere
  | exceedsAvailable (remaining : Value T H) (currency : Text)
  | exceedsInvoice (depositTotal : Value T H) (currency : Text) (invTotalMinor : ℤ)
  | overMatch (checkDeposit invTotalMinor : ℤ)

/-- The text in the answer; an exception has none of its own. -/
def SaveError.text : SaveError T H → Text
  | .notFound => []
  | .alreadyVerified => "Payment verification is already complete and cannot be edited.".toList
  | .raised => []
  | .matchedElsewhere already =>
    " Invoice(".toList ++ (", ".toList).intercalate already ++ (") Matching Deposit. " ++
      " Deposit Invoice Matching N:1 Matchingto Open.").toList
  | .allocatedElsewhere =>
    (" Invoice Matching Deposit. " ++ " Deposit Invoice Matching N:1 Matchingto Open.").toList
  | .exceedsAvailable remaining currency =>
    ("Deposit allocation exceeds available amount. " ++ "(Remaining ").toList ++
      pyStr H remaining ++ ' ' :: currency ++ ")".toList
  | .exceedsInvoice depositTotal currency invTotalMinor =>
    " Matching . (Current Total ".toList ++ pyStr H depositTotal ++ ' ' :: currency ++
      " / Invoice Total minor ".toList ++ formatThousands invTotalMinor ++ ")".toList
  | .overMatch checkDeposit invTotalMinor =>
    " Matching . (Deposit ".toList ++ formatThousands checkDeposit ++
      " / Invoice Total ".toList ++ formatThousands invTotalMinor ++ ")".toList

/-- A `none` is an exception. -/
def orRaise {α : Type} (x : Option α) : Except (SaveError T H) α :=
  match x with
  | some a => .ok a
  | none => .error .raised

variable {T H} in
def asFields : Value T H → Option (Fields T H)
  | .obj fields => some fields
  | _ => none

variable {T H} in
/-- `v not in (None, "")`. -/
def filled : Value T H → Bool
  | .null => false
  | .str [] => false
  | _ => true

variable {T H} in
def paymentMetaRecords : Option (Value T H) → List (Fields T H)
  | some (.obj fields) =>
    match get fields "deposits" with
    | .arr items => items.filterMap asFields
    | _ => if ["tid", "summary", "deposit"].any (fun key => filled (get fields key)) then [fields]
      else []
  | _ => []

variable {T H} in
/-- `str(record.get("tid") or "").strip()`. -/
def recordTid (record : Fields T H) : Text := pyStrip (strOrEmpty (get record "tid"))

/-- The sum of what `f` returns, unless it raises for one of the records. -/
def sumMinor {α : Type} (f : α → Option ℤ) : List α → Option ℤ
  | [] => some 0
  | r :: rs => do
    let minor ← f r
    let rest ← sumMinor f rs
    return minor + rest

/-- The invoice counts: it is neither deleted nor void. -/
def PaidInvoice.counts {V : Type} (inv : PaidInvoice V) : Bool :=
  inv.isDeleted = false ∧ inv.billingStatus ≠ .void

/-- `payment_meta LIKE ? OR payment_meta LIKE ?`. -/
def mentionsTid (key : Text) (inv : PaidInvoice (Value T H)) : Bool :=
  let likeA := '%' :: ("\"tid\": \"".toList ++ key ++ ['"']) ++ ['%']
  let likeB := '%' :: ("\"tid\":\"".toList ++ key ++ ['"']) ++ ['%']
  inv.paymentMeta.any (fun v => sqlLike likeA (dumps H v) || sqlLike likeB (dumps H v))

/-- The records that carry `key`, in minor units of `currency`; what raises is skipped. -/
def tidMinor (key : Text) (currency : Value T H) (records : List (Fields T H)) : ℤ :=
  ((records.filter (fun r => recordTid r = key)).map
    (fun r => (paymentDepositMinor T H (get r "deposit") currency).getD 0)).sum

/-- `_sum_tid_allocations_minor`. -/
def sumTidAllocationsMinor (rows : List (PaidInvoice (Value T H))) (tid currency : Text)
    (excludeInvoiceId : Nat) : ℤ :=
  let key := pyStrip tid
  if key = [] then 0
  else
    ((rows.filter (fun inv => mentionsTid T H key inv ∧ inv.counts ∧ inv.id ≠ excludeInvoiceId)).map
      (fun inv => tidMinor T H key (pyOr H (ofColumn T H inv.currency) (.str currency))
        (paymentMetaRecords inv.paymentMeta))).sum

inductive SaveRequest
  | json (payload : Value T H)
  | form (fields : List (Text × Text))

/-- What the request asks for. -/
structure SaveInput where
  metaFields : Fields T H
  tid : Text
  allowMultiInvoiceTid : Bool
  append : Bool

/-- A field of the form without the blanks around it. -/
def formField (fields : List (Text × Text)) (key absent : String) : Text × Value T H :=
  (key.toList, .str (pyStrip ((fields.lookup key.toList).getD absent.toList)))

def readRequest : SaveRequest T H → Except (SaveError T H) (SaveInput T H)
  | .form f => .ok ⟨[formField T H f "account_alias" "", formField T H f "date" "",
      formField T H f "time" "", formField T H f "deposit" "", formField T H f "currency" "USD",
      formField T H f "summary" "", formField T H f "channel" "", formField T H f "cms_code" ""],
      [], false, false⟩
  | .json payload =>
    match pyOr H payload (.obj []) with
    | .obj fields =>
      match pyOr H (get fields "payment_meta") (.obj fields) with
      | .obj metaFields => .ok ⟨metaFields, pyStrip (strOrEmpty (get fields "tid")),
          ["allow_multi_invoice", "allow_n_to_one", "split_match"].any
            (fun key => pyTruthy H (get fields key)),
          pyTruthy H (get fields "append")⟩
      | _ => .error .raised
    | _ => .error .raised

/-- `(invoice["currency"] or "USD").strip().upper()`. -/
def defaultCurrency (inv : Invoice) : Text :=
  stripUpper T.toUpperTable (currencyOrDefault inv.currency)

/-- A missing or blank currency becomes that of the invoice. -/
def withCurrency (currency : Text) (metaFields : Fields T H) : Fields T H :=
  if pyStrip (strOrEmpty (get metaFields "currency")) = [] then
    put "currency" (.str currency) metaFields
  else metaFields

def invTotalMinor (inv : PaidInvoice (Value T H)) : ℤ :=
  if 0 < inv.totalMinor then inv.totalMinor
  else (toMinorInContext T.toUpperTable inv.total (defaultCurrency T inv.toInvoice)).getD 0

/-- A transaction that another invoice uses needs the permission of the request. -/
def checkTidFree (bank : List BankTransaction) (rows : List (PaidInvoice (Value T H)))
    (inv : PaidInvoice (Value T H)) (input : SaveInput T H) : Except (SaveError T H) Unit :=
  if input.tid = [] then .ok ()
  else do
    let number := pyStrip (inv.number.getD [])
    let others := (bankActivityMemoInvoiceNumbers (bankActivityMemo bank input.tid)).filter
      (fun no => number ≠ [] ∧ no ≠ number)
    require (others = [] ∨ input.allowMultiInvoiceTid) (.matchedElsewhere others)
    let elsewhere :=
      sumTidAllocationsMinor T H rows input.tid (defaultCurrency T inv.toInvoice) inv.id
    require (elsewhere ≤ 0 ∨ input.allowMultiInvoiceTid) .allocatedElsewhere

/-! ### Appending a deposit -/

variable {T H} in
def existingFields : Option (Value T H) → Fields T H
  | some (.obj fields) => fields
  | _ => []

/-- The single deposit of a document without a list of deposits; the list stays empty when
its amount cannot be read. -/
def legacyDeposits (currency : Text) (existing : Fields T H) : List (Value T H) :=
  match normalizePaymentDepositValue T H (get existing "deposit") currency with
  | some deposit => [.obj [
      ("currency".toList, pyOr H (get existing "currency") (.str currency)),
      ("date".toList, pyOr H (get existing "date") (.str [])),
      ("account_alias".toList, pyOr H (get existing "account_alias") (.str [])),
      ("deposit".toList, deposit),
      ("summary".toList, pyOr H (get existing "summary") (.str []))]]
  | none => []

def priorDeposits (currency : Text) (existing : Fields T H) : List (Value T H) :=
  match get existing "deposits" with
  | .arr (d :: ds) => d :: ds
  | _ =>
    match get existing "deposit" with
    | .null => []
    | _ => legacyDeposits T H currency existing

def depositRecord (currency tid : Text) (metaFields : Fields T H) : Option (Fields T H) :=
  let record := if tid = [] then metaFields else put "tid" (.str tid) metaFields
  (normalizePaymentDepositValue T H (get record "deposit") currency).map
    (fun deposit => put "deposit" deposit record)

/-- `any(str(d.get("tid") or "") == tid for d in deposits)`, which raises at an element that is
not a `dict`. -/
def hasTid (tid : Text) : List (Value T H) → Option Bool
  | [] => some false
  | .obj record :: ds => if strOrEmpty (get record "tid") = tid then some true else hasTid tid ds
  | _ :: _ => none

def addRecord (tid : Text) (record : Fields T H) (deposits : List (Value T H)) :
    Option (List (Value T H)) :=
  if tid = [] then some (deposits ++ [.obj record])
  else (hasTid T H tid deposits).map
    (fun found => if found then deposits else deposits ++ [.obj record])

/-- The deposits must not take more from the transaction than the other invoices leave. -/
def checkTidAvailable (bank : List BankTransaction) (rows : List (PaidInvoice (Value T H)))
    (inv : PaidInvoice (Value T H)) (tid : Text) (deposits : List (Value T H)) :
    Except (SaveError T H) Unit :=
  let currency := defaultCurrency T inv.toInvoice
  let current := (sumMinor
    (fun r => paymentDepositMinor T H (get r "deposit") (pyOr H (get r "currency") (.str currency)))
    ((deposits.filterMap asFields).filter (fun r => recordTid r = tid))).getD 0
  let txTotal := bankActivityTidAmountMinor bank tid
  let elsewhere := sumTidAllocationsMinor T H rows tid currency inv.id
  require (¬(tid ≠ [] ∧ 0 < txTotal ∧ 0 < current ∧ txTotal < elsewhere + current))
    (.exceedsAvailable (paymentDepositValueFromMinor T H (max 0 (txTotal - elsewhere)) currency)
      currency)

/-- The summaries of the deposits. -/
def summaryParts (deposits : List (Value T H)) : List Text :=
  ((deposits.filterMap asFields).map (fun r => pyStrip (strOrEmpty (get r "summary")))).filter
    (fun s => s ≠ [])

/-- The document with the new list of deposits and their total. -/
def mergedMeta (currency : Text) (existing metaFields : Fields T H) (deposits : List (Value T H))
    (depositTotal : Value T H) : Fields T H :=
  let newOr (key : String) (absent : Text) : Value T H :=
    pyOr H (pyOr H (get metaFields key) (get existing key)) (.str absent)
  let merged := put "deposit" depositTotal
    (put "account_alias" (newOr "account_alias" []) (put "date" (newOr "date" [])
      (put "currency" (newOr "currency" currency) (put "deposits" (.arr deposits) existing))))
  let parts := summaryParts T H deposits
  if parts = [] then merged
  else put "summary" (.str ((" + ".toList).intercalate parts)) merged

def appendedMeta (bank : List BankTransaction) (rows : List (PaidInvoice (Value T H)))
    (inv : PaidInvoice (Value T H)) (input : SaveInput T H) :
    Except (SaveError T H) (Fields T H) := do
  let currency := defaultCurrency T inv.toInvoice
  let existing := existingFields inv.paymentMeta
  let record ← orRaise T H (depositRecord T H currency input.tid input.metaFields)
  let deposits ← orRaise T H (addRecord T H input.tid record (priorDeposits T H currency existing))
  let totalMinor ← orRaise T H (sumMinor
    (fun r => paymentDepositMinor T H (get r "deposit") (.str currency))
    (deposits.filterMap asFields))
  let depositTotal := paymentDepositValueFromMinor T H totalMinor currency
  let depositTotalMinor ← orRaise T H (paymentDepositMinor T H depositTotal (.str currency))
  checkTidAvailable T H bank rows inv input.tid deposits
  let total := invTotalMinor T H inv
  require (¬(0 < total ∧ total < depositTotalMinor)) (.exceedsInvoice depositTotal currency total)
  return mergedMeta T H currency existing input.metaFields deposits depositTotal

def savedFields (bank : List BankTransaction) (rows : List (PaidInvoice (Value T H)))
    (inv : PaidInvoice (Value T H)) (input : SaveInput T H) :
    Except (SaveError T H) (Fields T H) :=
  if input.append then appendedMeta T H bank rows inv input else .ok input.metaFields

/-- The document that the request writes. -/
def metaToSave (bank : List BankTransaction) (rows : List (PaidInvoice (Value T H)))
    (inv : PaidInvoice (Value T H)) (req : SaveRequest T H) :
    Except (SaveError T H) (Fields T H) := do
  let input ← readRequest T H req
  let currency := defaultCurrency T inv.toInvoice
  let input := { input with metaFields := withCurrency T H currency input.metaFields }
  checkTidFree T H bank rows inv input
  let toSave ← savedFields T H bank rows inv input
  let checkDeposit := (paymentDepositMinor T H (get toSave "deposit") (.str currency)).getD 0
  let total := invTotalMinor T H inv
  require (¬(0 < total ∧ total < checkDeposit)) (.overMatch checkDeposit total)
  return toSave

/-- The states in which the payment data can be edited. -/
def metaEditable (inv : Invoice) : Bool :=
  inv.status ≠ .void ∧ (inv.status = .paid → inv.paymentVerified = false)

structure MetaDb where
  invoices : Table (@PaidInvoice.key (Value T H))
  bank : List BankTransaction

variable {T H} in
/-- `SET payment_meta=?, payment_verified=0`. -/
def PaidInvoice.withMeta (fields : Fields T H) (inv : PaidInvoice (Value T H)) :
    PaidInvoice (Value T H) :=
  { inv with paymentMeta := some (.obj fields), paymentVerified := false }

variable {T H} in
def MetaDb.setMeta (db : MetaDb T H) (id : Nat) (fields : Fields T H) : MetaDb T H :=
  { db with
    invoices := db.invoices.update (onRows (fun inv => inv.key = id) (PaidInvoice.withMeta fields))
      (key_onRows (fun _ => rfl)) }

def savePaymentMeta (db : MetaDb T H) (invoiceId : Nat) (req : SaveRequest T H) :
    Except (SaveError T H) (MetaDb T H) :=
  match db.invoices.find invoiceId with
  | none => .error .notFound
  | some inv => do
    require (metaEditable inv.toInvoice) .alreadyVerified
    let fields ← metaToSave T H db.bank db.invoices.rows inv req
    return db.setMeta invoiceId fields

end Model

section Spec

variable {T : DigitTables} {H : PyHost T.toUnicodeTables}

lemma orRaise_eq_ok {α : Type} {x : Option α} {a : α} :
    orRaise T H x = .ok a ↔ x = some a := by
  cases x <;> simp [orRaise]

/-- A request to save as the handler reads it for an invoice. -/
def inputFor (inv : PaidInvoice (Value T H)) (req : SaveRequest T H) : Option (SaveInput T H) :=
  match readRequest T H req with
  | .ok input =>
    some { input with
      metaFields := withCurrency T H (defaultCurrency T inv.toInvoice) input.metaFields }
  | .error _ => none

/-- An appended deposit has been read, has passed the check against its transaction, and its
total the check against the invoice. -/
structure Appended (bank : List BankTransaction) (rows : List (PaidInvoice (Value T H)))
    (inv : PaidInvoice (Value T H)) (input : SaveInput T H) (record : Fields T H)
    (deposits : List (Value T H)) (totalMinor : ℤ) : Prop where
  read : depositRecord T H (defaultCurrency T inv.toInvoice) input.tid input.metaFields =
    some record
  added : addRecord T H input.tid record (priorDeposits T H (defaultCurrency T inv.toInvoice)
    (existingFields inv.paymentMeta)) = some deposits
  total : sumMinor
    (fun r => paymentDepositMinor T H (get r "deposit") (.str (defaultCurrency T inv.toInvoice)))
    (deposits.filterMap asFields) = some totalMinor
  available : checkTidAvailable T H bank rows inv input.tid deposits = .ok ()
  within : ∃ minor, paymentDepositMinor T H
      (paymentDepositValueFromMinor T H totalMinor (defaultCurrency T inv.toInvoice))
      (.str (defaultCurrency T inv.toInvoice)) = some minor ∧
    (0 < invTotalMinor T H inv → minor ≤ invTotalMinor T H inv)

lemma appendedMeta_eq_ok {bank : List BankTransaction} {rows : List (PaidInvoice (Value T H))}
    {inv : PaidInvoice (Value T H)} {input : SaveInput T H} {fields : Fields T H}
    (h : appendedMeta T H bank rows inv input = .ok fields) :
    ∃ record deposits totalMinor, Appended bank rows inv input record deposits totalMinor ∧
      fields = mergedMeta T H (defaultCurrency T inv.toInvoice) (existingFields inv.paymentMeta)
        input.metaFields deposits
        (paymentDepositValueFromMinor T H totalMinor (defaultCurrency T inv.toInvoice)) := by
  unfold appendedMeta at h
  obtain ⟨record, hrecord, h⟩ := except_bind_eq_ok.mp h
  obtain ⟨deposits, hdeposits, h⟩ := except_bind_eq_ok.mp h
  obtain ⟨totalMinor, htotal, h⟩ := except_bind_eq_ok.mp h
  obtain ⟨minor, hminor, h⟩ := except_bind_eq_ok.mp h
  obtain ⟨_, havailable, h⟩ := except_bind_eq_ok.mp h
  obtain ⟨_, hwithin, h⟩ := except_bind_eq_ok.mp h
  cases h
  refine ⟨record, deposits, totalMinor, ⟨orRaise_eq_ok.mp hrecord, orRaise_eq_ok.mp hdeposits,
    orRaise_eq_ok.mp htotal, havailable, minor, orRaise_eq_ok.mp hminor, ?_⟩, rfl⟩
  intro hpos
  have hle := require_eq_ok.mp hwithin
  simp only [decide_eq_true_eq, not_and, not_lt] at hle
  exact hle hpos

/-- What an accepted request writes: the fields it brings, or the document with one deposit
more. -/
lemma metaToSave_eq_ok {bank : List BankTransaction} {rows : List (PaidInvoice (Value T H))}
    {inv : PaidInvoice (Value T H)} {req : SaveRequest T H} {fields : Fields T H}
    (h : metaToSave T H bank rows inv req = .ok fields) :
    ∃ input, inputFor inv req = some input ∧
      (0 < invTotalMinor T H inv →
        (paymentDepositMinor T H (get fields "deposit")
          (.str (defaultCurrency T inv.toInvoice))).getD 0 ≤ invTotalMinor T H inv) ∧
      if input.append then appendedMeta T H bank rows inv input = .ok fields
      else fields = input.metaFields := by
  unfold metaToSave at h
  obtain ⟨input, hinput, h⟩ := except_bind_eq_ok.mp h
  obtain ⟨_, -, h⟩ := except_bind_eq_ok.mp h
  obtain ⟨toSave, hsave, h⟩ := except_bind_eq_ok.mp h
  obtain ⟨_, hcheck, h⟩ := except_bind_eq_ok.mp h
  cases h
  refine ⟨_, by rw [inputFor, hinput], ?_, ?_⟩
  · intro hpos
    have hle := require_eq_ok.mp hcheck
    simp only [decide_eq_true_eq, not_and, not_lt] at hle
    exact hle hpos
  · unfold savedFields at hsave
    split at hsave
    · next happend => rw [if_pos happend, hsave]
    · next happend =>
      rw [if_neg happend]
      cases hsave
      rfl

end Spec

end IpDocket.Billing
