import IpDocket.Billing.RetainerMoves

/-!
# The status columns of an invoice

`invoices.status` was split into `billing_status` and `payment_status`, and every request that
changes one of the three has to keep them in step: `void` and `none` imply each other, and the
old column is derived from the other two. A void invoice has no retainer left to cancel, so
that `cancel_deposit_apply` cannot make it pending again.

The request that does not keep step is the bulk update of the payment status, which writes
`payment_status` alone.
-/

namespace IpDocket.Billing
open IpDocket.Lib

/-- `_STATUS_TRANSITIONS`. -/
def statusTransitions : LegacyStatus → List LegacyStatus
  | .draft => [.draft, .sent, .void]
  | .sent => [.sent, .draft, .paymentPending, .preOverdue, .paid, .taxIssued, .cashIssued,
      .processed, .void]
  | .paymentPending => [.paymentPending, .sent, .preOverdue, .paid, .taxIssued, .cashIssued,
      .processed, .void]
  | .preOverdue => [.preOverdue, .sent, .paymentPending, .paid, .taxIssued, .cashIssued,
      .processed, .void]
  | .paid => [.paid, .sent, .paymentPending, .preOverdue, .taxIssued, .cashIssued, .processed]
  | .taxIssued => [.taxIssued, .sent, .paid]
  | .cashIssued => [.cashIssued, .sent, .paid]
  | .processed => [.processed, .sent, .paid]
  | .void => [.void, .draft, .sent]

/-- `_BILLING_TRANSITIONS`. -/
def billingTransitions : BillingStatus → List BillingStatus
  | .draft => [.draft, .sent, .void]
  | .sent => [.sent, .draft, .taxIssued, .cashIssued, .processed, .void, .preOverdue]
  | .preOverdue => [.preOverdue, .sent, .taxIssued, .cashIssued, .processed, .void]
  | .taxIssued => [.taxIssued, .sent]
  | .cashIssued => [.cashIssued, .sent]
  | .processed => [.processed, .sent]
  | .void => [.void, .draft, .sent]

/-- `_PAYMENT_TRANSITIONS`. -/
def paymentTransitions : PaymentStatus → List PaymentStatus
  | .unpaid => [.unpaid, .pending, .paid]
  | .pending => [.pending, .unpaid, .paid]
  | .paid => [.paid, .pending, .unpaid]
  | .none => [.none, .unpaid, .pending]

/-- The billing status as the word of the old column that stands for it. -/
def BillingStatus.toLegacy : BillingStatus → LegacyStatus
  | .draft => .draft
  | .sent => .sent
  | .void => .void
  | .taxIssued => .taxIssued
  | .cashIssued => .cashIssued
  | .processed => .processed
  | .preOverdue => .preOverdue

/-- `_is_payment_effectively_complete`. -/
def isPaymentEffectivelyComplete (inv : Invoice) : Bool :=
  inv.paymentVerified ∨ inv.paymentStatus = .paid ∨ inv.status = .paid

/-- `_sync_legacy_status`; without a pair the columns of the row are read. -/
def syncLegacyStatus (db : DepositDb) (id : Nat)
    (split : Option (BillingStatus × PaymentStatus) := none) : DepositDb :=
  db.updateInvoice id
    (fun inv =>
      let pair := split.getD (inv.billingStatus, inv.paymentStatus)
      { inv with status := deriveLegacyStatusFromSplit pair.1 pair.2 })
    (fun _ => rfl)

section Handlers

variable (U : UpperTable)

def isUsd (inv : Invoice) : Bool := pyUpper U (inv.currency.getD []) = "USD".toList

/-- `SET status=?, billing_status=?, payment_status=?`. -/
def Invoice.withSplit (billing : BillingStatus) (payment : PaymentStatus) (inv : Invoice) :
    Invoice :=
  { inv with
    status := deriveLegacyStatusFromSplit billing payment
    billingStatus := billing
    paymentStatus := payment }

def updateInvoiceStatus (db : DepositDb) (invoiceId : Nat) (newStatus : LegacyStatus)
    (confirmUnverifiedTax : Bool) : Except String DepositDb := do
  let inv ← findInvoice db invoiceId
  let paymentComplete := isPaymentEffectivelyComplete inv
  check (newStatus ∈ statusTransitions inv.status) " Invoice status ."
  check (¬(newStatus = .paid ∧ isUsd U inv ∧ ¬paymentComplete))
    "Payment verification is available from the invoice details page."
  let (bs, ps) := computeBillingPaymentFromStatus (some newStatus) inv.paymentVerified
  match newStatus with
  | .taxIssued => do
    check (paymentComplete ∨ confirmUnverifiedTax)
      "Payment has not been verified. Confirm before marking tax documentation recorded."
    return db.updateInvoice invoiceId
      (fun inv => { inv with status := deriveLegacyStatusFromSplit bs ps, billingStatus := bs })
      (fun _ => rfl)
  | .void => do
    let (db, _) ← (cancelUncanceledDepositAppliesForInvoice U db invoiceId).mapError (fun _ =>
      "Void Process Retainer applicationCancel failed. Retainer applicationCancel retry.")
    return db.setStatus invoiceId bs ps false
  | _ => return db.updateInvoice invoiceId (Invoice.withSplit bs ps) (fun _ => rfl)

/-- What `apply_bulk_invoice_status_update` did with an invoice. -/
inductive BulkOutcome
  | updated
  | invalid
  | skipped
  deriving DecidableEq

/-- One invoice with `mode == "payment"`. -/
def bulkPaymentOne (newStatus : PaymentStatus) (db : DepositDb) (id : Nat) :
    DepositDb × BulkOutcome :=
  match db.invoices.find id with
  | none => (db, .skipped)
  | some inv =>
    if newStatus ∉ paymentTransitions inv.paymentStatus then (db, .invalid)
    else if newStatus = .paid ∧ isUsd U inv ∧ inv.paymentVerified = false then (db, .skipped)
    else
      let written := db.updateInvoice id
        (fun inv =>
          { inv with
            paymentStatus := newStatus
            paymentVerified :=
              if newStatus = .unpaid ∨ newStatus = .pending then false else inv.paymentVerified })
        (fun _ => rfl)
      (syncLegacyStatus written id, .updated)

/-- The entries that the loop of a cancellation has inserted when it ends or fails. -/
def cancelAppliesUntilError (invoiceId : Nat) : DepositDb → List LedgerEntry → DepositDb
  | db, [] => db
  | db, a :: as =>
    if stripUpper U a.currency = [] ∨ -a.amountMinor ≤ 0 then
      cancelAppliesUntilError invoiceId db as
    else
      match insertEntry U db (cancelCall U invoiceId a) with
      | .ok (db', _) => cancelAppliesUntilError invoiceId db' as
      | .error _ => db

/-- One invoice with `mode == "billing"`. A cancellation that fails is not rolled back: the
entries before the failure are committed with the other invoices. -/
def bulkBillingOne (newStatus : BillingStatus) (db : DepositDb) (id : Nat) :
    DepositDb × BulkOutcome :=
  match db.invoices.find id with
  | none => (db, .skipped)
  | some inv =>
    if newStatus ∉ billingTransitions inv.billingStatus then (db, .invalid)
    else
      let (bs, ps) := computeBillingPaymentFromStatus (some newStatus.toLegacy) inv.paymentVerified
      match newStatus with
      | .taxIssued =>
        let written := db.updateInvoice id (fun inv => { inv with billingStatus := .taxIssued })
          (fun _ => rfl)
        (syncLegacyStatus written id (some (.taxIssued, inv.paymentStatus)), .updated)
      | .void =>
        match cancelUncanceledDepositAppliesForInvoice U db id with
        | .ok (db', _) => (db'.setStatus id bs ps false, .updated)
        | .error _ =>
          (cancelAppliesUntilError U id db (uncanceledApplies db.ledger.rows id), .invalid)
      | _ => (db.updateInvoice id (Invoice.withSplit bs ps) (fun _ => rfl), .updated)

/-- The loop over the invoices of a bulk update, with what it did to each of them. -/
def bulkLoop (one : DepositDb → Nat → DepositDb × BulkOutcome) :
    DepositDb → List Nat → DepositDb × List (Nat × BulkOutcome)
  | db, [] => (db, [])
  | db, id :: ids =>
    let (db, outcome) := one db id
    let (db, outcomes) := bulkLoop one db ids
    (db, (id, outcome) :: outcomes)

def bulkUpdateBilling (db : DepositDb) (ids : List Nat) (newStatus : BillingStatus) :
    Except String (DepositDb × List (Nat × BulkOutcome)) := do
  check (ids ≠ []) "Invoice Status Select ."
  return bulkLoop (bulkBillingOne U newStatus) db ids

def bulkUpdatePayment (db : DepositDb) (ids : List Nat) (newStatus : PaymentStatus) :
    Except String (DepositDb × List (Nat × BulkOutcome)) := do
  check (ids ≠ []) "Invoice Status Select ."
  check (newStatus ≠ .none) " Statusvalue."
  return bulkLoop (bulkPaymentOne U newStatus) db ids

/-- The requests that change the status columns, and those on the ledger that these depend on. -/
inductive StatusRequest
  | createInvoice (form : InvoiceForm)
  | updateInvoiceStatus (invoiceId : Nat) (newStatus : LegacyStatus) (confirmUnverifiedTax : Bool)
  | bulkUpdateBilling (ids : List Nat) (newStatus : BillingStatus)
  | bulkUpdatePayment (ids : List Nat) (newStatus : PaymentStatus)
  | editInvoice (invoiceId : Nat) (form : EditForm)
  | applyDeposit (invoiceId : Nat) (amount : AmountField)
  | cancelDepositApply (invoiceId entryId : Nat)
  | deleteInvoices (ids : List Nat) (skipMissing : Bool)
  | topup (businessProfileId : Option Nat) (clientId : Nat) (currency : Text) (amount : Int)
  | refund (businessProfileId : Option Nat) (clientId : Nat) (currency : Text) (amount : Int)
  | adjust (businessProfileId : Option Nat) (clientId : Nat) (currency : Text) (amount : Int)

def statusHandle (db : DepositDb) : StatusRequest → Except String DepositDb
  | .createInvoice form => createInvoice U db form
  | .updateInvoiceStatus invoiceId newStatus confirm =>
    updateInvoiceStatus U db invoiceId newStatus confirm
  | .bulkUpdateBilling ids newStatus => (bulkUpdateBilling U db ids newStatus).map Prod.fst
  | .bulkUpdatePayment ids newStatus => (bulkUpdatePayment U db ids newStatus).map Prod.fst
  | .editInvoice invoiceId form => editInvoice U db invoiceId form
  | .applyDeposit invoiceId amount => applyDeposit U db invoiceId amount
  | .cancelDepositApply invoiceId entryId => cancelDepositApply U db invoiceId entryId
  | .deleteInvoices ids skipMissing => deleteInvoices U db ids skipMissing
  | .topup bp clientId currency amount => clientDepositTopup U db bp clientId currency amount
  | .refund bp clientId currency amount => clientDepositRefund U db bp clientId currency amount
  | .adjust bp clientId currency amount => clientDepositAdjust U db bp clientId currency amount

abbrev statusStep : DepositDb → StatusRequest → Option DepositDb := stepOf (statusHandle U)

end Handlers

def Invoice.StatusInStep (inv : Invoice) : Prop :=
  (inv.billingStatus = .void ↔ inv.paymentStatus = .none) ∧
    inv.status = deriveLegacyStatusFromSplit inv.billingStatus inv.paymentStatus

/-- The columns of all invoices are in step, and nothing is applied to a void one. -/
structure StatusInvariant (U : UpperTable) (db : DepositDb) : Prop extends
    RetainerLedger U db where
  inStep : ∀ inv ∈ db.invoices.rows, inv.StatusInStep
  released : ∀ inv ∈ db.invoices.rows, inv.billingStatus = .void → netApplied db inv.id = 0

lemma compute_void_iff (status : Option LegacyStatus) (verified : Bool) :
    (computeBillingPaymentFromStatus status verified).1 = .void ↔ status = some .void := by
  rcases status with _ | status
  · cases verified <;> decide
  · cases status <;> cases verified <;> decide

lemma compute_none_iff (status : Option LegacyStatus) (verified : Bool) :
    (computeBillingPaymentFromStatus status verified).2 = .none ↔ status = some .void := by
  rcases status with _ | status
  · cases verified <;> decide
  · cases status <;> cases verified <;> decide

lemma compute_split (status : Option LegacyStatus) (verified : Bool) :
    (computeBillingPaymentFromStatus status verified).1 = .void ↔
      (computeBillingPaymentFromStatus status verified).2 = .none :=
  (compute_void_iff status verified).trans (compute_none_iff status verified).symm

lemma derive_ne_void {billing : BillingStatus} {payment : PaymentStatus} (hb : billing ≠ .void)
    (hp : payment ≠ .none) : deriveLegacyStatusFromSplit billing payment ≠ .void := by
  cases billing <;> cases payment <;> simp_all [deriveLegacyStatusFromSplit]

lemma derive_taxIssued {payment : PaymentStatus} (hp : payment ≠ .none) :
    deriveLegacyStatusFromSplit .taxIssued payment = .taxIssued := by
  cases payment with
  | none => exact absurd rfl hp
  | unpaid => rfl
  | pending => rfl
  | paid => rfl

lemma derive_void_iff {inv : Invoice} (h : inv.StatusInStep) :
    inv.status = .void ↔ inv.billingStatus = .void := by
  constructor
  · intro hstatus
    by_contra hb
    exact derive_ne_void hb (fun hp => hb (h.1.mpr hp)) (h.2.symm.trans hstatus)
  · intro hb
    rw [h.2, hb]
    rfl

section Invariant

variable {U : UpperTable} {db db' : DepositDb} {invoiceId : Nat} {x : Int}

/-- Nothing is moved at a void invoice. -/
lemma StatusInvariant.moved (h : StatusInvariant U db) (hmoved : NetMoved U db db' invoiceId x)
    (hvoid : ∀ inv ∈ db.invoices.rows, inv.id = invoiceId → inv.billingStatus = .void → x = 0) :
    StatusInvariant U db' := by
  refine ⟨hmoved.ok, ?_, ?_⟩
  · rw [hmoved.invoices]
    exact h.inStep
  · intro inv hinv hb
    rw [hmoved.invoices] at hinv
    rw [hmoved.net, h.released inv hinv hb]
    split
    · next hid => rw [hvoid inv hinv hid hb, Int.add_zero]
    · rfl

/-- What is taken back at a void invoice is nothing, since the net stays non-negative. -/
lemma StatusInvariant.moved_of_nonpos (h : StatusInvariant U db)
    (hmoved : NetMoved U db db' invoiceId x) (hx : x ≤ 0) : StatusInvariant U db' := by
  refine h.moved hmoved ?_
  intro inv hinv hid hb
  have hnonneg := netApplied_nonneg hmoved.ok.ledger inv.id
  rw [hmoved.net, h.released inv hinv hb, if_pos hid] at hnonneg
  omega

lemma StatusInvariant.updateInvoice (h : StatusInvariant U db) {f : Invoice → Invoice}
    (hf : ∀ inv, (f inv).id = inv.id)
    (hrow : ∀ inv, db.invoices.find invoiceId = some inv →
      (f inv).StatusInStep ∧ ((f inv).billingStatus = .void → netApplied db invoiceId = 0)) :
    StatusInvariant U (db.updateInvoice invoiceId f hf) := by
  have hrows : ∀ inv ∈ (db.updateInvoice invoiceId f hf).invoices.rows,
      inv.StatusInStep ∧ (inv.billingStatus = .void → netApplied db inv.id = 0) := by
    intro inv hinv
    obtain ⟨old, hold, rfl⟩ := List.mem_map.mp hinv
    rw [key_onRows hf]
    unfold onRows
    by_cases hid : old.id = invoiceId
    · rw [if_pos (decide_eq_true hid), hid]
      exact hrow old (Table.find_eq_some.mpr ⟨hold, hid⟩)
    · rw [if_neg (by simpa using hid)]
      exact ⟨h.inStep old hold, h.released old hold⟩
  refine ⟨⟨h.ledger, h.named⟩, fun inv hinv => (hrows inv hinv).1, ?_⟩
  intro inv hinv hb
  exact (hrows inv hinv).2 hb

lemma StatusInvariant.setStatus (h : StatusInvariant U db) {billing : BillingStatus}
    {payment : PaymentStatus} (verified : Bool) (hsplit : billing = .void ↔ payment = .none)
    (hvoid : billing = .void → netApplied db invoiceId = 0) :
    StatusInvariant U (db.setStatus invoiceId billing payment verified) := by
  refine h.updateInvoice _ ?_
  intro inv _
  exact ⟨⟨hsplit, rfl⟩, hvoid⟩

/-- A status that is neither `void` nor `none` after a request on the retainer. -/
lemma StatusInvariant.setOpen (h : StatusInvariant U db) {billing : BillingStatus}
    {payment : PaymentStatus} (verified : Bool) (hb : billing ≠ .void) (hp : payment ≠ .none) :
    StatusInvariant U (db.setStatus invoiceId billing payment verified) :=
  h.setStatus verified ⟨fun hb' => absurd hb' hb, fun hp' => absurd hp' hp⟩
    (fun hb' => absurd hb' hb)

/-- The pair that is computed from a word of the old column. -/
lemma StatusInvariant.withSplit (h : StatusInvariant U db) (status : Option LegacyStatus)
    (verified : Bool) (hvoid : status ≠ some .void) :
    StatusInvariant U (db.updateInvoice invoiceId
      (Invoice.withSplit (computeBillingPaymentFromStatus status verified).1
        (computeBillingPaymentFromStatus status verified).2) (fun _ => rfl)) := by
  refine h.updateInvoice _ ?_
  intro inv _
  refine ⟨⟨?_, rfl⟩, ?_⟩
  · exact compute_split status verified
  · intro hb
    exact absurd ((compute_void_iff status verified).mp hb) hvoid

end Invariant

section Retainer

variable {U : UpperTable} {db db' : DepositDb} {invoiceId : Nat}

lemma StatusInvariant.applyDeposit (h : StatusInvariant U db) {amount : AmountField}
    (happly : applyDeposit U db invoiceId amount = .ok db') : StatusInvariant U db' := by
  obtain ⟨inv, db₁, x, payment, verified, hfind, hb, hmoved, -, hp, -, rfl⟩ :=
    h.toRetainerLedger.applyDeposit happly
  have h₁ : StatusInvariant U db₁ := by
    refine h.moved hmoved ?_
    intro row hrow hid hvoid
    have hrow' := Table.find_eq_some.mpr ⟨hrow, hid⟩
    rw [hfind] at hrow'
    cases hrow'
    exact absurd hvoid hb
  refine h₁.setOpen verified ?_ hp
  split
  · simp
  · exact hb

/-- A void invoice has nothing to cancel. -/
lemma StatusInvariant.cancelDepositApply (h : StatusInvariant U db) {entryId : Nat}
    (hcancel : cancelDepositApply U db invoiceId entryId = .ok db') : StatusInvariant U db' := by
  obtain ⟨inv, db₁, x, payment, verified, hfind, hpos, hmoved, hp, -, rfl⟩ :=
    h.toRetainerLedger.cancelDepositApply hcancel
  refine (h.moved_of_nonpos hmoved (by omega)).setOpen verified ?_ hp
  intro hvoid
  have hzero := h.released inv (Table.mem_of_find hfind) hvoid
  have hnonneg := netApplied_nonneg hmoved.ok.ledger invoiceId
  rw [Table.key_of_find hfind] at hzero
  rw [hmoved.net, hzero, if_pos rfl] at hnonneg
  omega

lemma StatusInvariant.clientDeposit (h : StatusInvariant U db) {bp : Option Nat} {clientId : Nat}
    {currency : Text} {amount : Int} {entryType : EntryType}
    (htype : entryType ≠ .cancelApply ∧ entryType ≠ .apply)
    (hdeposit : clientDeposit U db bp clientId currency amount entryType = .ok db') :
    StatusInvariant U db' :=
  h.moved_of_nonpos (h.toRetainerLedger.clientDeposit htype hdeposit) (Int.le_refl 0)

lemma StatusInvariant.cancelUncanceled (h : StatusInvariant U db) {out : List CanceledEntry}
    (hcancel : cancelUncanceledDepositAppliesForInvoice U db invoiceId = .ok (db', out)) :
    StatusInvariant U db' ∧ netApplied db' invoiceId = 0 := by
  obtain ⟨hmoved, hzero⟩ := h.toRetainerLedger.cancelUncanceled hcancel
  have hnonneg := netApplied_nonneg h.ledger invoiceId
  exact ⟨h.moved_of_nonpos hmoved (by omega), hzero⟩

lemma StatusInvariant.createInvoice (h : StatusInvariant U db) {form : InvoiceForm}
    (hcreate : createInvoice U db form = .ok db') : StatusInvariant U db' := by
  obtain ⟨-, hcreate⟩ := check_bind_eq_ok.mp hcreate
  obtain ⟨⟨req, statusCode⟩, hvalid, hcreate⟩ := bind_eq_ok.mp hcreate
  cases hcreate
  set created : DepositDb :=
    { db with invoices := db.invoices.insert (form.toInvoice statusCode) (fun _ => rfl) }
  have hcreated : StatusInvariant U created := by
    refine ⟨h.toRetainerLedger.insertInvoice _, ?_, ?_⟩
    · intro inv hinv
      rcases List.mem_append.mp hinv with hold | hnew
      · exact h.inStep inv hold
      · rw [List.mem_singleton.mp hnew]
        exact ⟨compute_split statusCode false, rfl⟩
    · intro inv hinv hb
      rcases List.mem_append.mp hinv with hold | hnew
      · exact h.released inv hold hb
      · rw [List.mem_singleton.mp hnew]
        exact netApplied_next h.toRetainerLedger
  unfold applyDepositIfRequested
  split
  · exact hcreated
  · next req =>
    split
    · exact hcreated
    · split
      · next happly =>
        obtain ⟨inv, db₁, x, payment, verified, hfind, hmoved, -, hp, rfl⟩ :=
          hcreated.toRetainerLedger.applyRequestedDeposit happly
        have hnew : created.invoices.find db.invoices.next =
            some (form.toInvoice statusCode db.invoices.next) :=
          Table.find_insert_next (fun _ => rfl)
        rw [hnew] at hfind
        cases hfind
        have hb : (form.toInvoice statusCode db.invoices.next).billingStatus ≠ .void := by
          intro hvoid
          exact (validateDepositRequest_eq_ok hvalid).2 ((compute_void_iff statusCode false).mp hvoid)
        refine (hcreated.moved hmoved ?_).setOpen verified hb hp
        intro row hrow hid hvoid
        have hrow' := Table.find_eq_some.mpr ⟨hrow, hid⟩
        rw [hnew] at hrow'
        cases hrow'
        exact absurd hvoid hb
      · exact hcreated

lemma StatusInvariant.deleteLoop (h : StatusInvariant U db) {ids : List Nat}
    (hloop : deleteLoop U db ids = .ok db') : StatusInvariant U db' := by
  induction ids generalizing db with
  | nil =>
    cases hloop
    exact h
  | cons id ids ih =>
    obtain ⟨⟨db₁, out⟩, hcancel, hrest⟩ := bind_eq_ok.mp hloop
    have h₁ := (h.cancelUncanceled (mapError_eq_ok.mp hcancel)).1
    obtain ⟨hledger, hnet⟩ := h₁.toRetainerLedger.deleteInvoice id
    refine ih ⟨hledger, ?_, ?_⟩ hrest
    · intro inv hinv
      exact h₁.inStep inv (List.mem_filter.mp hinv).1
    · intro inv hinv hb
      obtain ⟨hmem, hne⟩ := List.mem_filter.mp hinv
      rw [hnet inv.id (of_decide_eq_true hne)]
      exact h₁.released inv hmem hb

/-- The header of an edit with the computed pair, and then its retainer. -/
lemma StatusInvariant.editHeader (h : StatusInvariant U db) (form : EditForm)
    {billing : BillingStatus} {payment : PaymentStatus}
    (hsplit : billing = .void ↔ payment = .none)
    (hzero : billing = .void → netApplied db invoiceId = 0) :
    StatusInvariant U (Billing.applyEditDeposit U
      (db.updateInvoice invoiceId (form.header billing payment) (fun _ => rfl))
      invoiceId form billing) := by
  have hfind : ∀ row,
      (db.updateInvoice invoiceId (form.header billing payment) (fun _ => rfl)).invoices.find
        invoiceId = some row → row.billingStatus = billing := by
    intro row hrow
    have hupdate := (find_updateInvoice db invoiceId invoiceId (form.header billing payment)
      (fun _ => rfl)).trans (if_pos rfl)
    obtain ⟨old, -, rfl⟩ := Option.map_eq_some_iff.mp (hupdate.symm.trans hrow)
    rfl
  set updated := db.updateInvoice invoiceId (form.header billing payment) (fun _ => rfl)
  have hupdated : StatusInvariant U updated := by
    refine h.updateInvoice _ ?_
    intro inv _
    exact ⟨⟨hsplit, rfl⟩, hzero⟩
  obtain ⟨db₁, x, hmoved, -, hx, hend⟩ :=
    (hupdated.toRetainerLedger.applyEditDeposit form billing).moved
  have h₁ : StatusInvariant U db₁ := by
    refine hupdated.moved hmoved ?_
    intro row hrow hid hvoid
    rw [hfind row (Table.find_eq_some.mpr ⟨hrow, hid⟩)] at hvoid
    rcases hx with hx | ⟨hb, -⟩
    · exact hx
    · exact absurd hvoid hb
  rcases hend with heq | ⟨hb, payment', verified, hp, heq⟩
  · rw [heq]
    exact h₁
  · rw [heq]
    exact h₁.setOpen verified hb hp

lemma StatusInvariant.editInvoice (h : StatusInvariant U db) {form : EditForm}
    (hedit : editInvoice U db invoiceId form = .ok db') : StatusInvariant U db' := by
  obtain ⟨inv, -, hedit⟩ := bind_eq_ok.mp hedit
  have hsplit := compute_split form.statusCode inv.paymentVerified
  dsimp only at hedit
  split at hedit
  · obtain ⟨⟨db₁, out⟩, hcancel, hedit⟩ := bind_eq_ok.mp hedit
    cases hedit
    obtain ⟨h₁, hzero⟩ := h.cancelUncanceled hcancel
    exact h₁.editHeader form hsplit (fun _ => hzero)
  · next hvoid =>
    obtain ⟨db₁, hdb, hedit⟩ := bind_eq_ok.mp hedit
    cases hdb
    cases hedit
    exact h.editHeader form hsplit (fun hvoid' => absurd hvoid' hvoid)

end Retainer

/-! ### Updates of the status -/

section Updates

variable {U : UpperTable} {db db' : DepositDb} {invoiceId : Nat}

/-- `update_invoice_status` with `void` is the request that the ledger knows. -/
lemma updateInvoiceStatus_void (confirm : Bool) :
    updateInvoiceStatus U db invoiceId .void confirm = voidInvoice U db invoiceId := by
  unfold updateInvoiceStatus voidInvoice
  congr 1
  funext inv
  have hallowed : decide (LegacyStatus.void ∈ statusTransitions inv.status) =
      voidAllowed inv.status := by
    cases inv.status <;> rfl
  have hsplit : computeBillingPaymentFromStatus (some .void) inv.paymentVerified =
      (.void, .none) := by
    cases inv.paymentVerified <;> rfl
  rw [hallowed, hsplit]
  rfl

lemma StatusInvariant.voidInvoice (h : StatusInvariant U db)
    (hvoid : voidInvoice U db invoiceId = .ok db') : StatusInvariant U db' := by
  obtain ⟨inv, -, hvoid⟩ := bind_eq_ok.mp hvoid
  obtain ⟨-, hvoid⟩ := check_bind_eq_ok.mp hvoid
  obtain ⟨⟨db₁, out⟩, hcancel, hvoid⟩ := bind_eq_ok.mp hvoid
  cases hvoid
  obtain ⟨h₁, hzero⟩ := h.cancelUncanceled (mapError_eq_ok.mp hcancel)
  exact h₁.setStatus false (by simp) (fun _ => hzero)

/-- Tax documents are recorded for an invoice that is not void; its payment status stays. -/
lemma StatusInvariant.taxIssued (h : StatusInvariant U db) {inv : Invoice}
    (hfind : db.invoices.find invoiceId = some inv) (hb : inv.billingStatus ≠ .void)
    {f : Invoice → Invoice} (hf : ∀ inv, (f inv).id = inv.id)
    (hbilling : (f inv).billingStatus = .taxIssued)
    (hpayment : (f inv).paymentStatus = inv.paymentStatus)
    (hstatus : inv.paymentStatus ≠ .none → (f inv).status = .taxIssued) :
    StatusInvariant U (db.updateInvoice invoiceId f hf) := by
  refine h.updateInvoice hf ?_
  intro row hrow
  rw [hfind] at hrow
  cases hrow
  have hp : inv.paymentStatus ≠ .none := by
    intro hp
    exact hb ((h.inStep inv (Table.mem_of_find hfind)).1.mpr hp)
  unfold Invoice.StatusInStep
  rw [hbilling, hpayment, hstatus hp, derive_taxIssued hp]
  refine ⟨⟨⟨?_, ?_⟩, rfl⟩, ?_⟩
  · intro hvoid
    cases hvoid
  · intro hnone
    exact absurd hnone hp
  · intro hvoid
    cases hvoid

lemma StatusInvariant.updateInvoiceStatus (h : StatusInvariant U db) {newStatus : LegacyStatus}
    {confirm : Bool} (hupdate : updateInvoiceStatus U db invoiceId newStatus confirm = .ok db') :
    StatusInvariant U db' := by
  by_cases hvoid : newStatus = .void
  · rw [hvoid, updateInvoiceStatus_void] at hupdate
    exact h.voidInvoice hupdate
  · unfold Billing.updateInvoiceStatus at hupdate
    simp only [bind_eq_ok, check_eq_ok, exists_const, decide_eq_true_eq] at hupdate
    obtain ⟨inv, hfound, hallowed, -, hupdate⟩ := hupdate
    split at hupdate
    · obtain ⟨_, -, hupdate⟩ := bind_eq_ok.mp hupdate
      cases hupdate
      have hfind := find_of_findInvoice hfound
      refine h.taxIssued hfind ?_ _ rfl rfl ?_
      · intro hb
        rw [(derive_void_iff (h.inStep inv (Table.mem_of_find hfind))).mpr hb] at hallowed
        exact absurd hallowed (by decide)
      · intro _
        cases inv.paymentVerified <;> rfl
    · exact absurd rfl hvoid
    · cases hupdate
      exact h.withSplit (some newStatus) inv.paymentVerified (fun heq => hvoid (Option.some.inj heq))

/-- Two `UPDATE`s of one invoice. -/
lemma updateInvoice_updateInvoice (db : DepositDb) (id : Nat) {f g : Invoice → Invoice}
    (hf : ∀ inv, (f inv).id = inv.id) (hg : ∀ inv, (g inv).id = inv.id) :
    (db.updateInvoice id f hf).updateInvoice id g hg =
      db.updateInvoice id (fun inv => g (f inv)) (fun inv => (hg (f inv)).trans (hf inv)) := by
  have hrows : ∀ inv, onRows (fun inv => decide (inv.id = id)) g
      (onRows (fun inv => decide (inv.id = id)) f inv) =
        onRows (fun inv => decide (inv.id = id)) (fun inv => g (f inv)) inv := by
    intro inv
    by_cases hid : inv.id = id
    · simp [onRows, hid, hf]
    · simp [onRows, hid]
  simp only [DepositDb.updateInvoice, Table.update, List.map_map]
  congr 2
  exact List.map_congr_left (fun inv _ => hrows inv)

/-- The entries that a failing cancellation leaves behind. -/
lemma RetainerLedger.cancelAppliesUntilError (as : List LedgerEntry) (h : RetainerLedger U db)
    (has : uncanceledApplies db.ledger.rows invoiceId = as) :
    ∃ x, NetMoved U db (cancelAppliesUntilError U invoiceId db as) invoiceId x ∧ x ≤ 0 := by
  induction as generalizing db with
  | nil => exact ⟨0, .refl h invoiceId, Int.le_refl 0⟩
  | cons a as ih =>
    have ha : a ∈ uncanceledApplies db.ledger.rows invoiceId := by
      rw [has]
      exact List.mem_cons_self
    rw [Billing.cancelAppliesUntilError, if_neg (h.ledger.not_skipped ha)]
    split
    · next db₁ result hins =>
      have hmoved := h.insertEntry (namesInvoice_cancelCall h.ledger ha) hins (.inr rfl) rfl
      obtain ⟨x, hrest, hx⟩ := ih hmoved.ok (cancel_first h.ledger has hins).1
      refine ⟨_, hmoved.trans hrest, ?_⟩
      obtain ⟨hmem, -, htype, -⟩ := mem_uncanceledApplies.mp ha
      have hneg := h.ledger.apply_neg a hmem htype
      simp only [cancelCall]
      omega
    · exact ⟨0, .refl h invoiceId, Int.le_refl 0⟩

lemma StatusInvariant.bulkBillingOne (h : StatusInvariant U db) (newStatus : BillingStatus)
    (id : Nat) : StatusInvariant U (bulkBillingOne U newStatus db id).1 := by
  unfold Billing.bulkBillingOne
  split
  · exact h
  · next inv hfind =>
    split
    · exact h
    · next hallowed =>
      dsimp only
      split
      · unfold syncLegacyStatus
        rw [updateInvoice_updateInvoice]
        apply h.taxIssued hfind
        · intro hb
          rw [hb] at hallowed
          exact hallowed (by decide)
        · intro _
          rfl
        · rfl
        · rfl
        · exact derive_taxIssued
      · split
        · next db₁ out hcancel =>
          obtain ⟨h₁, hzero⟩ := h.cancelUncanceled hcancel
          exact h₁.setStatus false (compute_split _ _) (fun _ => hzero)
        · obtain ⟨x, hmoved, hx⟩ := h.toRetainerLedger.cancelAppliesUntilError _ rfl
          exact h.moved_of_nonpos hmoved hx
      · next hvoid =>
        refine h.withSplit (some newStatus.toLegacy) inv.paymentVerified ?_
        cases newStatus <;> simp_all [BillingStatus.toLegacy]

/-- Of an invoice that is not void the payment status may be written alone. -/
lemma StatusInvariant.bulkPaymentOne (h : StatusInvariant U db) {newStatus : PaymentStatus}
    (hnew : newStatus ≠ .none) {id : Nat}
    (hopen : newStatus ≠ .paid → ∀ inv, db.invoices.find id = some inv →
      inv.billingStatus ≠ .void) :
    StatusInvariant U (bulkPaymentOne U newStatus db id).1 := by
  unfold Billing.bulkPaymentOne
  split
  · exact h
  · next inv hfind =>
    split
    · exact h
    · next hallowed =>
      split
      · exact h
      · dsimp only
        unfold syncLegacyStatus
        rw [updateInvoice_updateInvoice]
        have hb : inv.billingStatus ≠ .void := by
          intro hvoid
          by_cases hpaid : newStatus = .paid
          · rw [(h.inStep inv (Table.mem_of_find hfind)).1.mp hvoid, hpaid] at hallowed
            exact hallowed (by decide)
          · exact hopen hpaid inv hfind hvoid
        refine h.updateInvoice _ ?_
        intro row hrow
        rw [hfind] at hrow
        cases hrow
        refine ⟨⟨⟨?_, ?_⟩, rfl⟩, ?_⟩
        · intro hvoid
          exact absurd hvoid hb
        · intro hnone
          exact absurd hnone hnew
        · intro hvoid
          exact absurd hvoid hb

/-- The payment mode leaves the billing status of every invoice alone. -/
lemma billingStatus_bulkPaymentOne {newStatus : PaymentStatus} {id k : Nat} {inv : Invoice}
    (hfind : (bulkPaymentOne U newStatus db id).1.invoices.find k = some inv) :
    ∃ old, db.invoices.find k = some old ∧ old.billingStatus = inv.billingStatus := by
  unfold bulkPaymentOne at hfind
  split at hfind
  · exact ⟨inv, hfind, rfl⟩
  · split at hfind
    · exact ⟨inv, hfind, rfl⟩
    · split at hfind
      · exact ⟨inv, hfind, rfl⟩
      · dsimp only at hfind
        unfold syncLegacyStatus at hfind
        rw [updateInvoice_updateInvoice, find_updateInvoice] at hfind
        split at hfind
        · obtain ⟨old, hold, rfl⟩ := Option.map_eq_some_iff.mp hfind
          exact ⟨old, hold, rfl⟩
        · exact ⟨inv, hfind, rfl⟩

/-- What every round of a bulk update keeps, the loop keeps. -/
lemma bulkLoop_invariant {one : DepositDb → Nat → DepositDb × BulkOutcome}
    {I : List Nat → DepositDb → Prop}
    (hone : ∀ db id ids, I (id :: ids) db → I ids (one db id).1) (ids : List Nat)
    (h : I ids db) : I [] (bulkLoop one db ids).1 := by
  induction ids generalizing db with
  | nil => exact h
  | cons id ids ih => exact ih (hone db id ids h)

end Updates

/-- No bulk update makes a void invoice unpaid or pending. -/
def leavesVoidAlone (db : DepositDb) : StatusRequest → Bool
  | .bulkUpdatePayment ids newStatus =>
    newStatus = .paid ∨ ids.all (fun id =>
      (db.invoices.find id).all (fun inv => inv.billingStatus ≠ .void))
  | _ => true

section Runs

variable {U : UpperTable} {db db' : DepositDb}

lemma StatusInvariant.bulkUpdateBilling (h : StatusInvariant U db) {ids : List Nat}
    {newStatus : BillingStatus} {r : DepositDb × List (Nat × BulkOutcome)}
    (hbulk : bulkUpdateBilling U db ids newStatus = .ok r) : StatusInvariant U r.1 := by
  obtain ⟨-, hbulk⟩ := check_bind_eq_ok.mp hbulk
  cases hbulk
  refine bulkLoop_invariant (I := fun _ db => StatusInvariant U db) ?_ ids h
  intro t id rest ht
  exact ht.bulkBillingOne newStatus id

lemma StatusInvariant.bulkUpdatePayment (h : StatusInvariant U db) {ids : List Nat}
    {newStatus : PaymentStatus} {r : DepositDb × List (Nat × BulkOutcome)}
    (hopen : leavesVoidAlone db (.bulkUpdatePayment ids newStatus) = true)
    (hbulk : bulkUpdatePayment U db ids newStatus = .ok r) : StatusInvariant U r.1 := by
  obtain ⟨-, hbulk⟩ := check_bind_eq_ok.mp hbulk
  obtain ⟨hnew, hbulk⟩ := check_bind_eq_ok.mp hbulk
  cases hbulk
  have hstart : newStatus ≠ .paid → ∀ id ∈ ids, ∀ inv, db.invoices.find id = some inv →
      inv.billingStatus ≠ .void := by
    intro hpaid id hid inv hfind
    simp only [leavesVoidAlone, decide_eq_true_eq] at hopen
    have hall := List.all_eq_true.mp (hopen.resolve_left hpaid) id hid
    rw [hfind] at hall
    exact of_decide_eq_true hall
  refine (bulkLoop_invariant (I := fun ids db => StatusInvariant U db ∧
    (newStatus ≠ .paid → ∀ id ∈ ids, ∀ inv, db.invoices.find id = some inv →
      inv.billingStatus ≠ .void)) ?_ ids ⟨h, hstart⟩).1
  rintro t id rest ⟨ht, hrest⟩
  refine ⟨ht.bulkPaymentOne (of_decide_eq_true hnew) (fun hpaid => hrest hpaid id List.mem_cons_self), ?_⟩
  intro hpaid k hk inv hfind
  obtain ⟨old, hold, heq⟩ := billingStatus_bulkPaymentOne hfind
  rw [← heq]
  exact hrest hpaid k (List.mem_cons_of_mem _ hk) old hold

lemma map_fst_eq_ok {α β : Type} {x : Except String (α × β)} {a : α}
    (h : x.map Prod.fst = .ok a) : ∃ b, x = .ok (a, b) := by
  cases x with
  | error text => cases h
  | ok r =>
    cases h
    exact ⟨r.2, rfl⟩

lemma StatusInvariant.handle (h : StatusInvariant U db) {r : StatusRequest}
    (hopen : leavesVoidAlone db r = true) (hhandle : statusHandle U db r = .ok db') :
    StatusInvariant U db' := by
  cases r with
  | createInvoice form => exact h.createInvoice hhandle
  | updateInvoiceStatus invoiceId newStatus confirm => exact h.updateInvoiceStatus hhandle
  | bulkUpdateBilling ids newStatus =>
    obtain ⟨outcomes, hbulk⟩ := map_fst_eq_ok hhandle
    exact h.bulkUpdateBilling hbulk
  | bulkUpdatePayment ids newStatus =>
    obtain ⟨outcomes, hbulk⟩ := map_fst_eq_ok hhandle
    exact h.bulkUpdatePayment hopen hbulk
  | editInvoice invoiceId form => exact h.editInvoice hhandle
  | applyDeposit invoiceId amount => exact h.applyDeposit hhandle
  | cancelDepositApply invoiceId entryId => exact h.cancelDepositApply hhandle
  | deleteInvoices ids skipMissing =>
    obtain ⟨snapshots, -, hloop⟩ := bind_eq_ok.mp hhandle
    exact h.deleteLoop hloop
  | topup bp clientId currency amount =>
    exact h.clientDeposit (by decide) (check_bind_eq_ok.mp hhandle).2
  | refund bp clientId currency amount =>
    exact h.clientDeposit (by decide) (check_bind_eq_ok.mp hhandle).2
  | adjust bp clientId currency amount =>
    exact h.clientDeposit (by decide) (check_bind_eq_ok.mp hhandle).2

lemma statusInvariant_empty : StatusInvariant U .empty := by
  refine ⟨retainerLedger_empty, ?_, ?_⟩
  · intro inv hinv
    cases hinv
  · intro inv hinv
    cases hinv

/-- As long as no bulk update makes a void invoice unpaid or pending, an invoice is void when
it has no payment status, and the old column is the one derived from the other two. -/
theorem status_columns_in_step {rs : List StatusRequest}
    (h : GuardedRun (statusStep U) (fun db r => leavesVoidAlone db r = true) .empty rs db) :
    ∀ inv ∈ db.invoices.rows, (inv.billingStatus = .void ↔ inv.paymentStatus = .none) ∧
      inv.status = deriveLegacyStatusFromSplit inv.billingStatus inv.paymentStatus := by
  have hI : StatusInvariant U db := by
    refine h.invariant statusInvariant_empty ?_
    intro t r u ht hopen hstep
    exact ht.handle hopen (stepOf_eq_some.mp hstep)
  exact hI.inStep

end Runs

/-- An invoice is created, sent, voided and then part of a bulk update. -/
def requestsWithBulkPayment (ids : List Nat) (newStatus : PaymentStatus) : List StatusRequest :=
  [.topup (some 1) 7 "USD".toList 200,
    .createInvoice ⟨7, 1, "USD".toList, 100, some .draft, none⟩,
    .createInvoice ⟨7, 1, "USD".toList, 100, some .sent, some (.minor 60)⟩,
    .updateInvoiceStatus 1 .sent false, .bulkUpdateBilling [1] .void,
    .bulkUpdatePayment ids newStatus]

theorem status_columns_in_step_after_bulk :
    ∃ db, GuardedRun (statusStep asciiTable) (fun db r => leavesVoidAlone db r = true) .empty
        (requestsWithBulkPayment [2, 3] .unpaid) db ∧
      db.invoices.rows.map (fun inv => (inv.status, inv.billingStatus, inv.paymentStatus)) =
        [(.void, .void, .none), (.sent, .sent, .unpaid)] ∧
      ∀ inv ∈ db.invoices.rows, inv.billingStatus = .void ↔ inv.paymentStatus = .none :=
  exists_guardedRun rfl (fun hrun => ⟨rfl, fun inv hinv => (status_columns_in_step hrun inv hinv).1⟩)

/-- A void invoice becomes unpaid and stays void. -/
theorem status_columns_out_of_step :
    ¬∀ (rs : List StatusRequest) (db : DepositDb), Run (statusStep asciiTable) .empty rs db →
      ∀ inv ∈ db.invoices.rows, (inv.billingStatus = .void ↔ inv.paymentStatus = .none) ∧
        inv.status = deriveLegacyStatusFromSplit inv.billingStatus inv.paymentStatus := by
  intro h
  have hrun : Run (statusStep asciiTable) .empty (requestsWithBulkPayment [1] .unpaid) _ :=
    guardedRun_of_execute rfl
  have hiff := (h _ _ hrun _ List.mem_cons_self).1
  exact absurd (hiff.mp rfl) (by decide)

end IpDocket.Billing
