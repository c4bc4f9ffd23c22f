import IpDocket.Billing.RetainerMoves

/-!
# How much of a retainer is applied to an invoice

An application is capped by what is outstanding when it is made, and the total of an invoice
changes only when the invoice is edited. The ledger alone says that no more is cancelled than
was applied; the bound from above needs the edits to look at what has been applied.
-/

namespace IpDocket.Billing
open IpDocket.Lib

/-- The columns that `save_payment_meta` writes here: the meta itself is no part of the
database of this model. -/
def savePaymentMetaColumns (db : DepositDb) (invoiceId : Nat) : Except String DepositDb := do
  let inv ← findInvoice db invoiceId
  check (inv.status ≠ .void ∧ (inv.status = .paid → inv.paymentVerified = false))
    "Payment verification is already complete and cannot be edited."
  return db.updateInvoice invoiceId (fun inv => { inv with paymentVerified := false })
    (fun _ => rfl)

inductive RetainerRequest
  | deposit (r : DepositRequest)
  | savePaymentMeta (invoiceId : Nat)

section Step

variable (U : UpperTable)

def retainerHandle (db : DepositDb) : RetainerRequest → Except String DepositDb
  | .deposit r => handle U db r
  | .savePaymentMeta invoiceId => savePaymentMetaColumns db invoiceId

abbrev retainerStep : DepositDb → RetainerRequest → Option DepositDb := stepOf (retainerHandle U)

end Step

structure RetainerInvariant (U : UpperTable) (db : DepositDb) : Prop extends
    RetainerLedger U db where
  bounded : ∀ inv ∈ db.invoices.rows, netApplied db inv.id ≤ inv.totalMinor

section Requests

variable {U : UpperTable} {db db' : DepositDb} {invoiceId : Nat} {x : Int}

/-- A move that stays below the total of its invoice. -/
lemma RetainerInvariant.moved (h : RetainerInvariant U db) (hmoved : NetMoved U db db' invoiceId x)
    (hle : ∀ inv ∈ db.invoices.rows, inv.id = invoiceId →
      netApplied db invoiceId + x ≤ inv.totalMinor) : RetainerInvariant U db' := by
  refine ⟨hmoved.ok, ?_⟩
  intro inv hinv
  rw [hmoved.invoices] at hinv
  rw [hmoved.net]
  split
  · next hid =>
    rw [hid]
    exact hle inv hinv hid
  · rw [Int.add_zero]
    exact h.bounded inv hinv

/-- An `UPDATE` of an invoice with a total that covers what is applied. -/
lemma RetainerLedger.updateInvoice (h : RetainerLedger U db) {f : Invoice → Invoice}
    (hf : ∀ inv, (f inv).id = inv.id)
    (hle : ∀ inv ∈ db.invoices.rows, netApplied db inv.id ≤
      if inv.id = invoiceId then (f inv).totalMinor else inv.totalMinor) :
    RetainerInvariant U (db.updateInvoice invoiceId f hf) := by
  refine ⟨⟨h.ledger, h.named⟩, ?_⟩
  intro inv hinv
  obtain ⟨old, hold, rfl⟩ := List.mem_map.mp hinv
  have hbound := hle old hold
  change netApplied db _ ≤ _
  rw [key_onRows hf]
  unfold onRows
  by_cases hid : old.id = invoiceId
  · rw [if_pos hid] at hbound
    rw [if_pos (decide_eq_true hid)]
    exact hbound
  · rw [if_neg hid] at hbound
    rw [if_neg (by simpa using hid)]
    exact hbound

lemma RetainerInvariant.setStatus (h : RetainerInvariant U db) (id : Nat)
    (billing : BillingStatus) (payment : PaymentStatus) (verified : Bool) :
    RetainerInvariant U (db.setStatus id billing payment verified) := by
  refine h.toRetainerLedger.updateInvoice _ ?_
  intro inv hinv
  rw [Invoice.withStatus, ite_self]
  exact h.bounded inv hinv

lemma RetainerInvariant.applyDeposit (h : RetainerInvariant U db) {amount : AmountField}
    (happly : applyDeposit U db invoiceId amount = .ok db') : RetainerInvariant U db' := by
  obtain ⟨inv, db₁, x, payment, verified, hfind, -, hmoved, hle, -, -, rfl⟩ :=
    h.toRetainerLedger.applyDeposit happly
  refine RetainerInvariant.setStatus (h.moved hmoved ?_) _ _ _ _
  intro row hrow hid
  rw [Table.eq_of_key_eq hrow (Table.mem_of_find hfind) (hid.trans (Table.key_of_find hfind).symm)]
  exact hle

lemma RetainerInvariant.cancelDepositApply (h : RetainerInvariant U db) {entryId : Nat}
    (hcancel : cancelDepositApply U db invoiceId entryId = .ok db') : RetainerInvariant U db' := by
  obtain ⟨inv, db₁, x, payment, verified, -, hpos, hmoved, -, -, rfl⟩ :=
    h.toRetainerLedger.cancelDepositApply hcancel
  refine RetainerInvariant.setStatus (h.moved hmoved ?_) _ _ _ _
  intro row hrow hid
  have hbound := h.bounded row hrow
  rw [hid] at hbound
  omega

lemma RetainerInvariant.clientDeposit (h : RetainerInvariant U db) {bp : Option Nat}
    {clientId : Nat} {currency : Text} {amount : Int} {entryType : EntryType}
    (htype : entryType ≠ .cancelApply ∧ entryType ≠ .apply)
    (hdeposit : clientDeposit U db bp clientId currency amount entryType = .ok db') :
    RetainerInvariant U db' := by
  refine h.moved (h.toRetainerLedger.clientDeposit htype hdeposit) ?_
  intro inv hinv hid
  have hbound := h.bounded inv hinv
  rw [hid] at hbound
  omega

lemma RetainerInvariant.createInvoice (h : RetainerInvariant U db) {form : InvoiceForm}
    (htotal : 0 ≤ form.totalMinor) (hcreate : createInvoice U db form = .ok db') :
    RetainerInvariant U db' := by
  obtain ⟨-, hcreate⟩ := check_bind_eq_ok.mp hcreate
  obtain ⟨⟨req, statusCode⟩, hvalid, hcreate⟩ := bind_eq_ok.mp hcreate
  cases hcreate
  set created : DepositDb :=
    { db with invoices := db.invoices.insert (form.toInvoice statusCode) (fun _ => rfl) }
  have hzero := netApplied_next h.toRetainerLedger
  have hcreated : RetainerInvariant U created := by
    refine ⟨h.toRetainerLedger.insertInvoice _, ?_⟩
    intro inv hinv
    rcases List.mem_append.mp hinv with hold | hnew
    · exact h.bounded inv hold
    · rw [List.mem_singleton.mp hnew]
      exact hzero.trans_le htotal
  unfold applyDepositIfRequested
  split
  · exact hcreated
  · next req =>
    split
    · exact hcreated
    · split
      · next happly =>
        obtain ⟨_, db₁, x, payment, verified, -, hmoved, hx, -, rfl⟩ :=
          hcreated.toRetainerLedger.applyRequestedDeposit happly
        refine RetainerInvariant.setStatus (hcreated.moved hmoved ?_) _ _ _ _
        intro inv hinv hid
        have hnew : created.invoices.find db.invoices.next =
            some (form.toInvoice statusCode db.invoices.next) :=
          Table.find_insert_next (fun _ => rfl)
        have hrow := Table.find_of_mem hinv
        rw [hid, hnew] at hrow
        cases hrow
        have hle := (validateDepositRequest_eq_ok hvalid).1
        have hnet : netApplied created db.invoices.next = 0 := hzero
        rw [hnet]
        change 0 + x ≤ form.totalMinor
        omega
      · exact hcreated

lemma RetainerInvariant.applyEditDeposit (h : RetainerInvariant U db) {form : EditForm}
    (billing : BillingStatus) (htotal : ∀ inv ∈ db.invoices.rows, inv.id = invoiceId →
      inv.totalMinor = form.totalMinor) :
    RetainerInvariant U (applyEditDeposit U db invoiceId form billing) := by
  obtain ⟨db₁, x, hmoved, -, hx, hend⟩ := (h.toRetainerLedger.applyEditDeposit form billing).moved
  have h₁ : RetainerInvariant U db₁ := by
    refine h.moved hmoved ?_
    intro inv hinv hid
    have hbound := h.bounded inv hinv
    rw [hid] at hbound
    rcases hx with hzero | ⟨-, hle⟩
    · omega
    · rw [htotal inv hinv hid]
      exact hle
  rcases hend with heq | ⟨-, payment, verified, -, heq⟩
  · rw [heq]
    exact h₁
  · rw [heq]
    exact h₁.setStatus _ _ _ _

/-- Cancelling everything that is applied keeps the bounds, whatever the total is. -/
lemma RetainerInvariant.cancelUncanceled (h : RetainerInvariant U db) {out : List CanceledEntry}
    (hcancel : cancelUncanceledDepositAppliesForInvoice U db invoiceId = .ok (db', out)) :
    RetainerInvariant U db' ∧ netApplied db' invoiceId = 0 := by
  obtain ⟨hmoved, hzero⟩ := h.toRetainerLedger.cancelUncanceled hcancel
  refine ⟨h.moved hmoved ?_, hzero⟩
  intro inv hinv hid
  have hbound := h.bounded inv hinv
  have hnonneg := netApplied_nonneg h.ledger invoiceId
  rw [hid] at hbound
  omega

lemma RetainerInvariant.voidInvoice (h : RetainerInvariant U db)
    (hvoid : voidInvoice U db invoiceId = .ok db') : RetainerInvariant U db' := by
  obtain ⟨inv, -, hvoid⟩ := bind_eq_ok.mp hvoid
  obtain ⟨-, hvoid⟩ := check_bind_eq_ok.mp hvoid
  obtain ⟨⟨db₁, out⟩, hcancel, hvoid⟩ := bind_eq_ok.mp hvoid
  cases hvoid
  exact (h.cancelUncanceled (mapError_eq_ok.mp hcancel)).1.setStatus _ _ _ _

lemma RetainerInvariant.deleteInvoice (h : RetainerInvariant U db) (id : Nat) :
    RetainerInvariant U (db.deleteInvoice id) := by
  obtain ⟨hledger, hnet⟩ := h.toRetainerLedger.deleteInvoice id
  refine ⟨hledger, ?_⟩
  intro inv hinv
  obtain ⟨hmem, hne⟩ := List.mem_filter.mp hinv
  rw [hnet inv.id (of_decide_eq_true hne)]
  exact h.bounded inv hmem

lemma RetainerInvariant.deleteLoop (h : RetainerInvariant U db) {ids : List Nat}
    (hloop : deleteLoop U db ids = .ok db') : RetainerInvariant U db' := by
  induction ids generalizing db with
  | nil =>
    cases hloop
    exact h
  | cons id ids ih =>
    obtain ⟨⟨db₁, out⟩, hcancel, hrest⟩ := bind_eq_ok.mp hloop
    have h₁ := (h.cancelUncanceled (mapError_eq_ok.mp hcancel)).1
    exact ih (h₁.deleteInvoice id) hrest

end Requests

/-- A new invoice has no negative total, and an edit that is let through leaves a total that
covers what is applied to the invoice. An edit that voids the invoice cancels that first. -/
def totalCovers (db : DepositDb) : RetainerRequest → Bool
  | .deposit (.createInvoice form) => 0 ≤ form.totalMinor
  | .deposit (.editInvoice invoiceId form) =>
    match editGate db invoiceId form with
    | .error _ => true
    | .ok inv =>
      if (computeBillingPaymentFromStatus form.statusCode inv.paymentVerified).1 = .void then
        0 ≤ form.totalMinor
      else netApplied db invoiceId ≤ form.totalMinor
  | _ => true

section Runs

variable {U : UpperTable} {db db' : DepositDb} {invoiceId : Nat}

/-- The header with the new total, when the total covers what is applied. -/
lemma RetainerInvariant.editHeader (h : RetainerInvariant U db) {form : EditForm}
    (billing : BillingStatus) (payment : PaymentStatus)
    (hle : netApplied db invoiceId ≤ form.totalMinor) :
    RetainerInvariant U
      (Billing.applyEditDeposit U
        (db.updateInvoice invoiceId (form.header billing payment) (fun _ => rfl))
        invoiceId form billing) := by
  have hupdated : RetainerInvariant U
      (db.updateInvoice invoiceId (form.header billing payment) (fun _ => rfl)) := by
    refine h.updateInvoice _ ?_
    intro inv hinv
    split
    · next hid =>
      rw [hid]
      exact hle
    · exact h.bounded inv hinv
  refine hupdated.applyEditDeposit billing ?_
  intro inv hinv hid
  obtain ⟨old, _, rfl⟩ := List.mem_map.mp hinv
  have hold : old.id = invoiceId := by
    unfold onRows at hid
    split at hid <;> exact hid
  rw [onRows, if_pos (decide_eq_true hold)]
  rfl

lemma RetainerInvariant.editInvoice (h : RetainerInvariant U db) {form : EditForm}
    (hcovers : totalCovers db (.deposit (.editInvoice invoiceId form)) = true)
    (hedit : editInvoice U db invoiceId form = .ok db') : RetainerInvariant U db' := by
  obtain ⟨inv, hgate, hedit⟩ := bind_eq_ok.mp hedit
  simp only [totalCovers, hgate] at hcovers
  dsimp only at hedit
  split at hedit
  · next hvoid =>
    rw [if_pos hvoid] at hcovers
    obtain ⟨⟨db₁, out⟩, hcancel, hedit⟩ := bind_eq_ok.mp hedit
    cases hedit
    obtain ⟨h₁, hzero⟩ := h.cancelUncanceled hcancel
    refine h₁.editHeader _ _ ?_
    rw [hzero]
    exact of_decide_eq_true hcovers
  · next hvoid =>
    rw [if_neg hvoid] at hcovers
    obtain ⟨db₁, hdb, hedit⟩ := bind_eq_ok.mp hedit
    cases hdb
    cases hedit
    exact h.editHeader _ _ (of_decide_eq_true hcovers)

lemma RetainerInvariant.savePaymentMeta (h : RetainerInvariant U db)
    (hsave : savePaymentMetaColumns db invoiceId = .ok db') : RetainerInvariant U db' := by
  obtain ⟨inv, -, hsave⟩ := bind_eq_ok.mp hsave
  obtain ⟨-, hsave⟩ := check_bind_eq_ok.mp hsave
  cases hsave
  refine h.updateInvoice _ ?_
  intro inv hinv
  rw [ite_self]
  exact h.bounded inv hinv

lemma RetainerInvariant.handle (h : RetainerInvariant U db) {r : RetainerRequest}
    (hcovers : totalCovers db r = true) (hhandle : retainerHandle U db r = .ok db') :
    RetainerInvariant U db' := by
  cases r with
  | savePaymentMeta invoiceId => exact h.savePaymentMeta hhandle
  | deposit r =>
    cases r with
    | createInvoice form => exact h.createInvoice (of_decide_eq_true hcovers) hhandle
    | applyDeposit invoiceId amount => exact h.applyDeposit hhandle
    | cancelDepositApply invoiceId entryId => exact h.cancelDepositApply hhandle
    | editInvoice invoiceId form => exact h.editInvoice hcovers hhandle
    | voidInvoice invoiceId => exact h.voidInvoice hhandle
    | deleteInvoices ids skipMissing =>
      obtain ⟨snapshots, -, hloop⟩ := bind_eq_ok.mp hhandle
      exact h.deleteLoop hloop
    | topup bp clientId currency amount =>
      exact h.clientDeposit (by decide) (check_bind_eq_ok.mp hhandle).2
    | refund bp clientId currency amount =>
      exact h.clientDeposit (by decide) (check_bind_eq_ok.mp hhandle).2
    | adjust bp clientId currency amount =>
      exact h.clientDeposit (by decide) (check_bind_eq_ok.mp hhandle).2
    | statusColumns invoiceId billing payment verified =>
      cases hhandle
      exact h.setStatus invoiceId billing payment verified
    | burnIds =>
      cases hhandle
      exact ⟨h.toRetainerLedger.burnIds, h.bounded⟩

lemma retainerInvariant_empty : RetainerInvariant U .empty := by
  refine ⟨retainerLedger_empty, ?_⟩
  intro inv hinv
  cases hinv

/-- As long as every new invoice has a total and every edit leaves one that covers what is
applied, the net retainer of every invoice is between zero and its total. -/
theorem net_applied_within_total {rs : List RetainerRequest}
    (h : GuardedRun (retainerStep U) (fun db r => totalCovers db r = true) .empty rs db) :
    ∀ inv ∈ db.invoices.rows, 0 ≤ netApplied db inv.id ∧ netApplied db inv.id ≤ inv.totalMinor := by
  have hI : RetainerInvariant U db := by
    refine h.invariant retainerInvariant_empty ?_
    intro t r u ht hcovers hstep
    exact ht.handle hcovers (stepOf_eq_some.mp hstep)
  intro inv hinv
  exact ⟨netApplied_nonneg hI.ledger inv.id, hI.bounded inv hinv⟩

end Runs

/-- An invoice of 100, to which 60 are applied. -/
def partlyAppliedForm : InvoiceForm := ⟨7, 1, "USD".toList, 100, some .sent, some (.minor 60)⟩

def newTotalForm (totalMinor : Int) : EditForm :=
  { clientId := 7, businessProfileId := 1, currency := "USD".toList, totalMinor := totalMinor,
    statusCode := some .sent, deposit := none, lineError := false }

def requestsWithNewTotal (totalMinor : Int) : List RetainerRequest :=
  [.deposit (.topup (some 1) 7 "USD".toList 200), .deposit (.createInvoice partlyAppliedForm),
    .savePaymentMeta 1, .deposit (.editInvoice 1 (newTotalForm totalMinor))]

theorem net_applied_within_total_after_edit :
    ∃ db, GuardedRun (retainerStep asciiTable) (fun db r => totalCovers db r = true) .empty
        (requestsWithNewTotal 80) db ∧
      (∃ inv, db.invoices.rows = [inv] ∧ inv.totalMinor = 80 ∧ inv.id = 1) ∧
      netApplied db 1 = 60 ∧ ∀ inv ∈ db.invoices.rows, netApplied db inv.id ≤ inv.totalMinor :=
  exists_guardedRun rfl (fun hrun => ⟨⟨_, rfl, rfl, rfl⟩, rfl,
    fun inv hinv => (net_applied_within_total hrun inv hinv).2⟩)

/-- The edit takes the total below what has been applied. -/
theorem net_applied_exceeds_edited_total :
    ¬∀ (rs : List RetainerRequest) (db : DepositDb), Run (retainerStep asciiTable) .empty rs db →
      ∀ inv ∈ db.invoices.rows, 0 ≤ netApplied db inv.id ∧ netApplied db inv.id ≤ inv.totalMinor := by
  intro h
  have hrun : Run (retainerStep asciiTable) .empty (requestsWithNewTotal 50) _ :=
    guardedRun_of_execute rfl
  have hle := (h _ _ hrun _ List.mem_cons_self).2
  exact absurd hle (by decide)

end IpDocket.Billing
