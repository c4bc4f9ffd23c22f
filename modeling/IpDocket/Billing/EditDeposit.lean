import IpDocket.Billing.InvoiceStatus

/-!
# The retainer of an edited invoice

An edit writes the header and then, in the same transaction, up to four more statements for the retainer:
an entry for the profile, one for the office, the payment columns and the old status column. Whatever goes
wrong with one of them is swallowed, and what was written before is committed. Only a failed statement of
PostgreSQL loses the transaction, so that nothing of the edit is stored.
-/

namespace IpDocket.Billing
open IpDocket.Lib

inductive EditWrite
  | profileEntry
  | officeEntry
  | payment
  | status
  deriving DecidableEq

structure EditFault where
  write : EditWrite
  aborts : Bool
  deriving DecidableEq

/-- What was applied before, and how much is taken from the profile and from the office. -/
structure EditPlan where
  appliedAlready : Int
  useBp : Int
  useGlobal : Int
  deriving DecidableEq

section Edit

variable (U : UpperTable)

/-- An edit that makes an invoice void cancels its applications. -/
def editCancel (db : DepositDb) (invoiceId : Nat) (billing : BillingStatus) : Except String DepositDb :=
  if billing = .void then (cancelUncanceledDepositAppliesForInvoice U db invoiceId).map Prod.fst
  else .ok db

/-- The checks and the header of an edit, up to its retainer. -/
def editHeader (db : DepositDb) (invoiceId : Nat) (form : EditForm) :
    Except String (DepositDb × BillingStatus) := do
  let inv ← editGate db invoiceId form
  let (billing, payment) := computeBillingPaymentFromStatus form.statusCode inv.paymentVerified
  let db ← editCancel U db invoiceId billing
  return (db.updateInvoice invoiceId (form.header billing payment) (form.id_header billing payment), billing)

/-- What `_apply_edit_deposit` sets out to apply. -/
def editDepositPlan (entries : List LedgerEntry) (invoiceId : Nat) (form : EditForm)
    (billing : BillingStatus) : Option EditPlan :=
  match form.deposit with
  | none => none
  | some amount =>
    let applied := uncanceledApplies entries invoiceId
    let appliedAlready : Int := (applied.map (fun a => (a.amountMinor.natAbs : Int))).sum
    let outstanding := form.totalMinor - appliedAlready
    if billing = .void ∨ outstanding ≤ 0 then none
    else
      let bp := form.businessProfileId
      match getClientDepositBalanceMinor U entries (some bp) form.clientId form.currency,
        getClientDepositBalanceMinor U entries none form.clientId form.currency with
      | .ok balBp, .ok balGlobal =>
        let req := min (amount.editRequested outstanding) (balBp + balGlobal)
        if req ≤ 0 then none else some ⟨appliedAlready, min req balBp, req - min req balBp⟩
      | _, _ => none

def EditPlan.newOutstanding (plan : EditPlan) (form : EditForm) : Int :=
  form.totalMinor - (plan.appliedAlready + (max plan.useBp 0 + max plan.useGlobal 0))

def EditPlan.payment (plan : EditPlan) (form : EditForm) : PaymentStatus :=
  if plan.newOutstanding form ≤ 0 then .paid else .pending

def EditPlan.verified (plan : EditPlan) (form : EditForm) : Bool := plan.newOutstanding form ≤ 0

/-- `SET payment_status=?, payment_verified=?`. -/
def EditPlan.pay (plan : EditPlan) (form : EditForm) (inv : Invoice) : Invoice :=
  { inv with paymentStatus := plan.payment form, paymentVerified := plan.verified form }

def profileCall (form : EditForm) (invoiceId : Nat) (plan : EditPlan) : EntryCall :=
  applyCall (some form.businessProfileId) form.clientId form.currency plan.useBp invoiceId

def officeCall (form : EditForm) (invoiceId : Nat) (plan : EditPlan) : EntryCall :=
  applyCall none form.clientId form.currency plan.useGlobal invoiceId

/-- The statements to make. -/
def EditPlan.writes (plan : EditPlan) : List EditWrite :=
  (if 0 < plan.useBp then [EditWrite.profileEntry] else []) ++
    (if 0 < plan.useGlobal then [EditWrite.officeEntry] else []) ++ [EditWrite.payment, .status]

def EditWrite.run (invoiceId : Nat) (form : EditForm) (billing : BillingStatus) (plan : EditPlan)
    (db : DepositDb) : EditWrite → Except String DepositDb
  | .profileEntry => (insertEntry U db (profileCall form invoiceId plan)).map Prod.fst
  | .officeEntry => (insertEntry U db (officeCall form invoiceId plan)).map Prod.fst
  | .payment => .ok (db.updateInvoice invoiceId (plan.pay form) (fun _ => rfl))
  | .status => .ok (syncLegacyStatus db invoiceId (some (billing, plan.payment form)))

/-- The statements up to the one that fails or is refused; `none` when the transaction is lost. -/
def runEditWrites (invoiceId : Nat) (form : EditForm) (billing : BillingStatus) (plan : EditPlan)
    (fault : Option EditFault) : DepositDb → List EditWrite → Option DepositDb
  | db, [] => some db
  | db, write :: writes =>
    if fault.map EditFault.write = some write then (if fault.any EditFault.aborts then none else some db)
    else
      match write.run U invoiceId form billing plan db with
      | .ok db' => runEditWrites invoiceId form billing plan fault db' writes
      | .error _ => some db

/-- What is there after the commit, or after the rollback. -/
def submitEdit (db : DepositDb) (invoiceId : Nat) (form : EditForm) (fault : Option EditFault) :
    Except String DepositDb := do
  let (edited, billing) ← editHeader U db invoiceId form
  match editDepositPlan U edited.ledger.rows invoiceId form billing with
  | none => return edited
  | some plan =>
    return (runEditWrites U invoiceId form billing plan fault edited plan.writes).getD db

end Edit

section Whole

variable {U : UpperTable} {db : DepositDb} {invoiceId : Nat} {form : EditForm} {billing : BillingStatus}

/-- The two updates of the columns are one of the row. -/
lemma payment_status_eq (hbilling : ∀ inv ∈ db.invoices.rows, inv.id = invoiceId → inv.billingStatus = billing)
    (plan : EditPlan) :
    syncLegacyStatus (db.updateInvoice invoiceId (plan.pay form) (fun _ => rfl)) invoiceId
        (some (billing, plan.payment form)) =
      db.setStatus invoiceId billing (plan.payment form) (plan.verified form) := by
  refine (updateInvoice_updateInvoice db invoiceId _ _).trans ?_
  simp only [DepositDb.setStatus, DepositDb.updateInvoice, Table.update]
  congr 2
  apply List.map_congr_left
  intro inv hinv
  unfold onRows
  split
  · next hid =>
    have hsame := hbilling inv hinv (of_decide_eq_true hid)
    subst hsame
    rfl
  · rfl

lemma ledgerOnly_of_insertEntry {c : EntryCall} {r : DepositDb × EntryResult}
    (h : insertEntry U db c = .ok r) : r.1.invoices = db.invoices := by
  obtain ⟨-, -, -, -, -, rfl⟩ := insertEntry_eq_ok.mp h
  rfl

def afterUse (db : DepositDb) (used : Except String DepositDb) (rest : DepositDb → DepositDb) : DepositDb :=
  match used with
  | .error _ => db
  | .ok db' => rest db'

lemma runEditWrites_none
    (hbilling : ∀ inv ∈ db.invoices.rows, inv.id = invoiceId → inv.billingStatus = billing) (plan : EditPlan) :
    runEditWrites U invoiceId form billing plan none db plan.writes =
      some (applyEditUses U db invoiceId form billing plan.appliedAlready plan.useBp plan.useGlobal) := by
  have hcolumns : ∀ db' : DepositDb, db'.invoices = db.invoices →
      runEditWrites U invoiceId form billing plan none db' [EditWrite.payment, .status] =
        some (db'.setStatus invoiceId billing (plan.payment form) (plan.verified form)) := by
    intro db' hsame
    rw [← payment_status_eq (by rw [hsame]; exact hbilling)]
    rfl
  have hoffice : ∀ db' : DepositDb, db'.invoices = db.invoices →
      runEditWrites U invoiceId form billing plan none db'
          ((if 0 < plan.useGlobal then [EditWrite.officeEntry] else []) ++ [EditWrite.payment, .status]) =
        some (afterUse db' (applyUse U db' (officeCall form invoiceId plan))
          (·.setStatus invoiceId billing (plan.payment form) (plan.verified form))) := by
    intro db' hsame
    unfold applyUse
    have hamount : -(officeCall form invoiceId plan).amountMinor = plan.useGlobal := Int.neg_neg _
    rw [hamount]
    split
    · rw [List.singleton_append, runEditWrites, if_neg (by simp), EditWrite.run]
      cases hins : insertEntry U db' (officeCall form invoiceId plan) with
      | error text => rfl
      | ok r => exact hcolumns r.1 ((ledgerOnly_of_insertEntry hins).trans hsame)
    · exact hcolumns db' hsame
  unfold applyEditUses applyUse
  dsimp only
  have hamount : -(applyCall (some form.businessProfileId) form.clientId form.currency plan.useBp
      invoiceId).amountMinor = plan.useBp := Int.neg_neg _
  rw [hamount, EditPlan.writes, List.append_assoc]
  split
  · rw [List.singleton_append, runEditWrites, if_neg (by simp), EditWrite.run, profileCall]
    cases hins : insertEntry U db (applyCall (some form.businessProfileId) form.clientId form.currency
      plan.useBp invoiceId) with
    | error text => rfl
    | ok r => exact hoffice r.1 (ledgerOnly_of_insertEntry hins)
  · exact hoffice db rfl

lemma applyEditDeposit_eq : applyEditDeposit U db invoiceId form billing =
    match editDepositPlan U db.ledger.rows invoiceId form billing with
    | none => db
    | some plan =>
      applyEditUses U db invoiceId form billing plan.appliedAlready plan.useBp plan.useGlobal := by
  unfold applyEditDeposit editDepositPlan
  cases form.deposit with
  | none => rfl
  | some amount =>
    dsimp only
    split
    · rfl
    · cases getClientDepositBalanceMinor U db.ledger.rows (some form.businessProfileId) form.clientId
        form.currency with
      | error text => rfl
      | ok balBp =>
        cases getClientDepositBalanceMinor U db.ledger.rows none form.clientId form.currency with
        | error text => rfl
        | ok balGlobal =>
          dsimp only
          split
          · rfl
          · rfl

lemma invoices_cancelApplies {as : List LedgerEntry} {r : DepositDb × List CanceledEntry}
    (h : cancelApplies U invoiceId db as = .ok r) : r.1.invoices = db.invoices := by
  induction as generalizing db r with
  | nil =>
    cases h
    rfl
  | cons a as ih =>
    rw [cancelApplies] at h
    split at h
    · exact ih h
    · obtain ⟨⟨db₁, result⟩, hins, h⟩ := bind_eq_ok.mp h
      obtain ⟨⟨db₂, out⟩, hrest, h⟩ := bind_eq_ok.mp h
      cases h
      exact (ih hrest).trans (ledgerOnly_of_insertEntry hins)

/-- The header is written to the row that was found. -/
lemma editHeader_eq_ok {edited : DepositDb} (h : editHeader U db invoiceId form = .ok (edited, billing)) :
    ∃ (db₁ : DepositDb) (inv : Invoice) (payment : PaymentStatus),
      db₁.invoices = db.invoices ∧ db.invoices.find invoiceId = some inv ∧ edited =
        db₁.updateInvoice invoiceId (form.header billing payment) (fun _ => rfl) := by
  unfold editHeader at h
  obtain ⟨inv, hgate, h⟩ := bind_eq_ok.mp h
  generalize computeBillingPaymentFromStatus form.statusCode inv.paymentVerified = split at h
  obtain ⟨next, payment⟩ := split
  dsimp only at h
  obtain ⟨db₁, hcancel, h⟩ := bind_eq_ok.mp h
  cases h
  refine ⟨db₁, inv, payment, ?_, find_of_editGate hgate, rfl⟩
  unfold editCancel at hcancel
  split at hcancel
  · unfold cancelUncanceledDepositAppliesForInvoice at hcancel
    cases hloop : cancelApplies U invoiceId db (uncanceledApplies db.ledger.rows invoiceId) with
    | error text =>
      rw [hloop] at hcancel
      cases hcancel
    | ok r =>
      rw [hloop] at hcancel
      cases hcancel
      exact invoices_cancelApplies hloop
  · cases hcancel
    rfl

lemma row_of_editHeader {edited : DepositDb} (h : editHeader U db invoiceId form = .ok (edited, billing)) :
    (∃ inv payment, edited.invoices.find invoiceId = some (form.header billing payment inv)) ∧
      ∀ inv ∈ edited.invoices.rows, inv.id = invoiceId → inv.billingStatus = billing := by
  obtain ⟨db₁, inv, payment, hsame, hfind, rfl⟩ := editHeader_eq_ok h
  have hrow : (db₁.updateInvoice invoiceId (form.header billing payment) (fun _ => rfl)).invoices.find
      invoiceId = some (form.header billing payment inv) := by
    refine (find_updateInvoice db₁ invoiceId invoiceId _ _).trans ?_
    rw [if_pos rfl, hsame, hfind]
    rfl
  refine ⟨⟨inv, payment, hrow⟩, ?_⟩
  intro row hmem hid
  have hfound := Table.find_of_mem hmem
  rw [hid, hrow] at hfound
  cases hfound
  rfl

lemma editInvoice_eq : editInvoice U db invoiceId form =
    (editHeader U db invoiceId form).map (fun p => applyEditDeposit U p.1 invoiceId form p.2) := by
  unfold editInvoice editHeader editCancel
  cases editGate db invoiceId form with
  | error text => rfl
  | ok inv =>
    simp only [bind, Except.bind, pure, Except.pure]
    split
    · cases cancelUncanceledDepositAppliesForInvoice U db invoiceId <;> rfl
    · rfl

/-- Without a failure this is the edit. -/
theorem submitEdit_none : submitEdit U db invoiceId form none = editInvoice U db invoiceId form := by
  rw [editInvoice_eq]
  unfold submitEdit
  cases hheader : editHeader U db invoiceId form with
  | error text => rfl
  | ok p =>
    obtain ⟨edited, billing⟩ := p
    have hbilling := (row_of_editHeader hheader).2
    change (match editDepositPlan U edited.ledger.rows invoiceId form billing with
      | none => Except.ok edited
      | some plan => Except.ok ((runEditWrites U invoiceId form billing plan none edited plan.writes).getD db)) =
        Except.ok (applyEditDeposit U edited invoiceId form billing)
    rw [applyEditDeposit_eq]
    cases editDepositPlan U edited.ledger.rows invoiceId form billing with
    | none => rfl
    | some plan =>
      dsimp only
      rw [runEditWrites_none hbilling, Option.getD_some]

end Whole

end IpDocket.Billing
