import IpDocket.Billing.EditDeposit

/-!
# All or nothing of an edited retainer

After an edit either all entries of its retainer and the payment status they come to should be stored, or
nothing of them. It fails exactly if a statement after the first one fails without losing the transaction.
-/

namespace IpDocket.Billing
open IpDocket.Lib

section Outcomes

variable (U : UpperTable)

def EditPlan.profileEntries (plan : EditPlan) (form : EditForm) (invoiceId next : Nat) : List LedgerEntry :=
  if 0 < plan.useBp then [(profileCall form invoiceId plan).toEntry U next] else []

def EditPlan.officeEntries (plan : EditPlan) (form : EditForm) (invoiceId next : Nat) : List LedgerEntry :=
  if 0 < plan.useGlobal then [(officeCall form invoiceId plan).toEntry U next] else []

/-- The entries of the retainer, the profile first, with the ids from `next` on. -/
def EditPlan.entries (plan : EditPlan) (form : EditForm) (invoiceId next : Nat) : List LedgerEntry :=
  plan.profileEntries U form invoiceId next ++
    plan.officeEntries U form invoiceId (next + (plan.profileEntries U form invoiceId next).length)

/-- The row with the payment status that the entries come to. -/
def EditPlan.settle (plan : EditPlan) (form : EditForm) (billing : BillingStatus) (inv : Invoice) : Invoice :=
  { plan.pay form inv with status := deriveLegacyStatusFromSplit billing (plan.payment form) }

def NothingStored (db db' : DepositDb) (invoiceId : Nat) : Prop :=
  db'.ledger.rows = db.ledger.rows ∧ db'.invoices.find invoiceId = db.invoices.find invoiceId

def WholeStored (db db' : DepositDb) (invoiceId : Nat) (form : EditForm) (billing : BillingStatus)
    (plan : EditPlan) : Prop :=
  db'.ledger.rows = db.ledger.rows ++ plan.entries U form invoiceId db.ledger.next ∧
    db'.invoices.find invoiceId = (db.invoices.find invoiceId).map (plan.settle form billing)

/-- An edit that sets out to apply a retainer stores it as a whole or not at all; when the transaction is
lost the header is not stored either. -/
def EditAtomic (db : DepositDb) (invoiceId : Nat) (form : EditForm) (fault : Option EditFault) : Prop :=
  ∀ edited billing plan after, editHeader U db invoiceId form = .ok (edited, billing) →
    editDepositPlan U edited.ledger.rows invoiceId form billing = some plan →
    submitEdit U db invoiceId form fault = .ok after →
    NothingStored edited after invoiceId ∨ NothingStored db after invoiceId ∨
      WholeStored U edited after invoiceId form billing plan

/-- A failure that leaves nothing half done: the transaction is lost, the statement is not made, it is the
first one, or what is left to write is in the row already. -/
def EditFault.harmless (fault : EditFault) (plan : EditPlan) (form : EditForm) (billing : BillingStatus)
    (row : Invoice) : Prop :=
  fault.aborts = true ∨ fault.write ∉ plan.writes ∨ plan.writes.head? = some fault.write ∨
    (fault.write = .payment ∧ plan.settle form billing row = row) ∨
    (fault.write = .status ∧ row.status = deriveLegacyStatusFromSplit billing (plan.payment form))

/-- The first entry is refused, or the failure is harmless. -/
def EditKept (db : DepositDb) (invoiceId : Nat) (form : EditForm) (fault : Option EditFault) : Prop :=
  ∀ edited billing plan row, editHeader U db invoiceId form = .ok (edited, billing) →
    editDepositPlan U edited.ledger.rows invoiceId form billing = some plan →
    edited.invoices.find invoiceId = some row →
    invoiceId = 0 ∨ (form.businessProfileId = 0 ∧ 0 < plan.useBp) ∨
      ∀ f, fault = some f → f.harmless plan form billing row

end Outcomes

section Entries

variable {U : UpperTable} {db : DepositDb} {invoiceId : Nat} {form : EditForm} {billing : BillingStatus}
  {plan : EditPlan} {row : Invoice}

/-- The row has the header of the form. -/
structure HasHeader (form : EditForm) (row : Invoice) : Prop where
  client : row.clientId = form.clientId
  profile : row.businessProfileId = some form.businessProfileId
  currency : row.currency = some form.currency

lemma profileOrDefault_some (k : Nat) : profileOrDefault (some k) = k ↔ k ≠ 0 := by
  cases k with
  | zero => decide
  | succ k => exact iff_of_true rfl (Nat.succ_ne_zero k)

/-- An entry that the balance covers is refused only for an id that counts as missing. -/
lemma insertEntry_applyCall_iff (hfind : db.invoices.find invoiceId = some row) (hrow : HasHeader form row)
    (hcur : stripUpper U form.currency ≠ []) {bp : Option Nat}
    (hbp : ∀ k ∈ bp, k = form.businessProfileId) {amount : Int} (hpos : 0 < amount)
    (hbalance : amount ≤ bucketSum ⟨bp, form.clientId, stripUpper U form.currency⟩ db.ledger.rows) :
    (∃ r, insertEntry U db (applyCall bp form.clientId form.currency amount invoiceId) = .ok r) ↔
      invoiceId ≠ 0 ∧ ∀ k ∈ bp, k ≠ 0 := by
  have hheader : checkHeader U (applyCall bp form.clientId form.currency amount invoiceId) row = .ok () ↔
      ∀ k ∈ bp, k ≠ 0 := by
    rw [checkHeader_eq_ok 0, matchesHeader_iff]
    simp only [EntryCall.toEntry, applyCall, hrow.client, hrow.profile, hrow.currency, Option.getD_some,
      implies_true, and_true, true_and]
    apply forall₂_congr
    intro k hk
    rw [← hbp k hk]
    exact profileOrDefault_some k
  constructor
  · rintro ⟨r, hins⟩
    obtain ⟨hvalid, hinvoice, -, -, -, -⟩ := insertEntry_eq_ok.mp hins
    obtain ⟨-, -, -, -, -, -, hrequired⟩ := validateEntry_eq_ok.mp hvalid
    obtain ⟨k, hk⟩ := Option.isSome_iff_exists.mp (hrequired (.inl rfl))
    obtain ⟨hsome, hne⟩ := truthy_eq_some.mp hk
    cases hsome
    rw [hk, Option.bind_some, hfind] at hinvoice
    unfold checkInvoice at hinvoice
    rw [hk] at hinvoice
    exact ⟨hne, hheader.mp hinvoice⟩
  · rintro ⟨hne, hprofile⟩
    have hk : truthy (applyCall bp form.clientId form.currency amount invoiceId).relatedInvoiceId =
        some invoiceId := truthy_eq_some.mpr ⟨rfl, hne⟩
    have hentry : truthy (applyCall bp form.clientId form.currency amount invoiceId).relatedEntryId = none :=
      rfl
    refine ⟨_, insertEntry_eq_ok.mpr ⟨?_, ?_, ?_, ?_, ?_, rfl⟩⟩
    · rw [validateEntry_eq_ok, hk]
      simp only [applyCall]
      refine ⟨hcur, by omega, ?_, fun _ => by omega, ?_, fun _ => by omega, fun _ => rfl⟩
      · intro hcontra
        cases hcontra
      · intro hcontra
        cases hcontra
    · rw [hk, Option.bind_some, hfind]
      unfold checkInvoice
      rw [hk]
      exact hheader.mpr hprofile
    · unfold checkRelated
      rw [hentry]
      rfl
    · apply check_eq_ok.mpr
      apply decide_eq_true
      intro hcontra
      cases hcontra
    · apply check_eq_ok.mpr
      apply decide_eq_true
      have hbucket : (applyCall bp form.clientId form.currency amount invoiceId).bucket U =
          ⟨bp, form.clientId, stripUpper U form.currency⟩ := rfl
      rw [hbucket]
      simp only [applyCall]
      omega

/-- The amounts of a plan are those of the balances. -/
lemma editDepositPlan_eq_some {entries : List LedgerEntry}
    (h : editDepositPlan U entries invoiceId form billing = some plan) :
    billing ≠ .void ∧ stripUpper U form.currency ≠ [] ∧ (0 < plan.useBp ∨ 0 < plan.useGlobal) ∧
      plan.useBp ≤ bucketSum ⟨some form.businessProfileId, form.clientId, stripUpper U form.currency⟩ entries ∧
      plan.useGlobal ≤ max 0 (bucketSum ⟨none, form.clientId, stripUpper U form.currency⟩ entries) := by
  unfold editDepositPlan at h
  split at h
  · cases h
  · dsimp only at h
    split at h
    · cases h
    · next hopen =>
      split at h
      · next balBp balGlobal hbp hglobal =>
        obtain ⟨hcur, hbp⟩ := check_bind_eq_ok.mp hbp
        obtain ⟨-, hglobal⟩ := check_bind_eq_ok.mp hglobal
        cases hbp
        cases hglobal
        split at h
        · cases h
        · next hreq =>
          cases h
          refine ⟨fun hvoid => hopen (.inl hvoid), of_decide_eq_true hcur, ?_, ?_, ?_⟩
          · dsimp only
            omega
          · dsimp only
            omega
          · dsimp only
            omega
      · cases h

end Entries

section Writes

variable {U : UpperTable} {db : DepositDb} {invoiceId : Nat} {form : EditForm} {billing : BillingStatus}
  {plan : EditPlan} {row : Invoice} {fault : Option EditFault}

/-- The data base when a statement fails. -/
def failedAt (fault : Option EditFault) (db : DepositDb) : Option DepositDb :=
  if fault.any EditFault.aborts then none else some db

/-- The data base with the first entry, if there is one, and the second. -/
def DepositDb.withEntry (U : UpperTable) (db : DepositDb) (wanted : Bool) (call : EntryCall) : DepositDb :=
  if wanted then { db with ledger := db.ledger.insert (call.toEntry U) (call.id_toEntry U) } else db

variable (fault) in
lemma runEditWrites_entry (write : EditWrite) {wanted : Bool} {call : EntryCall} (writes : List EditWrite)
    (hrun : write.run U invoiceId form billing plan db = (insertEntry U db call).map Prod.fst)
    (hins : wanted = true → ∃ r, insertEntry U db call = .ok r) :
    runEditWrites U invoiceId form billing plan fault db ((if wanted then [write] else []) ++ writes) =
      if wanted = true ∧ fault.map EditFault.write = some write then failedAt fault db
      else runEditWrites U invoiceId form billing plan fault (db.withEntry U wanted call) writes := by
  cases wanted with
  | false =>
    rw [if_neg (by simp), List.nil_append, if_neg (by simp)]
    rfl
  | true =>
    obtain ⟨r, hr⟩ := hins rfl
    obtain ⟨-, -, -, -, -, hafter⟩ := insertEntry_eq_ok.mp hr
    rw [if_pos rfl, List.singleton_append, runEditWrites, hrun, hr]
    simp only [true_and]
    split
    · rfl
    · rw [hafter]
      rfl

lemma runEditWrites_columns : runEditWrites U invoiceId form billing plan fault db [.payment, .status] =
    if fault.map EditFault.write = some .payment then failedAt fault db
    else if fault.map EditFault.write = some .status then
      failedAt fault (db.updateInvoice invoiceId (plan.pay form) (fun _ => rfl))
    else some (db.updateInvoice invoiceId (plan.settle form billing) (fun _ => rfl)) := by
  rw [runEditWrites]
  split
  · rfl
  · dsimp only [EditWrite.run]
    rw [runEditWrites]
    split
    · rfl
    · dsimp only [EditWrite.run]
      rw [runEditWrites]
      exact congrArg some (updateInvoice_updateInvoice db invoiceId _ _)

/-- The ledger and the row of the invoice. -/
def Stores (db : DepositDb) (invoiceId : Nat) (rows : List LedgerEntry) (row : Invoice) : Prop :=
  db.ledger.rows = rows ∧ db.invoices.find invoiceId = some row

lemma Stores.update {rows : List LedgerEntry} (h : Stores db invoiceId rows row) {f : Invoice → Invoice}
    (hf : ∀ inv, (f inv).id = inv.id) : Stores (db.updateInvoice invoiceId f hf) invoiceId rows (f row) := by
  refine ⟨h.1, ?_⟩
  rw [find_updateInvoice, if_pos rfl, h.2]
  rfl

/-- The data base after the profile entry, and after both. -/
def afterProfile (U : UpperTable) (db : DepositDb) (invoiceId : Nat) (form : EditForm) (plan : EditPlan) :
    DepositDb :=
  db.withEntry U (0 < plan.useBp) (profileCall form invoiceId plan)

def afterEntries (U : UpperTable) (db : DepositDb) (invoiceId : Nat) (form : EditForm) (plan : EditPlan) :
    DepositDb :=
  (afterProfile U db invoiceId form plan).withEntry U (0 < plan.useGlobal) (officeCall form invoiceId plan)

variable (U form plan) in
lemma stores_afterProfile (hfind : db.invoices.find invoiceId = some row) :
    Stores (afterProfile U db invoiceId form plan) invoiceId
        (db.ledger.rows ++ plan.profileEntries U form invoiceId db.ledger.next) row ∧
      (afterProfile U db invoiceId form plan).ledger.next =
        db.ledger.next + (plan.profileEntries U form invoiceId db.ledger.next).length := by
  unfold afterProfile DepositDb.withEntry EditPlan.profileEntries
  simp only [decide_eq_true_eq]
  split
  · exact ⟨⟨rfl, hfind⟩, rfl⟩
  · exact ⟨⟨(List.append_nil _).symm, hfind⟩, rfl⟩

variable (U form plan) in
lemma stores_afterEntries (hfind : db.invoices.find invoiceId = some row) :
    Stores (afterEntries U db invoiceId form plan) invoiceId
      (db.ledger.rows ++ plan.entries U form invoiceId db.ledger.next) row := by
  obtain ⟨⟨hrows, hrow⟩, hnext⟩ := stores_afterProfile U form plan hfind
  unfold afterEntries DepositDb.withEntry EditPlan.entries EditPlan.officeEntries
  rw [← hnext, ← List.append_assoc, ← hrows]
  simp only [decide_eq_true_eq]
  split
  · exact ⟨rfl, hrow⟩
  · exact ⟨(List.append_nil _).symm, hrow⟩

/-- The statements, where no entry is refused. -/
lemma runEditWrites_spec (hfind : db.invoices.find invoiceId = some row) (hrow : HasHeader form row)
    (hplan : editDepositPlan U db.ledger.rows invoiceId form billing = some plan) (hne : invoiceId ≠ 0)
    (hbp : 0 < plan.useBp → form.businessProfileId ≠ 0) :
    runEditWrites U invoiceId form billing plan fault db plan.writes =
      if 0 < plan.useBp ∧ fault.map EditFault.write = some .profileEntry then failedAt fault db
      else if 0 < plan.useGlobal ∧ fault.map EditFault.write = some .officeEntry then
        failedAt fault (afterProfile U db invoiceId form plan)
      else if fault.map EditFault.write = some .payment then
        failedAt fault (afterEntries U db invoiceId form plan)
      else if fault.map EditFault.write = some .status then
        failedAt fault
          ((afterEntries U db invoiceId form plan).updateInvoice invoiceId (plan.pay form) (fun _ => rfl))
      else some
        ((afterEntries U db invoiceId form plan).updateInvoice invoiceId (plan.settle form billing)
          (fun _ => rfl)) := by
  obtain ⟨-, hcur, -, hbalBp, hbalGlobal⟩ := editDepositPlan_eq_some hplan
  obtain ⟨⟨hrows, hfind₁⟩, -⟩ := stores_afterProfile U form plan hfind
  have hprofile : decide (0 < plan.useBp) = true →
      ∃ r, insertEntry U db (profileCall form invoiceId plan) = .ok r := by
    intro hpos
    have hpos := of_decide_eq_true hpos
    refine (insertEntry_applyCall_iff hfind hrow hcur ?_ hpos hbalBp).mpr ⟨hne, ?_⟩
    · rintro k ⟨⟩
      rfl
    · rintro k ⟨⟩
      exact hbp hpos
  have hoffice : decide (0 < plan.useGlobal) = true →
      ∃ r, insertEntry U (afterProfile U db invoiceId form plan) (officeCall form invoiceId plan) = .ok r := by
    intro hpos
    have hpos := of_decide_eq_true hpos
    have hbucket : bucketSum ⟨none, form.clientId, stripUpper U form.currency⟩
        (plan.profileEntries U form invoiceId db.ledger.next) = 0 := by
      unfold EditPlan.profileEntries
      split
      · rw [bucketSum_singleton, if_neg]
        intro hsame
        cases congrArg Bucket.businessProfileId hsame
      · rfl
    refine (insertEntry_applyCall_iff hfind₁ hrow hcur ?_ hpos ?_).mpr ⟨hne, ?_⟩
    · rintro k ⟨⟩
    · rw [hrows, bucketSum_append, hbucket]
      omega
    · rintro k ⟨⟩
  have hfirst := runEditWrites_entry fault .profileEntry
    ((if 0 < plan.useGlobal then [.officeEntry] else []) ++ [.payment, .status])
    (rfl : EditWrite.run U invoiceId form billing plan db .profileEntry = _) hprofile
  have hsecond := runEditWrites_entry fault .officeEntry [.payment, .status]
    (rfl : EditWrite.run U invoiceId form billing plan (afterProfile U db invoiceId form plan)
      .officeEntry = _) hoffice
  simp only [decide_eq_true_eq] at hfirst hsecond
  rw [EditPlan.writes, List.append_assoc, hfirst]
  split
  · rfl
  · refine hsecond.trans ?_
    split
    · rfl
    · exact runEditWrites_columns

/-- A first entry that is refused ends the statements. -/
lemma runEditWrites_refused (hfind : db.invoices.find invoiceId = some row) (hrow : HasHeader form row)
    (hplan : editDepositPlan U db.ledger.rows invoiceId form billing = some plan)
    (hrefused : invoiceId = 0 ∨ form.businessProfileId = 0 ∧ 0 < plan.useBp) :
    runEditWrites U invoiceId form billing plan fault db plan.writes = some db ∨
      runEditWrites U invoiceId form billing plan fault db plan.writes = none := by
  obtain ⟨-, hcur, hsome, hbalBp, hbalGlobal⟩ := editDepositPlan_eq_some hplan
  have hend : ∀ write writes, (∀ db', write.run U invoiceId form billing plan db ≠ .ok db') →
      runEditWrites U invoiceId form billing plan fault db (write :: writes) = some db ∨
        runEditWrites U invoiceId form billing plan fault db (write :: writes) = none := by
    intro write writes hnot
    rw [runEditWrites]
    split
    · split
      · exact .inr rfl
      · exact .inl rfl
    · cases hrun : write.run U invoiceId form billing plan db with
      | ok db' => exact absurd hrun (hnot db')
      | error text => exact .inl rfl
  have hmap : ∀ {call : EntryCall}, (¬∃ r, insertEntry U db call = .ok r) →
      ∀ db', (insertEntry U db call).map Prod.fst ≠ .ok db' := by
    intro call hnot db' heq
    cases hins : insertEntry U db call with
    | ok r => exact hnot ⟨r, hins⟩
    | error text =>
      rw [hins] at heq
      cases heq
  rw [EditPlan.writes, List.append_assoc]
  by_cases hpos : 0 < plan.useBp
  · rw [if_pos hpos, List.singleton_append]
    apply hend
    apply hmap
    rw [profileCall, insertEntry_applyCall_iff hfind hrow hcur (by rintro k ⟨⟩; rfl) hpos hbalBp]
    rintro ⟨hne, hprofile⟩
    obtain hzero | ⟨hzero, -⟩ := hrefused
    · exact hne hzero
    · exact hprofile _ rfl hzero
  · have hglobal := hsome.resolve_left hpos
    have hzero := hrefused.resolve_right (fun h => hpos h.2)
    rw [if_neg hpos, List.nil_append, if_pos hglobal, List.singleton_append]
    apply hend
    apply hmap
    rw [officeCall, insertEntry_applyCall_iff hfind hrow hcur (by rintro k ⟨⟩) hglobal (by omega)]
    exact fun h => h.1 hzero

end Writes

/-! ### The edit -/

section Atomic

variable {U : UpperTable} {db edited : DepositDb} {invoiceId : Nat} {form : EditForm}
  {billing : BillingStatus} {plan : EditPlan} {row : Invoice} {fault : Option EditFault}

lemma hasHeader_header (billing : BillingStatus) (payment : PaymentStatus) (inv : Invoice) :
    HasHeader form (form.header billing payment inv) := ⟨rfl, rfl, rfl⟩

/-- An edit that leaves the invoice open leaves the ledger alone. -/
lemma ledger_editHeader (h : editHeader U db invoiceId form = .ok (edited, billing)) (hopen : billing ≠ .void) :
    edited.ledger = db.ledger := by
  unfold editHeader at h
  obtain ⟨inv, -, h⟩ := bind_eq_ok.mp h
  generalize computeBillingPaymentFromStatus form.statusCode inv.paymentVerified = split at h
  obtain ⟨next, payment⟩ := split
  obtain ⟨db₁, hcancel, h⟩ := bind_eq_ok.mp h
  cases h
  unfold editCancel at hcancel
  rw [if_neg hopen] at hcancel
  cases hcancel
  rfl

lemma submitEdit_eq (hheader : editHeader U db invoiceId form = .ok (edited, billing))
    (hplan : editDepositPlan U edited.ledger.rows invoiceId form billing = some plan) :
    submitEdit U db invoiceId form fault =
      .ok ((runEditWrites U invoiceId form billing plan fault edited plan.writes).getD db) := by
  unfold submitEdit
  rw [hheader]
  simp only [bind, Except.bind, hplan]
  rfl

lemma entries_ne_nil (hsome : 0 < plan.useBp ∨ 0 < plan.useGlobal) (next : Nat) :
    plan.entries U form invoiceId next ≠ [] := by
  unfold EditPlan.entries EditPlan.profileEntries EditPlan.officeEntries
  obtain hpos | hpos := hsome
  · rw [if_pos hpos]
    exact List.cons_ne_nil _ _
  · rw [if_pos hpos]
    exact List.append_ne_nil_of_right_ne_nil _ (List.cons_ne_nil _ _)

lemma stored_iff {after : DepositDb} {new : List LedgerEntry} {row' : Invoice} (hledger : edited.ledger = db.ledger)
    (hfind : edited.invoices.find invoiceId = some row)
    (hafter : Stores after invoiceId (edited.ledger.rows ++ new) row') (hnew : new ≠ []) :
    (NothingStored edited after invoiceId ∨ NothingStored db after invoiceId ∨
        WholeStored U edited after invoiceId form billing plan) ↔
      new = plan.entries U form invoiceId edited.ledger.next ∧ row' = plan.settle form billing row := by
  have hmore : after.ledger.rows ≠ edited.ledger.rows := by
    rw [hafter.1]
    intro hsame
    exact hnew (List.append_right_eq_self.mp hsame)
  unfold NothingStored WholeStored
  rw [← hledger, hafter.1, hafter.2, hfind, List.append_cancel_left_eq, Option.map_some]
  simp only [Option.some_inj]
  rw [hafter.1] at hmore
  constructor
  · rintro (⟨hsame, -⟩ | ⟨hsame, -⟩ | hwhole)
    · exact absurd hsame hmore
    · exact absurd hsame hmore
    · exact hwhole
  · exact fun hwhole => .inr (.inr hwhole)

lemma head_writes (hsome : 0 < plan.useBp ∨ 0 < plan.useGlobal) :
    plan.writes.head? = some (if 0 < plan.useBp then .profileEntry else .officeEntry) := by
  unfold EditPlan.writes
  by_cases hpos : 0 < plan.useBp
  · rw [if_pos hpos, if_pos hpos]
    rfl
  · rw [if_neg hpos, if_neg hpos, if_pos (hsome.resolve_left hpos)]
    rfl

/-- Where no entry is refused, what is stored is whole or nothing exactly if the failure is harmless. -/
lemma stored_iff_harmless (hledger : edited.ledger = db.ledger)
    (hfind : edited.invoices.find invoiceId = some row) (hrow : HasHeader form row)
    (hplan : editDepositPlan U edited.ledger.rows invoiceId form billing = some plan) (hne : invoiceId ≠ 0)
    (hbp : 0 < plan.useBp → form.businessProfileId ≠ 0) {after : DepositDb}
    (hafter : (runEditWrites U invoiceId form billing plan fault edited plan.writes).getD db = after) :
    (NothingStored edited after invoiceId ∨ NothingStored db after invoiceId ∨
        WholeStored U edited after invoiceId form billing plan) ↔
      ∀ f, fault = some f → f.harmless plan form billing row := by
  obtain ⟨-, -, hsome, -, -⟩ := editDepositPlan_eq_some hplan
  have hentries := @entries_ne_nil U invoiceId form plan hsome edited.ledger.next
  have hfirst := (stores_afterProfile U form plan hfind).1
  have hboth := stores_afterEntries U form plan hfind
  have hsettled := hboth.update (f := plan.settle form billing) (fun _ => rfl)
  rw [runEditWrites_spec hfind hrow hplan hne hbp] at hafter
  cases fault with
  | none =>
    simp only [Option.map_none, reduceCtorEq, and_false, if_false, Option.getD_some] at hafter
    rw [← hafter]
    refine iff_of_true ?_ (fun f hf => by cases hf)
    exact (stored_iff hledger hfind hsettled hentries).mpr ⟨rfl, rfl⟩
  | some f =>
    obtain ⟨write, aborts⟩ := f
    have hall : (∀ f, some (EditFault.mk write aborts) = some f → f.harmless plan form billing row) ↔
        (EditFault.mk write aborts).harmless plan form billing row := by
      constructor
      · exact fun h => h _ rfl
      · rintro h f ⟨⟩
        exact h
    rw [hall]
    unfold EditFault.harmless
    simp only [Option.map_some, Option.some_inj, failedAt, Option.any_some] at hafter
    cases aborts with
    | true =>
      refine iff_of_true ?_ (.inl rfl)
      simp only [if_true] at hafter
      split_ifs at hafter
      · rw [← hafter]
        exact .inr (.inl ⟨rfl, rfl⟩)
      · rw [← hafter]
        exact .inr (.inl ⟨rfl, rfl⟩)
      · rw [← hafter]
        exact .inr (.inl ⟨rfl, rfl⟩)
      · rw [← hafter]
        exact .inr (.inl ⟨rfl, rfl⟩)
      · rw [← hafter]
        exact (stored_iff hledger hfind hsettled hentries).mpr ⟨rfl, rfl⟩
    | false =>
      simp only [Bool.false_eq_true, if_false] at hafter
      have hopen : ∀ rest : Prop, ((EditFault.mk write false).aborts = true ∨ rest) ↔ rest :=
        fun rest => or_iff_right (by simp)
      have hhead := head_writes hsome
      rw [hopen]
      dsimp only
      split_ifs at hafter with hprofile hoffice hpayment hstatus
      · -- the profile entry, which is the first statement
        rw [← hafter, hprofile.2, hhead, if_pos hprofile.1]
        exact iff_of_true (.inl ⟨rfl, rfl⟩) (.inr (.inl rfl))
      · -- the office entry, with the profile entry stored if there is one
        rw [← hafter, hoffice.2, hhead]
        by_cases hpos : 0 < plan.useBp
        · have hnew : plan.profileEntries U form invoiceId edited.ledger.next ≠ [] := by
            unfold EditPlan.profileEntries
            rw [if_pos hpos]
            exact List.cons_ne_nil _ _
          have hmore : plan.profileEntries U form invoiceId edited.ledger.next ≠
              plan.entries U form invoiceId edited.ledger.next := by
            unfold EditPlan.entries EditPlan.officeEntries
            rw [if_pos hoffice.1]
            intro hsame
            exact absurd (List.self_eq_append_right.mp hsame) (List.cons_ne_nil _ _)
          rw [if_pos hpos]
          refine iff_of_false ?_ ?_
          · exact fun hstored => hmore ((stored_iff hledger hfind hfirst hnew).mp hstored).1
          · simp [EditPlan.writes, hoffice.1]
        · have hsame : afterProfile U edited invoiceId form plan = edited :=
            if_neg (by simpa using hpos)
          rw [if_neg hpos, hsame]
          exact iff_of_true (.inl ⟨rfl, rfl⟩) (.inr (.inl rfl))
      · rw [← hafter, hpayment, hhead, Option.getD_some, stored_iff hledger hfind hboth hentries]
        have hfirstWrite : ¬(some (if 0 < plan.useBp then EditWrite.profileEntry else .officeEntry) =
            some .payment) := by split <;> decide
        simp [EditPlan.writes, hfirstWrite, eq_comm]
      · have hpaid := hboth.update (f := plan.pay form) (fun _ => rfl)
        have hcolumns : plan.pay form row = plan.settle form billing row ↔
            row.status = deriveLegacyStatusFromSplit billing (plan.payment form) := by
          constructor
          · exact fun hsame => congrArg Invoice.status hsame
          · intro hsame
            unfold EditPlan.settle
            rw [← hsame]
            rfl
        rw [← hafter, hstatus, hhead, Option.getD_some, stored_iff hledger hfind hpaid hentries, hcolumns]
        have hfirstWrite : ¬(some (if 0 < plan.useBp then EditWrite.profileEntry else .officeEntry) =
            some .status) := by split <;> decide
        simp [EditPlan.writes, hfirstWrite]
      · rw [← hafter, Option.getD_some]
        refine iff_of_true ((stored_iff hledger hfind hsettled hentries).mpr ⟨rfl, rfl⟩) (.inl ?_)
        cases write with
        | profileEntry => simpa [EditPlan.writes] using hprofile
        | officeEntry => simpa [EditPlan.writes] using hoffice
        | payment => exact absurd rfl hpayment
        | status => exact absurd rfl hstatus

end Atomic

/-- The retainer of an edit is stored as a whole or not at all exactly if its first entry is refused or its
failure is harmless. -/
theorem edit_atomic_iff (U : UpperTable) (db : DepositDb) (invoiceId : Nat) (form : EditForm)
    (fault : Option EditFault) : EditAtomic U db invoiceId form fault ↔ EditKept U db invoiceId form fault := by
  constructor
  · intro h edited billing plan row hheader hplan hfind
    by_cases hrefused : invoiceId = 0 ∨ form.businessProfileId = 0 ∧ 0 < plan.useBp
    · exact hrefused.imp_right Or.inl
    · obtain ⟨hne, hbp⟩ := not_or.mp hrefused
      obtain ⟨⟨inv, payment, hfound⟩, -⟩ := row_of_editHeader hheader
      rw [hfind] at hfound
      have hrow : HasHeader form row := by
        rw [Option.some.inj hfound]
        exact hasHeader_header billing payment inv
      have hledger := ledger_editHeader hheader (editDepositPlan_eq_some hplan).1
      have hstored := h edited billing plan _ hheader hplan (submitEdit_eq hheader hplan)
      exact .inr (.inr ((stored_iff_harmless hledger hfind hrow hplan hne
        (fun hpos hzero => hbp ⟨hzero, hpos⟩) rfl).mp hstored))
  · intro h edited billing plan after hheader hplan hsubmit
    rw [submitEdit_eq hheader hplan] at hsubmit
    obtain ⟨⟨inv, payment, hfind⟩, -⟩ := row_of_editHeader hheader
    have hrow := @hasHeader_header form billing payment inv
    by_cases hrefused : invoiceId = 0 ∨ form.businessProfileId = 0 ∧ 0 < plan.useBp
    · cases hsubmit
      obtain hsame | hlost := @runEditWrites_refused U edited invoiceId form billing plan _ fault hfind hrow hplan hrefused
      · rw [hsame]
        exact .inl ⟨rfl, rfl⟩
      · rw [hlost]
        exact .inr (.inl ⟨rfl, rfl⟩)
    · obtain ⟨hne, hbp⟩ := not_or.mp hrefused
      have hledger := ledger_editHeader hheader (editDepositPlan_eq_some hplan).1
      have hharmless := h edited billing plan _ hheader hplan hfind
      refine (stored_iff_harmless hledger hfind hrow hplan hne (fun hpos hzero => hbp ⟨hzero, hpos⟩)
        (Except.ok.inj hsubmit)).mpr ?_
      obtain hzero | hrest := hharmless
      · exact absurd hzero hne
      · exact hrest.resolve_left hbp

def editedInvoice : Invoice := ⟨1, 7, some 1, some "USD".toList, 100, .sent, .sent, .unpaid, false⟩

def topupEntry (id : Nat) (businessProfileId : Option Nat) (amount : Int) : LedgerEntry :=
  ⟨id, businessProfileId, 7, "USD".toList, amount, .topup, none, none⟩

def twoBalancesDb : DepositDb where
  invoices := ⟨[editedInvoice], 2, by decide, by decide⟩
  ledger := ⟨[topupEntry 1 (some 1) 30, topupEntry 2 none 70], 3, by decide, by decide⟩

def wholeRetainerForm : EditForm where
  clientId := 7
  businessProfileId := 1
  currency := "USD".toList
  totalMinor := 100
  statusCode := some .sent
  deposit := some .blank
  lineError := false

/-- The entry of the profile is stored, that of the office is not, and the invoice is not pending. -/
theorem half_a_retainer : ¬EditAtomic asciiTable twoBalancesDb 1 wholeRetainerForm
    (some ⟨.officeEntry, false⟩) := by
  have hheader : editHeader asciiTable twoBalancesDb 1 wholeRetainerForm =
      .ok (twoBalancesDb.updateInvoice 1 (wholeRetainerForm.header .sent .unpaid) (fun _ => rfl), .sent) := rfl
  have hplan : editDepositPlan asciiTable twoBalancesDb.ledger.rows 1 wholeRetainerForm .sent =
      some ⟨0, 30, 70⟩ := by decide +kernel
  intro h
  have hstored := h _ _ _ _ hheader hplan (submitEdit_eq hheader hplan)
  obtain ⟨hrows, -⟩ | ⟨hrows, -⟩ | ⟨hrows, -⟩ := hstored
  · revert hrows
    decide +kernel
  · revert hrows
    decide +kernel
  · revert hrows
    decide +kernel

end IpDocket.Billing
