import IpDocket.Billing.DepositCancellation

/-!
# What a request moves in the retainer ledger

Every request that touches the ledger moves the net retainer of one invoice, or of none, and
then writes the status columns of that invoice. The lemmas here say by how much and to what,
so that an invariant of the requests need not look into them again.
-/

namespace IpDocket.Billing
open IpDocket.Lib

/-- The net retainer applied to the invoice. -/
def netApplied (db : DepositDb) (invoiceId : Nat) : Int := -invoiceSum db.ledger.rows invoiceId

/-- The ledger is in order, and its entries name invoices that have been inserted. -/
structure RetainerLedger (U : UpperTable) (db : DepositDb) : Prop where
  ledger : LedgerOk U db.ledger
  named : ∀ e ∈ db.ledger.rows, ∀ k, e.relatedInvoiceId = some k → k < db.invoices.next

/-- The ledger of `db'` has the net of `db` everywhere but at the invoice, where it has `x`
more. The invoices are the same. -/
structure NetMoved (U : UpperTable) (db db' : DepositDb) (invoiceId : Nat) (x : Int) : Prop where
  ok : RetainerLedger U db'
  invoices : db'.invoices = db.invoices
  net : ∀ k, netApplied db' k = netApplied db k + if k = invoiceId then x else 0

section Moves

variable {U : UpperTable} {db db₁ db' : DepositDb} {invoiceId : Nat} {x y : Int}

lemma sum_natAbs_uncanceled (h : LedgerOk U db.ledger) (invoiceId : Nat) :
    ((uncanceledApplies db.ledger.rows invoiceId).map
      (fun a => (a.amountMinor.natAbs : Int))).sum = netApplied db invoiceId := by
  have hsum : ∀ as : List LedgerEntry, (∀ a ∈ as, a.amountMinor < 0) →
      (as.map (fun a => (a.amountMinor.natAbs : Int))).sum =
        -(as.map LedgerEntry.amountMinor).sum := by
    intro as has
    induction as with
    | nil => rfl
    | cons a as ih =>
      have ha := has a List.mem_cons_self
      rw [List.map_cons, List.map_cons, List.sum_cons, List.sum_cons,
        ih (fun b hb => has b (List.mem_cons_of_mem _ hb))]
      omega
  rw [netApplied, h.sums]
  refine hsum _ ?_
  intro a ha
  obtain ⟨hmem, -, htype, -⟩ := mem_uncanceledApplies.mp ha
  exact h.apply_neg a hmem htype

lemma netApplied_nonneg (h : LedgerOk U db.ledger) (k : Nat) : 0 ≤ netApplied db k := by
  rw [← sum_natAbs_uncanceled h]
  apply List.sum_nonneg
  intro amount hamount
  obtain ⟨a, -, rfl⟩ := List.mem_map.mp hamount
  omega

lemma NetMoved.refl (h : RetainerLedger U db) (invoiceId : Nat) : NetMoved U db db invoiceId 0 :=
  ⟨h, rfl, fun k => by rw [ite_self, Int.add_zero]⟩

lemma NetMoved.trans (h : NetMoved U db db₁ invoiceId x) (h' : NetMoved U db₁ db' invoiceId y) :
    NetMoved U db db' invoiceId (x + y) := by
  refine ⟨h'.ok, h'.invoices.trans h.invoices, ?_⟩
  intro k
  rw [h'.net, h.net]
  split <;> omega

/-- The entry that a call inserts moves the net of its invoice. -/
lemma RetainerLedger.insertEntry {c : EntryCall} {r : DepositDb × EntryResult}
    (h : RetainerLedger U db) (hnames : NamesInvoice db c) (hins : insertEntry U db c = .ok r)
    (htype : c.entryType = .apply ∨ c.entryType = .cancelApply)
    (hinv : c.relatedInvoiceId = some invoiceId) :
    NetMoved U db r.1 invoiceId (-c.amountMinor) := by
  have hentry := inserted_of_insertEntry h.ledger hnames hins
  obtain ⟨hvalid, hcheck, -, -, -, rfl⟩ := insertEntry_eq_ok.mp hins
  have hsome := (validateEntry_eq_ok.mp hvalid).2.2.2.2.2.2 htype
  have htruthy : truthy c.relatedInvoiceId = some invoiceId := by
    obtain ⟨k, hk⟩ := Option.isSome_iff_exists.mp hsome
    have hck := (truthy_eq_some.mp hk).1
    rw [hinv] at hck
    cases hck
    exact hk
  have hrows : (db.ledger.insert (c.toEntry U) (fun _ => rfl)).rows =
      db.ledger.rows ++ [c.toEntry U db.ledger.next] := rfl
  refine ⟨⟨h.ledger.insert hentry rfl rfl, ?_⟩, rfl, ?_⟩
  · intro e he k hk
    rw [hrows] at he
    rcases List.mem_append.mp he with hold | hnew
    · exact h.named e hold k hk
    · rw [List.mem_singleton.mp hnew] at hk
      have hkid : k = invoiceId := Option.some.inj (hk.symm.trans htruthy)
      obtain ⟨header, hfind, -⟩ := header_of_checkInvoice 0 htruthy hcheck
      rw [hkid]
      exact Table.find_lt_next hfind
  · intro k
    have hkind : (c.toEntry U db.ledger.next).relatedInvoiceId = some k ∧
        ((c.toEntry U db.ledger.next).entryType = .apply ∨
          (c.toEntry U db.ledger.next).entryType = .cancelApply) ↔ k = invoiceId := by
      have hrel : (c.toEntry U db.ledger.next).relatedInvoiceId = some invoiceId := htruthy
      rw [hrel]
      constructor
      · rintro ⟨hk, -⟩
        exact (Option.some.inj hk).symm
      · rintro rfl
        exact ⟨rfl, htype⟩
    unfold netApplied
    rw [hrows, invoiceSum_append]
    simp only [hkind]
    change -(invoiceSum db.ledger.rows k + if k = invoiceId then c.amountMinor else 0) = _
    split <;> omega

/-- An application of `amount` if it is positive. -/
lemma RetainerLedger.applyUse {bp : Option Nat} {clientId : Nat} {currency : Text} {amount : Int}
    (h : RetainerLedger U db)
    (huse : applyUse U db (applyCall bp clientId currency amount invoiceId) = .ok db') :
    NetMoved U db db' invoiceId (max amount 0) := by
  unfold Billing.applyUse at huse
  split at huse
  · next hpos =>
    obtain ⟨r, hins, hr⟩ := bind_eq_ok.mp huse
    cases hr
    have hnames : NamesInvoice db (applyCall bp clientId currency amount invoiceId) := by
      intro hcancel
      cases hcancel
    have hmoved := h.insertEntry hnames hins (.inl rfl) rfl
    have hamount : -(applyCall bp clientId currency amount invoiceId).amountMinor =
        max amount 0 := by
      simp only [applyCall] at hpos ⊢
      omega
    rw [hamount] at hmoved
    exact hmoved
  · next hneg =>
    cases huse
    have hamount : max amount 0 = 0 := by
      simp only [applyCall] at hneg
      omega
    rw [hamount]
    exact .refl h invoiceId

/-- The loop that cancels all applications of an invoice takes its net to zero. -/
lemma RetainerLedger.cancelApplies (as : List LedgerEntry) {out : List CanceledEntry}
    (h : RetainerLedger U db) (has : uncanceledApplies db.ledger.rows invoiceId = as)
    (hloop : cancelApplies U invoiceId db as = .ok (db', out)) :
    NetMoved U db db' invoiceId (-netApplied db invoiceId) := by
  induction as generalizing db out with
  | nil =>
    cases hloop
    have hzero : netApplied db' invoiceId = 0 := by
      rw [netApplied, h.ledger.sums, has]
      rfl
    rw [hzero]
    exact .refl h invoiceId
  | cons a as ih =>
    have ha : a ∈ uncanceledApplies db.ledger.rows invoiceId := by
      rw [has]
      exact List.mem_cons_self
    rw [Billing.cancelApplies, if_neg (h.ledger.not_skipped ha)] at hloop
    obtain ⟨⟨db₁, result⟩, hins, hloop⟩ := bind_eq_ok.mp hloop
    obtain ⟨⟨db₂, rest⟩, hrest, hloop⟩ := bind_eq_ok.mp hloop
    cases hloop
    have hmoved := h.insertEntry (namesInvoice_cancelCall h.ledger ha) hins (.inr rfl) rfl
    have hmoved₂ := ih hmoved.ok (cancel_first h.ledger has hins).1 hrest
    have htrans := hmoved.trans hmoved₂
    have hamount : -(cancelCall U invoiceId a).amountMinor + -netApplied db₁ invoiceId =
        -netApplied db invoiceId := by
      have hnet := hmoved.net invoiceId
      rw [if_pos rfl] at hnet
      dsimp only at hnet
      rw [hnet]
      omega
    rw [hamount] at htrans
    exact htrans

end Moves

section Requests

variable {U : UpperTable} {db db' : DepositDb} {invoiceId : Nat}

lemma ite_paid_pending_ne (c : Prop) [Decidable c] :
    (if c then PaymentStatus.paid else .pending) ≠ .none := by
  split <;> simp

/-- The two applications of a request, from the profile and from the office. -/
lemma RetainerLedger.applyTwice (h : RetainerLedger U db) {bp : Nat} {clientId : Nat}
    {currency : Text} {useBp useGlobal : Int} {db₁ : DepositDb}
    (hbp : Billing.applyUse U db (applyCall (some bp) clientId currency useBp invoiceId) = .ok db₁)
    (hglobal : Billing.applyUse U db₁ (applyCall none clientId currency useGlobal invoiceId) =
      .ok db') :
    NetMoved U db db' invoiceId (max useBp 0 + max useGlobal 0) :=
  (h.applyUse hbp).trans ((h.applyUse hbp).ok.applyUse hglobal)

/-- Taking `req` first from the profile and then from the office takes `req` in all. -/
lemma max_uses {req balBp : Int} (hreq : 0 < req) (hbal : 0 ≤ balBp) :
    max (min req balBp) 0 + max (req - min req balBp) 0 = req := by
  omega

lemma getClientDepositBalanceMinor_nonneg {entries : List LedgerEntry} {bp : Option Nat}
    {clientId : Nat} {currency : Text} {bal : Int} (hbalances : ∀ b, 0 ≤ bucketSum b entries)
    (h : getClientDepositBalanceMinor U entries bp clientId currency = .ok bal) : 0 ≤ bal := by
  obtain ⟨-, hbal⟩ := check_bind_eq_ok.mp h
  cases hbal
  exact hbalances _

/-- What `apply_deposit` takes is outstanding, and the invoice is not void. -/
lemma applyDepositPlan_eq_ok {entries : List LedgerEntry} {inv : Invoice} {amount : AmountField}
    {plan : DepositPlan} (hbalances : ∀ b, 0 ≤ bucketSum b entries)
    (hnonneg : 0 ≤ -invoiceSum entries inv.id)
    (h : applyDepositPlan U entries inv amount = .ok plan) :
    inv.billingStatus ≠ .void ∧ 0 ≤ plan.newOutstanding ∧
      -invoiceSum entries inv.id + (max plan.useBp 0 + max plan.useGlobal 0) =
        inv.totalMinor - plan.newOutstanding := by
  simp only [applyDepositPlan, bind_eq_ok, check_eq_ok, exists_const, decide_eq_true_eq] at h
  obtain ⟨hvoid, -, hout, req, -, -, balBp, hbp, balGlobal, -, -, hpos, -, hplan⟩ := h
  cases hplan
  have hbal := getClientDepositBalanceMinor_nonneg hbalances hbp
  refine ⟨hvoid, ?_, ?_⟩
  · dsimp only
    split_ifs <;> omega
  · rw [max_uses hpos hbal]
    dsimp only
    split_ifs <;> omega

/-- `apply_deposit` moves what is outstanding at most and publishes a draft. The invoice is paid
when nothing is left. -/
lemma RetainerLedger.applyDeposit (h : RetainerLedger U db) {amount : AmountField}
    (happly : applyDeposit U db invoiceId amount = .ok db') :
    ∃ inv db₁ x payment verified, db.invoices.find invoiceId = some inv ∧
      inv.billingStatus ≠ .void ∧ NetMoved U db db₁ invoiceId x ∧
      netApplied db invoiceId + x ≤ inv.totalMinor ∧ payment ≠ .none ∧
      (payment = .paid ∨ verified = true → netApplied db invoiceId + x = inv.totalMinor) ∧
      db' = db₁.setStatus invoiceId
        (if inv.billingStatus = .draft then .sent else inv.billingStatus) payment verified := by
  obtain ⟨inv, hfound, happly⟩ := bind_eq_ok.mp happly
  obtain ⟨plan, hplan, happly⟩ := bind_eq_ok.mp happly
  obtain ⟨db₁, hbp, happly⟩ := bind_eq_ok.mp happly
  obtain ⟨db₂, hglobal, happly⟩ := bind_eq_ok.mp happly
  cases happly
  have hfind := find_of_findInvoice hfound
  obtain ⟨hvoid, hleft, hsum⟩ :=
    applyDepositPlan_eq_ok h.ledger.balances (netApplied_nonneg h.ledger inv.id) hplan
  rw [Table.key_of_find hfind] at hsum
  change netApplied db invoiceId + _ = _ at hsum
  refine ⟨inv, db₂, _, _, _, hfind, hvoid, h.applyTwice hbp hglobal, by omega,
    ite_paid_pending_ne _, ?_, rfl⟩
  intro hpaid
  have hnone : plan.newOutstanding ≤ 0 := by
    rcases hpaid with hpaid | hpaid
    · by_contra hsome
      rw [if_neg hsome] at hpaid
      cases hpaid
    · exact of_decide_eq_true hpaid
  omega

/-- `cancel_deposit_apply` takes an application back and leaves the billing status alone. The
invoice stays paid when what is left of the retainer covers it. -/
lemma RetainerLedger.cancelDepositApply (h : RetainerLedger U db) {entryId : Nat}
    (hcancel : cancelDepositApply U db invoiceId entryId = .ok db') :
    ∃ inv db₁ x payment verified, db.invoices.find invoiceId = some inv ∧ 0 < x ∧
      NetMoved U db db₁ invoiceId (-x) ∧ payment ≠ .none ∧
      (payment = .paid ∨ verified = true → inv.totalMinor ≤ max 0 (netApplied db₁ invoiceId)) ∧
      db' = db₁.setStatus invoiceId inv.billingStatus payment verified := by
  obtain ⟨inv, hfound, hcancel⟩ := bind_eq_ok.mp hcancel
  obtain ⟨a, ha, hcancel⟩ := bind_eq_ok.mp hcancel
  obtain ⟨hpos, hcancel⟩ := check_bind_eq_ok.mp hcancel
  obtain ⟨r, hins, hcancel⟩ := bind_eq_ok.mp hcancel
  cases hcancel
  have hnames : NamesInvoice db
      { businessProfileId := a.businessProfileId, clientId := inv.clientId,
        currency := stripUpper U (currencyOrDefault inv.currency), amountMinor := -a.amountMinor,
        entryType := .cancelApply, relatedInvoiceId := some invoiceId,
        relatedEntryId := some entryId } := by
    intro _ b hb hentry
    have hfind : db.ledger.find entryId = some b :=
      Table.find_eq_some.mpr ⟨hb, (Option.some.inj hentry).symm⟩
    unfold findApply at ha
    rw [hfind] at ha
    dsimp only at ha
    split at ha
    · next hb' =>
      rw [hb'.2]
      exact h.ledger.truthy_invoice hb hb'.2
    · cases ha
  refine ⟨inv, r.1, -a.amountMinor, _, _, find_of_findInvoice hfound, of_decide_eq_true hpos,
    h.insertEntry hnames hins (.inr rfl) rfl, ite_paid_pending_ne _, ?_, rfl⟩
  intro hpaid
  have hcovered : max 0 (inv.totalMinor - max 0 (-invoiceSum r.1.ledger.rows invoiceId)) ≤ 0 := by
    rcases hpaid with hpaid | hpaid
    · by_contra hsome
      rw [if_neg (by simp [hsome])] at hpaid
      cases hpaid
    · exact (of_decide_eq_true (of_decide_eq_true hpaid).1).1
  unfold netApplied
  omega

/-- An entry that is neither an application nor a cancellation moves nothing. -/
lemma RetainerLedger.clientDeposit (h : RetainerLedger U db) {bp : Option Nat} {clientId : Nat}
    {currency : Text} {amount : Int} {entryType : EntryType}
    (htype : entryType ≠ .cancelApply ∧ entryType ≠ .apply)
    (hdeposit : clientDeposit U db bp clientId currency amount entryType = .ok db') :
    NetMoved U db db' 0 0 := by
  obtain ⟨r, hins, hdeposit⟩ := bind_eq_ok.mp hdeposit
  cases hdeposit
  have hentry := inserted_of_insertEntry h.ledger (fun hcancel => absurd hcancel htype.1) hins
  obtain ⟨-, -, -, -, -, rfl⟩ := insertEntry_eq_ok.mp hins
  refine ⟨⟨h.ledger.insert hentry rfl rfl, ?_⟩, rfl, ?_⟩
  · intro e he k hk
    rcases List.mem_append.mp he with hold | hnew
    · exact h.named e hold k hk
    · rw [List.mem_singleton.mp hnew] at hk
      cases hk
  · intro k
    unfold netApplied
    change -invoiceSum (db.ledger.rows ++ [_]) k = _
    rw [invoiceSum_append, if_neg (fun hand => by cases hand.1), Int.add_zero, ite_self,
      Int.add_zero]

/-- A request for a retainer at creation asks for no more than the total, and for none when
the invoice is void. -/
lemma validateDepositRequest_eq_ok {entries : List LedgerEntry} {form : InvoiceForm} {req : Int}
    {statusCode : Option LegacyStatus}
    (h : validateDepositRequest U entries form = .ok (some req, statusCode)) :
    req ≤ form.totalMinor ∧ statusCode ≠ some .void := by
  unfold validateDepositRequest at h
  split at h
  · cases h
  · simp only [bind_eq_ok, check_eq_ok, exists_const] at h
    obtain ⟨hvoid, -, req', -, -, -, -, hreq⟩ := h
    cases hreq
    refine ⟨?_, of_decide_eq_true hvoid⟩
    split_ifs <;> omega

lemma RetainerLedger.applyRequestedDeposit (h : RetainerLedger U db) {form : InvoiceForm}
    {req : Int} (happly : applyRequestedDeposit U db invoiceId form req = .ok db') :
    ∃ inv db₁ x payment verified, db.invoices.find invoiceId = some inv ∧
      NetMoved U db db₁ invoiceId x ∧ x ≤ req ∧ payment ≠ .none ∧
      db' = db₁.setStatus invoiceId inv.billingStatus payment verified := by
  obtain ⟨balBp, hbal, happly⟩ := bind_eq_ok.mp happly
  obtain ⟨balGlobal, -, happly⟩ := bind_eq_ok.mp happly
  simp only [check_bind_eq_ok, decide_eq_true_eq] at happly
  obtain ⟨-, hpos, -, happly⟩ := happly
  obtain ⟨db₁, hbp, happly⟩ := bind_eq_ok.mp happly
  obtain ⟨db₂, hglobal, happly⟩ := bind_eq_ok.mp happly
  obtain ⟨inv, hfound, happly⟩ := bind_eq_ok.mp happly
  cases happly
  have hmoved := h.applyTwice hbp hglobal
  have hfind := find_of_findInvoice hfound
  rw [hmoved.invoices] at hfind
  rw [max_uses hpos (getClientDepositBalanceMinor_nonneg h.ledger.balances hbal)] at hmoved
  refine ⟨inv, db₂, _, _, _, hfind, hmoved, ?_, ite_paid_pending_ne _, rfl⟩
  split_ifs <;> omega

/-- A new invoice starts with nothing applied to it. -/
lemma netApplied_next (h : RetainerLedger U db) : netApplied db db.invoices.next = 0 := by
  have hnone : db.ledger.rows.filter (fun e => e.relatedInvoiceId = some db.invoices.next ∧
      (e.entryType = .apply ∨ e.entryType = .cancelApply)) = [] := by
    refine List.filter_eq_nil_iff.mpr ?_
    intro e he hmatch
    have hlt := h.named e he _ (of_decide_eq_true hmatch).1
    omega
  rw [netApplied, invoiceSum, hnone]
  rfl

lemma RetainerLedger.insertInvoice (h : RetainerLedger U db) {make : Nat → Invoice}
    (hmake : ∀ k, (make k).id = k) :
    RetainerLedger U { db with invoices := db.invoices.insert make hmake } := by
  refine ⟨h.ledger, ?_⟩
  intro e he k hk
  exact Nat.lt_succ_of_lt (h.named e he k hk)

lemma editRequested_le (amount : AmountField) (outstanding : Int) :
    amount.editRequested outstanding ≤ outstanding := by
  cases amount with
  | blank => exact Int.le_refl _
  | invalid => exact Int.le_refl _
  | minor n => exact min_le_right _ _

/-- What the retainer part of an edit may have done when it ends: nothing, or an application
of `x` with or without the status columns after it. -/
structure EditMoved (U : UpperTable) (db db' : DepositDb) (invoiceId : Nat)
    (billing : BillingStatus) (totalMinor : Int) : Prop where
  moved : ∃ db₁ x, NetMoved U db db₁ invoiceId x ∧ 0 ≤ x ∧
    (x = 0 ∨ billing ≠ .void ∧ netApplied db invoiceId + x ≤ totalMinor) ∧
    (db' = db₁ ∨ billing ≠ .void ∧ ∃ payment verified, payment ≠ .none ∧
      db' = db₁.setStatus invoiceId billing payment verified)

lemma EditMoved.refl (h : RetainerLedger U db) (invoiceId : Nat) (billing : BillingStatus)
    (totalMinor : Int) : EditMoved U db db invoiceId billing totalMinor :=
  ⟨db, 0, .refl h invoiceId, Int.le_refl 0, .inl rfl, .inl rfl⟩

lemma RetainerLedger.applyEditUses (h : RetainerLedger U db) {form : EditForm}
    {billing : BillingStatus} {appliedAlready useBp useGlobal totalMinor : Int}
    (hbilling : billing ≠ .void) (hglobal : 0 ≤ useGlobal)
    (hle : netApplied db invoiceId + (max useBp 0 + useGlobal) ≤ totalMinor) :
    EditMoved U db (applyEditUses U db invoiceId form billing appliedAlready useBp useGlobal)
      invoiceId billing totalMinor := by
  unfold Billing.applyEditUses
  dsimp only
  split
  · exact .refl h _ _ _
  · next db₁ hbp =>
    split
    · exact ⟨db₁, _, h.applyUse hbp, by omega, .inr ⟨hbilling, by omega⟩, .inl rfl⟩
    · next db₂ hoffice =>
      exact ⟨db₂, _, h.applyTwice hbp hoffice, by omega, .inr ⟨hbilling, by omega⟩,
        .inr ⟨hbilling, _, _, ite_paid_pending_ne _, rfl⟩⟩

lemma RetainerLedger.applyEditDeposit (h : RetainerLedger U db) (form : EditForm)
    (billing : BillingStatus) :
    EditMoved U db (applyEditDeposit U db invoiceId form billing) invoiceId billing
      form.totalMinor := by
  unfold Billing.applyEditDeposit
  split
  · exact .refl h _ _ _
  · next amount _ =>
    dsimp only
    rw [sum_natAbs_uncanceled h.ledger]
    split
    · exact .refl h _ _ _
    · next hgo =>
      split
      · next balBp balGlobal hbalBp _ =>
        have hbal := getClientDepositBalanceMinor_nonneg h.ledger.balances hbalBp
        have hreq := editRequested_le amount (form.totalMinor - netApplied db invoiceId)
        split
        · exact .refl h _ _ _
        · exact h.applyEditUses (fun hvoid => hgo (.inl hvoid)) (by omega) (by omega)
      · exact .refl h _ _ _

lemma mapError_eq_ok {α : Type} {x : Except String α} {f : String → String} {r : α} :
    x.mapError f = .ok r ↔ x = .ok r := by
  cases x <;> simp [Except.mapError]

/-- Cancelling everything that is applied. -/
lemma RetainerLedger.cancelUncanceled (h : RetainerLedger U db) {out : List CanceledEntry}
    (hcancel : cancelUncanceledDepositAppliesForInvoice U db invoiceId = .ok (db', out)) :
    NetMoved U db db' invoiceId (-netApplied db invoiceId) ∧ netApplied db' invoiceId = 0 := by
  have hmoved := h.cancelApplies _ rfl hcancel
  refine ⟨hmoved, ?_⟩
  rw [hmoved.net, if_pos rfl]
  omega

/-- Deleting an invoice leaves what is applied to the others. -/
lemma RetainerLedger.deleteInvoice (h : RetainerLedger U db) (id : Nat) :
    RetainerLedger U (db.deleteInvoice id) ∧
      ∀ k, k ≠ id → netApplied (db.deleteInvoice id) k = netApplied db k := by
  refine ⟨⟨h.ledger.deleteInvoice id, ?_⟩, ?_⟩
  · intro e he k hk
    obtain ⟨e, hmem, rfl⟩ := List.mem_map.mp he
    exact h.named e hmem k (detachInvoice_related.mp hk).1
  · intro k hk
    unfold netApplied
    change -invoiceSum (db.ledger.rows.map (detachInvoice id)) k = _
    rw [invoiceSum_detach, if_neg hk]

lemma retainerLedger_empty : RetainerLedger U .empty := by
  refine ⟨depositInvariant_empty.ledger, ?_⟩
  intro e he
  cases he

lemma RetainerLedger.burnIds (h : RetainerLedger U db) :
    RetainerLedger U ⟨db.invoices.burn, db.ledger.burn⟩ := by
  refine ⟨{ h.ledger with next_pos := Nat.succ_pos _ }, ?_⟩
  intro e he k hk
  exact Nat.lt_succ_of_lt (h.named e he k hk)

end Requests

end IpDocket.Billing
