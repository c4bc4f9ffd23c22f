import IpDocket.Billing.DepositInvariant

/-!
# Cancelling the retainer of an invoice

The loop of `cancel_uncanceled_deposit_applies_for_invoice` cancels one application after the
other. As long as the header of the invoice matches its applications, every insert of the loop
passes its checks. The only request that can break the match is an edit of the header.
-/

namespace IpDocket.Billing
open IpDocket.Lib

section Loop

variable {U : UpperTable} {db : DepositDb} {invoiceId : Nat} {a : LedgerEntry}

lemma cancelCall_currency (h : LedgerOk U db.ledger) (ha : a ∈ db.ledger.rows)
    (invoiceId : Nat) : stripUpper U (cancelCall U invoiceId a).currency = a.currency := by
  have hcur := (h.currency a ha).2
  rw [cancelCall, hcur, hcur]

lemma checkHeader_cancelCall (h : LedgerOk U db.ledger) (ha : a ∈ db.ledger.rows)
    {header : Invoice} (hmatch : matchesHeader U header a = true) :
    checkHeader U (cancelCall U invoiceId a) header = .ok () := by
  rw [checkHeader_eq_ok 0]
  rw [matchesHeader_iff] at hmatch ⊢
  simp only [EntryCall.toEntry, cancelCall_currency h ha]
  exact hmatch

lemma checkTarget_cancelCall (h : LedgerOk U db.ledger) (ha : a ∈ db.ledger.rows)
    (htype : a.entryType = .apply) : checkTarget U (cancelCall U invoiceId a) a = .ok () := by
  rw [checkTarget_eq_ok, cancelCall_currency h ha]
  exact ⟨rfl, rfl, fun _ => (h.currency a ha).2, fun _ => htype, fun _ => rfl⟩

/-- The insert for an application that is not cancelled passes all its checks. -/
lemma insertEntry_cancelCall (h : DepositInvariant U db)
    (ha : a ∈ uncanceledApplies db.ledger.rows invoiceId) :
    ∃ r, insertEntry U db (cancelCall U invoiceId a) = .ok r := by
  obtain ⟨hmem, hinv, htype, hopen⟩ := mem_uncanceledApplies.mp ha
  obtain ⟨header, hfind, hmatch⟩ := h.headers invoiceId a ha
  have hneg := h.ledger.apply_neg a hmem htype
  have hinvoice : truthy (cancelCall U invoiceId a).relatedInvoiceId = some invoiceId :=
    h.ledger.truthy_invoice hmem hinv
  have hentry : truthy (cancelCall U invoiceId a).relatedEntryId = some a.id :=
    truthy_eq_some.mpr ⟨rfl, h.ledger.id_ne a hmem⟩
  have hbalance := h.ledger.balances ((cancelCall U invoiceId a).bucket U)
  refine ⟨_, insertEntry_eq_ok.mpr ⟨?_, ?_, ?_, ?_, ?_, rfl⟩⟩
  · rw [validateEntry_eq_ok, cancelCall_currency h.ledger hmem, hinvoice]
    simp only [cancelCall]
    refine ⟨(h.ledger.currency a hmem).1, by omega, fun _ => by omega, ?_, fun _ => by omega, ?_,
      fun _ => rfl⟩
    · intro hne
      cases hne
    · intro hne
      cases hne
  · rw [hinvoice, Option.bind_some, hfind]
    unfold checkInvoice
    rw [hinvoice]
    exact checkHeader_cancelCall h.ledger hmem hmatch
  · rw [hentry, Option.bind_some, Table.find_of_mem hmem]
    unfold checkRelated
    rw [hentry]
    exact checkTarget_cancelCall h.ledger hmem htype
  · apply check_eq_ok.mpr
    apply decide_eq_true
    intro _ id hid
    rw [hentry] at hid
    cases hid
    exact hopen
  · apply check_eq_ok.mpr
    apply decide_eq_true
    simp only [cancelCall] at hbalance ⊢
    omega

lemma namesInvoice_cancelCall (h : LedgerOk U db.ledger)
    (ha : a ∈ uncanceledApplies db.ledger.rows invoiceId) :
    NamesInvoice db (cancelCall U invoiceId a) := by
  obtain ⟨hmem, hinv, -, -⟩ := mem_uncanceledApplies.mp ha
  intro _ b hb hentry
  have hid : a.id = b.id := Option.some.inj hentry
  rw [← Table.eq_of_key_eq hmem hb hid, hinv]
  exact h.truthy_invoice hmem hinv

/-- The loop skips none of the selected applications. -/
lemma LedgerOk.not_skipped (h : LedgerOk U db.ledger)
    (ha : a ∈ uncanceledApplies db.ledger.rows invoiceId) :
    ¬(stripUpper U a.currency = [] ∨ -a.amountMinor ≤ 0) := by
  obtain ⟨hmem, -, htype, -⟩ := mem_uncanceledApplies.mp ha
  have hneg := h.apply_neg a hmem htype
  rw [(h.currency a hmem).2]
  rintro (hcur | hamount)
  · exact (h.currency a hmem).1 hcur
  · omega

/-- One round of the loop: the application is cancelled and nothing else changes. -/
lemma cancel_first (h : LedgerOk U db.ledger) {as : List LedgerEntry}
    (has : uncanceledApplies db.ledger.rows invoiceId = a :: as)
    {r : DepositDb × EntryResult}
    (hins : insertEntry U db (cancelCall U invoiceId a) = .ok r) :
    uncanceledApplies r.1.ledger.rows invoiceId = as ∧ r.1.invoices = db.invoices ∧
      ∀ b, a.bucket ≠ b → bucketSum b r.1.ledger.rows = bucketSum b db.ledger.rows := by
  have ha : a ∈ uncanceledApplies db.ledger.rows invoiceId := by
    rw [has]
    exact List.mem_cons_self
  have hmem := (mem_uncanceledApplies.mp ha).1
  have hentry := inserted_of_insertEntry h (namesInvoice_cancelCall h ha) hins
  obtain ⟨a', ha', hcancels, -⟩ := hentry.cancels rfl
  obtain ⟨-, -, -, -, -, rfl⟩ := insertEntry_eq_ok.mp hins
  have hid : a'.id = a.id := by
    have hrel : truthy (some a.id) = some a'.id := hcancels.entry
    exact (Option.some.inj (truthy_eq_some.mp hrel).1).symm
  rw [Table.eq_of_key_eq ha' hmem hid] at hcancels
  have hrows : (db.ledger.insert ((cancelCall U invoiceId a).toEntry U) (fun _ => rfl)).rows =
      db.ledger.rows ++ [(cancelCall U invoiceId a).toEntry U db.ledger.next] := rfl
  refine ⟨?_, rfl, ?_⟩
  · have hdistinct : (a :: as).Pairwise (fun p q => p.id ≠ q.id) := by
      rw [← has]
      exact db.ledger.unique.filter _
    have hrest : as.filter (fun q => q.id ≠ a.id) = as :=
      List.filter_eq_self.mpr (fun q hq =>
        decide_eq_true (Ne.symm ((List.pairwise_cons.mp hdistinct).1 q hq)))
    rw [hrows, uncanceledApplies_append_cancel hcancels, has, List.filter_cons_of_neg (by simp),
      hrest]
  · intro b hb
    rw [hrows, bucketSum_append, bucketSum_singleton, hcancels.bucket, if_neg hb, Int.add_zero]

/-- The loop over all applications that are not cancelled succeeds and leaves none. -/
lemma cancelApplies_spec (as : List LedgerEntry) (h : DepositInvariant U db)
    (has : uncanceledApplies db.ledger.rows invoiceId = as) :
    ∃ db' out, cancelApplies U invoiceId db as = .ok (db', out) ∧ DepositInvariant U db' ∧
      uncanceledApplies db'.ledger.rows invoiceId = [] ∧ db'.invoices = db.invoices ∧
      ∀ b, (∀ a ∈ as, a.bucket ≠ b) →
        bucketSum b db'.ledger.rows = bucketSum b db.ledger.rows := by
  induction as generalizing db with
  | nil => exact ⟨db, [], rfl, h, has, rfl, fun _ _ => rfl⟩
  | cons a as ih =>
    have ha : a ∈ uncanceledApplies db.ledger.rows invoiceId := by
      rw [has]
      exact List.mem_cons_self
    obtain ⟨⟨db₁, result⟩, hins⟩ := insertEntry_cancelCall h ha
    have h₁ := h.insertEntry (namesInvoice_cancelCall h.ledger ha) hins
    obtain ⟨hrest, hinvoices, hsums⟩ := cancel_first h.ledger has hins
    obtain ⟨db₂, out, hloop, h₂, hnone, hinvoices₂, hsums₂⟩ := ih h₁ hrest
    let call := cancelCall U invoiceId a
    refine ⟨db₂, ⟨a.id, call.bucket U, call.amountMinor, invoiceId, result⟩ :: out, ?_, h₂, hnone,
      hinvoices₂.trans hinvoices, ?_⟩
    · rw [cancelApplies, if_neg (h.ledger.not_skipped ha)]
      exact bind_eq_ok.mpr ⟨_, hins, bind_eq_ok.mpr ⟨_, hloop, rfl⟩⟩
    · intro b hb
      rw [hsums₂ b (fun q hq => hb q (List.mem_cons_of_mem _ hq)),
        hsums b (hb a List.mem_cons_self)]

end Loop

/-- What a complete cancellation leaves behind. -/
structure CancellationComplete (db db' : DepositDb) (invoiceId : Nat) : Prop where
  sum : invoiceSum db'.ledger.rows invoiceId = 0
  canceled : ∀ a ∈ db'.ledger.rows, a.relatedInvoiceId = some invoiceId → a.entryType = .apply →
    ∃ c ∈ db'.ledger.rows, Cancels c a ∧ ∀ d ∈ db'.ledger.rows,
      d.entryType = .cancelApply → d.relatedEntryId = some a.id → d = c
  others : ∀ b, (∀ a ∈ uncanceledApplies db.ledger.rows invoiceId, a.bucket ≠ b) →
    bucketSum b db'.ledger.rows = bucketSum b db.ledger.rows

section Cancellation

variable {U : UpperTable} {db : DepositDb}

/-- Every application has been cancelled exactly once when none is left in the list. -/
lemma canceled_once (h : LedgerOk U db.ledger) {invoiceId : Nat}
    (hnone : uncanceledApplies db.ledger.rows invoiceId = []) {a : LedgerEntry}
    (ha : a ∈ db.ledger.rows) (hinv : a.relatedInvoiceId = some invoiceId)
    (htype : a.entryType = .apply) :
    ∃ c ∈ db.ledger.rows, Cancels c a ∧ ∀ d ∈ db.ledger.rows,
      d.entryType = .cancelApply → d.relatedEntryId = some a.id → d = c := by
  have hcanceled : isCanceled db.ledger.rows a.id = true := by
    by_contra hopen
    have hmem : a ∈ uncanceledApplies db.ledger.rows invoiceId :=
      mem_uncanceledApplies.mpr ⟨ha, hinv, htype, by simpa using hopen⟩
    rw [hnone] at hmem
    cases hmem
  obtain ⟨c, hc, hentry, hctype⟩ := isCanceled_iff.mp hcanceled
  obtain ⟨a', ha', hcancels⟩ := h.cancels c hc hctype
  have hid : a'.id = a.id := Option.some.inj (hcancels.entry.symm.trans hentry)
  rw [Table.eq_of_key_eq ha' ha hid] at hcancels
  refine ⟨c, hc, hcancels, ?_⟩
  intro d hd hdtype hdentry
  exact h.once d hd c hc hdtype hctype (hdentry.trans hentry.symm)

lemma cancelUncanceled_spec (h : DepositInvariant U db) (invoiceId : Nat) :
    ∃ db' out, cancelUncanceledDepositAppliesForInvoice U db invoiceId = .ok (db', out) ∧
      DepositInvariant U db' ∧ uncanceledApplies db'.ledger.rows invoiceId = [] ∧
      CancellationComplete db db' invoiceId := by
  obtain ⟨db', out, hloop, h', hnone, -, hothers⟩ := cancelApplies_spec _ h rfl
  refine ⟨db', out, hloop, h', hnone, ?_, ?_, hothers⟩
  · rw [h'.ledger.sums, hnone]
    rfl
  · intro a ha hinv htype
    exact canceled_once h'.ledger hnone ha hinv htype

end Cancellation

section Requests

variable {U : UpperTable} {db db' : DepositDb}

lemma DepositInvariant.applyUse (h : DepositInvariant U db) {call : EntryCall}
    (htype : call.entryType = .apply) (happly : applyUse U db call = .ok db') :
    DepositInvariant U db' := by
  unfold Billing.applyUse at happly
  split at happly
  · obtain ⟨r, hins, hr⟩ := bind_eq_ok.mp happly
    cases hr
    apply h.insertEntry _ hins
    intro hcancel
    rw [htype] at hcancel
    cases hcancel
  · cases happly
    exact h

/-- An `UPDATE` of a header under which its applications still match. -/
lemma DepositInvariant.updateInvoice (h : DepositInvariant U db) {id : Nat}
    {f : Invoice → Invoice} (hf : ∀ inv, (f inv).id = inv.id)
    (hkeep : ∀ header, db.invoices.find id = some header →
      ∀ a ∈ uncanceledApplies db.ledger.rows id,
        matchesHeader U header a = true → matchesHeader U (f header) a = true) :
    DepositInvariant U (db.updateInvoice id f hf) := by
  refine ⟨h.ledger, ?_⟩
  intro inv a ha
  obtain ⟨header, hfind, hmatch⟩ := h.headers inv a ha
  by_cases hid : inv = id
  · subst hid
    rw [find_updateInvoice, if_pos rfl, hfind]
    exact ⟨f header, rfl, hkeep header hfind a ha hmatch⟩
  · rw [find_updateInvoice, if_neg hid]
    exact ⟨header, hfind, hmatch⟩

lemma DepositInvariant.setStatus (h : DepositInvariant U db) (id : Nat) (billing : BillingStatus)
    (payment : PaymentStatus) (verified : Bool) :
    DepositInvariant U (db.setStatus id billing payment verified) :=
  h.updateInvoice _ (fun _ _ _ _ hmatch => hmatch)

lemma DepositInvariant.applyDeposit (h : DepositInvariant U db) {invoiceId : Nat}
    {amount : AmountField} (happly : applyDeposit U db invoiceId amount = .ok db') :
    DepositInvariant U db' := by
  obtain ⟨inv, -, happly⟩ := bind_eq_ok.mp happly
  obtain ⟨plan, -, happly⟩ := bind_eq_ok.mp happly
  obtain ⟨db₁, hbp, happly⟩ := bind_eq_ok.mp happly
  obtain ⟨db₂, hglobal, happly⟩ := bind_eq_ok.mp happly
  cases happly
  exact ((h.applyUse rfl hbp).applyUse rfl hglobal).setStatus _ _ _ _

lemma DepositInvariant.cancelDepositApply (h : DepositInvariant U db) {invoiceId entryId : Nat}
    (hcancel : cancelDepositApply U db invoiceId entryId = .ok db') : DepositInvariant U db' := by
  obtain ⟨inv, -, hcancel⟩ := bind_eq_ok.mp hcancel
  obtain ⟨a, ha, hcancel⟩ := bind_eq_ok.mp hcancel
  obtain ⟨-, hcancel⟩ := check_bind_eq_ok.mp hcancel
  obtain ⟨r, hins, hcancel⟩ := bind_eq_ok.mp hcancel
  cases hcancel
  refine (h.insertEntry ?_ hins).setStatus _ _ _ _
  intro _ b hb hentry
  have hfind : db.ledger.find entryId = some b :=
    Table.find_eq_some.mpr ⟨hb, (Option.some.inj hentry).symm⟩
  unfold findApply at ha
  rw [hfind] at ha
  dsimp only at ha
  split at ha
  · next hb' =>
    rw [hb'.2]
    exact h.ledger.truthy_invoice hb hb'.2
  · cases ha

lemma DepositInvariant.clientDeposit (h : DepositInvariant U db) {bp : Option Nat}
    {clientId : Nat} {currency : Text} {amount : Int} {entryType : EntryType}
    (htype : entryType ≠ .cancelApply)
    (hdeposit : clientDeposit U db bp clientId currency amount entryType = .ok db') :
    DepositInvariant U db' := by
  obtain ⟨r, hins, hdeposit⟩ := bind_eq_ok.mp hdeposit
  cases hdeposit
  exact h.insertEntry (fun hcancel => absurd hcancel htype) hins

lemma DepositInvariant.applyRequestedDeposit (h : DepositInvariant U db) {invoiceId : Nat}
    {form : InvoiceForm} {req : Int}
    (happly : applyRequestedDeposit U db invoiceId form req = .ok db') :
    DepositInvariant U db' := by
  obtain ⟨balBp, -, happly⟩ := bind_eq_ok.mp happly
  obtain ⟨balGlobal, -, happly⟩ := bind_eq_ok.mp happly
  simp only [check_bind_eq_ok] at happly
  obtain ⟨-, -, -, happly⟩ := happly
  obtain ⟨db₁, hbp, happly⟩ := bind_eq_ok.mp happly
  obtain ⟨db₂, hglobal, happly⟩ := bind_eq_ok.mp happly
  obtain ⟨inv, -, happly⟩ := bind_eq_ok.mp happly
  cases happly
  exact ((h.applyUse rfl hbp).applyUse rfl hglobal).setStatus _ _ _ _

lemma DepositInvariant.applyDepositIfRequested (h : DepositInvariant U db) (invoiceId : Nat)
    (form : InvoiceForm) (req : Option Int) :
    DepositInvariant U (applyDepositIfRequested U db invoiceId form req) := by
  unfold Billing.applyDepositIfRequested
  split
  · exact h
  · split
    · exact h
    · split
      · next happly => exact h.applyRequestedDeposit happly
      · exact h

lemma DepositInvariant.createInvoice (h : DepositInvariant U db) {form : InvoiceForm}
    (hcreate : createInvoice U db form = .ok db') : DepositInvariant U db' := by
  obtain ⟨-, hcreate⟩ := check_bind_eq_ok.mp hcreate
  obtain ⟨⟨req, statusCode⟩, -, hcreate⟩ := bind_eq_ok.mp hcreate
  cases hcreate
  apply DepositInvariant.applyDepositIfRequested
  refine ⟨h.ledger, ?_⟩
  intro inv a ha
  obtain ⟨header, hfind, hmatch⟩ := h.headers inv a ha
  exact ⟨header, Table.find_insert_some (fun _ => rfl) hfind, hmatch⟩

lemma DepositInvariant.applyEditUses (h : DepositInvariant U db) (invoiceId : Nat)
    (form : EditForm) (billing : BillingStatus) (appliedAlready useBp useGlobal : Int) :
    DepositInvariant U
      (applyEditUses U db invoiceId form billing appliedAlready useBp useGlobal) := by
  unfold Billing.applyEditUses
  dsimp only
  split
  · exact h
  · next hbp =>
    have h₁ := h.applyUse rfl hbp
    split
    · exact h₁
    · next hglobal => exact (h₁.applyUse rfl hglobal).setStatus _ _ _ _

lemma DepositInvariant.applyEditDeposit (h : DepositInvariant U db) (invoiceId : Nat)
    (form : EditForm) (billing : BillingStatus) :
    DepositInvariant U (applyEditDeposit U db invoiceId form billing) := by
  unfold Billing.applyEditDeposit
  split
  · exact h
  · dsimp only
    split
    · exact h
    · split
      · split
        · exact h
        · exact h.applyEditUses _ _ _ _ _ _
      · exact h

end Requests

section Delete

variable {U : UpperTable} {rows : List LedgerEntry} {e a c : LedgerEntry} {id inv : Nat}

lemma detachInvoice_related : (detachInvoice id e).relatedInvoiceId = some inv ↔
    e.relatedInvoiceId = some inv ∧ inv ≠ id := by
  simp [detachInvoice, Option.filter_eq_some_iff]

lemma isCanceled_detach (k : Nat) :
    isCanceled (rows.map (detachInvoice id)) k = isCanceled rows k := by
  simp only [isCanceled, List.any_map]
  rfl

lemma Cancels.detach (h : Cancels c a) (id : Nat) :
    Cancels (detachInvoice id c) (detachInvoice id a) :=
  ⟨h.cancel, h.apply, h.entry, congrArg (Option.filter _) h.invoice, h.bucket, h.amount⟩

lemma invoiceSum_detach : invoiceSum (rows.map (detachInvoice id)) inv =
    if inv = id then 0 else invoiceSum rows inv := by
  simp only [invoiceSum, List.filter_map, List.map_map, Function.comp_def, detachInvoice_related]
  split
  · next hid => simp [hid]
  · next hid =>
    simp only [ne_eq, hid, not_false_eq_true, and_true]
    rfl

lemma uncanceledApplies_detach : uncanceledApplies (rows.map (detachInvoice id)) inv =
    if inv = id then [] else (uncanceledApplies rows inv).map (detachInvoice id) := by
  simp only [uncanceledApplies, isCanceled_detach, List.filter_map, Function.comp_def,
    detachInvoice_related]
  split
  · next hid => simp [hid]
  · next hid =>
    simp only [ne_eq, hid, not_false_eq_true, and_true]
    rfl

lemma sums_detach (h : invoiceSum rows inv =
      ((uncanceledApplies rows inv).map LedgerEntry.amountMinor).sum) :
    invoiceSum (rows.map (detachInvoice id)) inv =
      ((uncanceledApplies (rows.map (detachInvoice id)) inv).map LedgerEntry.amountMinor).sum := by
  rw [invoiceSum_detach, uncanceledApplies_detach]
  split
  · rfl
  · rw [h, List.map_map]
    rfl

lemma LedgerOk.deleteInvoice {db : DepositDb} (h : LedgerOk U db.ledger) (id : Nat) :
    LedgerOk U (db.deleteInvoice id).ledger := by
  have hrows : (db.deleteInvoice id).ledger.rows = db.ledger.rows.map (detachInvoice id) := rfl
  refine ⟨h.next_pos, ?_, ?_, ?_, ?_, ?_, ?_, ?_, ?_⟩
  · intro e he
    obtain ⟨e, hmem, rfl⟩ := List.mem_map.mp he
    exact h.id_ne e hmem
  · intro e he hzero
    obtain ⟨e, hmem, rfl⟩ := List.mem_map.mp he
    exact h.invoice_ne e hmem (detachInvoice_related.mp hzero).1
  · intro e he
    obtain ⟨e, hmem, rfl⟩ := List.mem_map.mp he
    exact h.currency e hmem
  · intro e he
    obtain ⟨e, hmem, rfl⟩ := List.mem_map.mp he
    exact h.apply_neg e hmem
  · intro c hc htype
    obtain ⟨c, hmem, rfl⟩ := List.mem_map.mp hc
    obtain ⟨a, ha, hcancels⟩ := h.cancels c hmem htype
    exact ⟨detachInvoice id a, List.mem_map_of_mem ha, hcancels.detach id⟩
  · intro c hc d hd hctype hdtype heq
    obtain ⟨c, hcmem, rfl⟩ := List.mem_map.mp hc
    obtain ⟨d, hdmem, rfl⟩ := List.mem_map.mp hd
    rw [h.once c hcmem d hdmem hctype hdtype heq]
  · intro b
    rw [hrows, bucketSum_detachInvoice]
    exact h.balances b
  · intro inv
    exact sums_detach (h.sums inv)

lemma DepositInvariant.deleteInvoice {db : DepositDb} (h : DepositInvariant U db) (id : Nat) :
    DepositInvariant U (db.deleteInvoice id) := by
  have hrows : (db.deleteInvoice id).ledger.rows = db.ledger.rows.map (detachInvoice id) := rfl
  refine ⟨h.ledger.deleteInvoice id, ?_⟩
  intro inv a ha
  rw [hrows, uncanceledApplies_detach] at ha
  split at ha
  · cases ha
  · next hne =>
    obtain ⟨b, hb, rfl⟩ := List.mem_map.mp ha
    obtain ⟨header, hfind, hmatch⟩ := h.headers inv b hb
    exact ⟨header, (Table.find_delete_of_ne hne).trans hfind, hmatch⟩

end Delete

/-! ### Runs -/

section Runs

variable (U : UpperTable)

/-- An edit that is let through leaves the header matching the applications that are not
cancelled, or voids the invoice and so cancels them first. -/
def editKeepsApplies (db : DepositDb) : DepositRequest → Bool
  | .editInvoice invoiceId form =>
    match editGate db invoiceId form with
    | .error _ => true
    | .ok inv =>
      let split := computeBillingPaymentFromStatus form.statusCode inv.paymentVerified
      split.1 = .void ∨ ∀ a ∈ uncanceledApplies db.ledger.rows invoiceId,
        matchesHeader U (form.header split.1 split.2 inv) a
  | _ => true

variable {U} {db db' : DepositDb}

lemma find_of_findInvoice {id : Nat} {inv : Invoice} (h : findInvoice db id = .ok inv) :
    db.invoices.find id = some inv := by
  unfold findInvoice at h
  split at h
  · next hfind =>
    cases h
    exact hfind
  · cases h

lemma find_of_editGate {invoiceId : Nat} {form : EditForm} {inv : Invoice}
    (h : editGate db invoiceId form = .ok inv) : db.invoices.find invoiceId = some inv := by
  obtain ⟨inv', hfound, h⟩ := bind_eq_ok.mp h
  simp only [check_bind_eq_ok] at h
  obtain ⟨-, -, -, -, h⟩ := h
  cases h
  exact find_of_findInvoice hfound

/-- An edit that is let through goes through. -/
lemma DepositInvariant.editInvoice (h : DepositInvariant U db) {invoiceId : Nat} {form : EditForm}
    {inv : Invoice} (hgate : editGate db invoiceId form = .ok inv)
    (hkeeps : editKeepsApplies U db (.editInvoice invoiceId form) = true) :
    ∃ db', editInvoice U db invoiceId form = .ok db' ∧ DepositInvariant U db' := by
  simp only [editKeepsApplies, hgate, decide_eq_true_eq] at hkeeps
  generalize hsplit : computeBillingPaymentFromStatus form.statusCode inv.paymentVerified = split
    at hkeeps
  obtain ⟨billing, payment⟩ := split
  by_cases hvoid : billing = .void
  · obtain ⟨db₁, out, hcancel, h₁, hnone, -⟩ := cancelUncanceled_spec h invoiceId
    have hupdated : DepositInvariant U
        (db₁.updateInvoice invoiceId (form.header billing payment) (fun _ => rfl)) := by
      apply h₁.updateInvoice
      intro header _ a ha
      rw [hnone] at ha
      cases ha
    refine ⟨_, bind_eq_ok.mpr ⟨inv, hgate, ?_⟩, hupdated.applyEditDeposit invoiceId form billing⟩
    rw [hsplit]
    simp only [if_pos hvoid]
    exact bind_eq_ok.mpr ⟨_, hcancel, rfl⟩
  · have hmatches := hkeeps.resolve_left hvoid
    have hupdated : DepositInvariant U
        (db.updateInvoice invoiceId (form.header billing payment) (fun _ => rfl)) := by
      apply h.updateInvoice
      intro header hfind a ha _
      rw [find_of_editGate hgate] at hfind
      cases hfind
      exact hmatches a ha
    refine ⟨_, bind_eq_ok.mpr ⟨inv, hgate, ?_⟩, hupdated.applyEditDeposit invoiceId form billing⟩
    rw [hsplit]
    simp only [if_neg hvoid]
    rfl

lemma DepositInvariant.voidInvoice (h : DepositInvariant U db) {invoiceId : Nat} {inv : Invoice}
    (hfind : db.invoices.find invoiceId = some inv) (hallowed : voidAllowed inv.status = true) :
    ∃ db', voidInvoice U db invoiceId = .ok db' ∧ DepositInvariant U db' := by
  obtain ⟨db₁, out, hcancel, h₁, -⟩ := cancelUncanceled_spec h invoiceId
  refine ⟨_, ?_, h₁.setStatus invoiceId .void .none false⟩
  refine bind_eq_ok.mpr ⟨inv, by rw [findInvoice, hfind], ?_⟩
  refine check_bind_eq_ok.mpr ⟨hallowed, ?_⟩
  rw [hcancel]
  rfl

lemma DepositInvariant.deleteLoop (h : DepositInvariant U db) (ids : List Nat) :
    ∃ db', deleteLoop U db ids = .ok db' ∧ DepositInvariant U db' := by
  induction ids generalizing db with
  | nil => exact ⟨db, rfl, h⟩
  | cons id ids ih =>
    obtain ⟨db₁, out, hcancel, h₁, -⟩ := cancelUncanceled_spec h id
    obtain ⟨db₂, hloop, h₂⟩ := ih (h₁.deleteInvoice id)
    refine ⟨db₂, ?_, h₂⟩
    rw [Billing.deleteLoop, hcancel]
    exact hloop

lemma DepositInvariant.deleteInvoices (h : DepositInvariant U db) {ids snapshots : List Nat}
    {skipMissing : Bool} (hgate : deleteSnapshots db skipMissing ids.eraseDups = .ok snapshots) :
    ∃ db', deleteInvoices U db ids skipMissing = .ok db' ∧ DepositInvariant U db' := by
  obtain ⟨db', hloop, h'⟩ := h.deleteLoop snapshots
  exact ⟨db', bind_eq_ok.mpr ⟨snapshots, hgate, hloop⟩, h'⟩

/-- Every request that succeeds keeps the invariant. -/
lemma DepositInvariant.handle (h : DepositInvariant U db) {r : DepositRequest}
    (hkeeps : editKeepsApplies U db r = true) (hhandle : handle U db r = .ok db') :
    DepositInvariant U db' := by
  cases r with
  | createInvoice form => exact h.createInvoice hhandle
  | applyDeposit invoiceId amount => exact h.applyDeposit hhandle
  | cancelDepositApply invoiceId entryId => exact h.cancelDepositApply hhandle
  | editInvoice invoiceId form =>
    obtain ⟨inv, hgate, -⟩ := bind_eq_ok.mp hhandle
    obtain ⟨db₁, hedit, h₁⟩ := h.editInvoice hgate hkeeps
    cases hedit.symm.trans hhandle
    exact h₁
  | voidInvoice invoiceId =>
    obtain ⟨inv, hfind, hrest⟩ := bind_eq_ok.mp hhandle
    obtain ⟨hallowed, -⟩ := check_bind_eq_ok.mp hrest
    obtain ⟨db₁, hvoid, h₁⟩ := h.voidInvoice (find_of_findInvoice hfind) hallowed
    cases hvoid.symm.trans hhandle
    exact h₁
  | deleteInvoices ids skipMissing =>
    obtain ⟨snapshots, hgate, -⟩ := bind_eq_ok.mp hhandle
    obtain ⟨db₁, hdelete, h₁⟩ := h.deleteInvoices hgate
    cases hdelete.symm.trans hhandle
    exact h₁
  | topup bp clientId currency amount =>
    exact h.clientDeposit (by decide) (check_bind_eq_ok.mp hhandle).2
  | refund bp clientId currency amount =>
    exact h.clientDeposit (by decide) (check_bind_eq_ok.mp hhandle).2
  | adjust bp clientId currency amount =>
    exact h.clientDeposit (by decide) (check_bind_eq_ok.mp hhandle).2
  | statusColumns invoiceId billing payment verified =>
    cases hhandle
    exact h.setStatus invoiceId billing payment verified
  | burnIds =>
    cases hhandle
    exact ⟨{ h.ledger with next_pos := Nat.succ_pos _ }, h.headers⟩

lemma depositInvariant_empty : DepositInvariant U .empty := by
  refine ⟨⟨Nat.one_pos, ?_, ?_, ?_, ?_, ?_, ?_, fun _ => Int.le_refl 0, fun _ => rfl⟩, ?_⟩
  all_goals
    intros
    contradiction

/-- After any requests whose edits keep the headers matching, the retainer of every invoice
can be cancelled completely, and no voiding (with the status or with an edit) and no deletion
that passes the checks of its status fails because of the retainer. -/
theorem deposit_cancellation_complete {rs : List DepositRequest}
    (h : GuardedRun (requestStep U) (fun db r => editKeepsApplies U db r = true) .empty rs db)
    (invoiceId : Nat) :
    (∃ db' out, cancelUncanceledDepositAppliesForInvoice U db invoiceId = .ok (db', out) ∧
      CancellationComplete db db' invoiceId) ∧
    (∀ inv, db.invoices.find invoiceId = some inv → voidAllowed inv.status = true →
      ∃ db', voidInvoice U db invoiceId = .ok db') ∧
    (∀ form inv, form.statusCode = some .void → editGate db invoiceId form = .ok inv →
      ∃ db', editInvoice U db invoiceId form = .ok db') ∧
    ∀ ids skipMissing snapshots, deleteSnapshots db skipMissing ids.eraseDups = .ok snapshots →
      ∃ db', deleteInvoices U db ids skipMissing = .ok db' := by
  have hinv : DepositInvariant U db := by
    apply h.invariant depositInvariant_empty
    intro t r u ht hkeeps hstep
    unfold requestStep at hstep
    split at hstep
    · next hhandle =>
      cases hstep
      exact ht.handle hkeeps hhandle
    · cases hstep
      exact ht
  refine ⟨?_, ?_, ?_, ?_⟩
  · obtain ⟨db', out, hcancel, -, -, hcomplete⟩ := cancelUncanceled_spec hinv invoiceId
    exact ⟨db', out, hcancel, hcomplete⟩
  · intro inv hfind hallowed
    obtain ⟨db', hvoid, -⟩ := hinv.voidInvoice hfind hallowed
    exact ⟨db', hvoid⟩
  · intro form inv hvoid hgate
    have hkeeps : editKeepsApplies U db (.editInvoice invoiceId form) = true := by
      simp only [editKeepsApplies, hgate, hvoid]
      exact decide_eq_true (.inl rfl)
    obtain ⟨db', hedit, -⟩ := hinv.editInvoice hgate hkeeps
    exact ⟨db', hedit⟩
  · intro ids skipMissing snapshots hgate
    obtain ⟨db', hdelete, -⟩ := hinv.deleteInvoices hgate
    exact ⟨db', hdelete⟩

end Runs

/-- An invoice of 200 for client 7, to which all of the retainer is applied. -/
def partlyPaidForm : InvoiceForm := ⟨7, 1, "usd".toList, 200, some .sent, some .blank⟩

def clientForm (clientId : Nat) : EditForm :=
  { clientId := clientId, businessProfileId := 1, currency := "USD".toList, totalMinor := 150,
    statusCode := some .paymentPending, deposit := none, lineError := false }

/-- A retainer of 100 is paid in and applied, and the invoice is edited. -/
def requestsWithEdit (clientId : Nat) : List DepositRequest :=
  [.topup (some 1) 7 "USD".toList 100, .createInvoice partlyPaidForm,
    .editInvoice 1 (clientForm clientId)]

/-- The edit changes the total only. -/
theorem deposit_cancellation_complete_same_client :
    ∃ db, GuardedRun (requestStep asciiTable) (fun db r => editKeepsApplies asciiTable db r = true)
        .empty (requestsWithEdit 7) db ∧
      (uncanceledApplies db.ledger.rows 1).length = 1 ∧
      ∃ db' out, cancelUncanceledDepositAppliesForInvoice asciiTable db 1 = .ok (db', out) ∧
        CancellationComplete db db' 1 :=
  exists_guardedRun rfl
    (fun hrun => ⟨by decide, (deposit_cancellation_complete hrun 1).1⟩)

/-- The edit changes the client: the application stays with the old one, and cancelling it
is aborted because the invoice is the new one's. -/
theorem deposit_cancellation_blocked_by_edit :
    ¬∀ (rs : List DepositRequest) (db : DepositDb), Run (requestStep asciiTable) .empty rs db →
      ∀ invoiceId, ∃ db' out,
        cancelUncanceledDepositAppliesForInvoice asciiTable db invoiceId = .ok (db', out) := by
  intro h
  have hrun : Run (requestStep asciiTable) .empty (requestsWithEdit 8) _ :=
    guardedRun_of_execute rfl
  obtain ⟨db', out, hcancel⟩ := h _ _ hrun 1
  cases hcancel

end IpDocket.Billing
