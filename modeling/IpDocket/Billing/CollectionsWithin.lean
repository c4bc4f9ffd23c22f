import IpDocket.Billing.Collections

/-!
# No over-collection

A document is in order when both readers agree on its records and its report is their sum. An
append keeps a document in order, a replacement has to be in order itself, and the marks of the
retainer do not touch what is read.
-/

namespace IpDocket.Billing
open IpDocket.Lib

section Documents

variable {T : DigitTables} {H : PyHost T.toUnicodeTables} {inv inv' : Invoice}
  {fields fields' : Fields T H} {r : Fields T H}

/-- The records of a document. -/
def docRecords (fields : Fields T H) : List (Fields T H) := paymentMetaRecords (some (.obj fields))

lemma paymentMetaRecords_existing (v : Option (Value T H)) :
    paymentMetaRecords v = docRecords (existingFields v) := by
  match v with
  | none => rfl
  | some (.obj fields) => rfl
  | some .null => rfl
  | some (.bool _) => rfl
  | some (.int _) => rfl
  | some (.float _) => rfl
  | some (.str _) => rfl
  | some (.arr _) => rfl

structure DocOk (inv : Invoice) (fields : Fields T H) : Prop where
  currency : nativeOrBlank T (defaultCurrency T inv) (get fields "currency") = true
  records : ∀ r ∈ docRecords fields, recordAgrees inv r = true
  deposit : 0 ≤ (paymentDepositMinor T H (get fields "deposit")
    (.str (defaultCurrency T inv))).getD 0
  paid : paymentMetaPaidMinor T H fields (upperCurrency T inv) =
    some ((docRecords fields).map (recordMinor inv)).sum

lemma recordAgrees_iff : recordAgrees inv r = true ↔
    nativeOrBlank T (defaultCurrency T inv) (get r "currency") = true ∧ 0 ≤ recordMinor inv r ∧
      amountToMinor T H (get r "deposit") (.str (defaultCurrency T inv)) =
        some (recordMinor inv r) := decide_eq_true_iff

lemma DocOk.nonneg (h : DocOk inv fields) : 0 ≤ ((docRecords fields).map (recordMinor inv)).sum := by
  apply List.sum_nonneg
  intro x hx
  obtain ⟨r, hr, rfl⟩ := List.mem_map.mp hx
  exact (recordAgrees_iff.mp (h.records r hr)).2.1

/-- Only the currency of the invoice matters. -/
lemma DocOk.of_currency (h : DocOk inv fields) (hcur : inv'.currency = inv.currency) :
    DocOk inv' fields := by
  have hcode : defaultCurrency T inv' = defaultCurrency T inv := by
    rw [defaultCurrency, hcur, defaultCurrency]
  have hupper : upperCurrency T inv' = upperCurrency T inv := by
    rw [upperCurrency, hcur, upperCurrency]
  have hminor : ∀ r : Fields T H, recordMinor inv' r = recordMinor inv r := by
    intro r
    rw [recordMinor, hcur, recordMinor]
  have hagrees : ∀ r : Fields T H, recordAgrees inv' r = recordAgrees inv r := by
    intro r
    simp only [recordAgrees, hcode, hminor]
  have hmap : (docRecords fields).map (recordMinor inv') =
      (docRecords fields).map (recordMinor inv) := List.map_congr_left (fun r _ => hminor r)
  refine ⟨hcode ▸ h.currency, fun r hr => (hagrees r).trans (h.records r hr), ?_, ?_⟩
  · rw [hcode]
    exact h.deposit
  · rw [hupper, hmap]
    exact h.paid

lemma stripUpper_upperCurrency (inv : Invoice) :
    stripUpper T.toUpperTable (upperCurrency T inv) = defaultCurrency T inv := by
  unfold stripUpper upperCurrency defaultCurrency
  rw [pyStrip_pyUpper, pyUpper_pyUpper]
  rfl

/-- The empty document. -/
lemma docOk_nil (inv : Invoice) : DocOk (T := T) (H := H) inv [] := by
  refine ⟨rfl, List.forall_mem_nil _, ?_, ?_⟩
  · obtain ⟨code, hcode, -⟩ := @paymentMetaCurrency_str T H (defaultCurrency T inv)
    have hzero : paymentDepositMinor T H .null (.str (defaultCurrency T inv)) = some 0 :=
      paymentDepositMinor_of_falsy hcode rfl
    exact (congrArg (Option.getD · 0) hzero).ge
  · obtain ⟨cur, hcur, -⟩ := @paymentMetaCurrency_str T H (upperCurrency T inv)
    have hnull : amountToMinor T H .null (.str (upperCurrency T inv)) = some 0 := by
      unfold amountToMinor reportCurrency
      rw [hcur]
      rfl
    exact hnull

lemma get_pop (key key' : String) (fields : Fields T H) (hne : key' ≠ key) :
    get (pop key fields) key' = get fields key' := by
  unfold get pop
  induction fields with
  | nil => rfl
  | cons kv fields ih =>
    obtain ⟨k, v⟩ := kv
    by_cases hk : k = key.toList
    · have hother : k ≠ key'.toList := by
        rintro rfl
        exact hne (String.toList_inj.mp hk)
      rw [List.filter_cons_of_neg (by simp [hk]), ih, field_cons, if_neg hother]
    · rw [List.filter_cons_of_pos (by simp [hk]), field_cons, field_cons, ih]

/-- The marks leave all other keys alone. -/
lemma get_stampedMeta {key : String} (verified : Bool) (stamp : VerifiedStamp T H)
    (fields : Fields T H) (h : key ∉ ["verified_via", "verified_at", "verified_by_username",
      "verified_by_user_id"]) : get (stampedMeta verified stamp fields) key = get fields key := by
  simp only [List.mem_cons, List.not_mem_nil, or_false, not_or] at h
  obtain ⟨hvia, hat, hname, hid⟩ := h
  unfold stampedMeta
  split
  · rw [get_put, if_neg hvia, get_put, if_neg hat, get_put, if_neg hname, get_put, if_neg hid]
  · split
    · split
      · rw [get_pop _ _ _ hvia, get_pop _ _ _ hat, get_pop _ _ _ hname, get_pop _ _ _ hid]
      · rfl
    · rfl

/-- A document without a list of deposits is its own record, with its marks. -/
lemma docRecords_stampedMeta (verified : Bool) (stamp : VerifiedStamp T H) (fields : Fields T H) :
    docRecords (stampedMeta verified stamp fields) = docRecords fields ∨
      docRecords fields = [fields] ∧
        docRecords (stampedMeta verified stamp fields) = [stampedMeta verified stamp fields] := by
  unfold docRecords paymentMetaRecords
  dsimp only
  rw [get_stampedMeta verified stamp fields (by simp)]
  split
  · exact .inl rfl
  · have hany : ["tid", "summary", "deposit"].any
        (fun key => filled (get (stampedMeta verified stamp fields) key)) =
        ["tid", "summary", "deposit"].any (fun key => filled (get fields key)) := by
      simp only [List.any_cons, List.any_nil]
      rw [get_stampedMeta verified stamp fields (by simp),
        get_stampedMeta verified stamp fields (by simp),
        get_stampedMeta verified stamp fields (by simp)]
    rw [hany]
    split
    · exact .inr ⟨rfl, rfl⟩
    · exact .inl rfl

lemma recordMinor_stampedMeta (verified : Bool) (stamp : VerifiedStamp T H) :
    recordMinor inv (stampedMeta verified stamp fields) = recordMinor inv fields := by
  rw [recordMinor, get_stampedMeta verified stamp fields (by simp), recordMinor]

lemma sum_docRecords_stampedMeta (inv : Invoice) (verified : Bool) (stamp : VerifiedStamp T H)
    (fields : Fields T H) :
    ((docRecords (stampedMeta verified stamp fields)).map (recordMinor inv)).sum =
      ((docRecords fields).map (recordMinor inv)).sum := by
  rcases docRecords_stampedMeta verified stamp fields with hsame | ⟨hold, hnew⟩
  · rw [hsame]
  · rw [hold, hnew, List.map_singleton, List.map_singleton, recordMinor_stampedMeta]

lemma DocOk.stamped (h : DocOk inv fields) (verified : Bool) (stamp : VerifiedStamp T H) :
    DocOk inv (stampedMeta verified stamp fields) := by
  have hcurrency : get (stampedMeta verified stamp fields) "currency" = get fields "currency" :=
    get_stampedMeta verified stamp fields (by simp)
  have hdeposit : get (stampedMeta verified stamp fields) "deposit" = get fields "deposit" :=
    get_stampedMeta verified stamp fields (by simp)
  have hdeposits : get (stampedMeta verified stamp fields) "deposits" = get fields "deposits" :=
    get_stampedMeta verified stamp fields (by simp)
  refine ⟨hcurrency ▸ h.currency, ?_, hdeposit ▸ h.deposit, ?_⟩
  · intro r hr
    rcases docRecords_stampedMeta verified stamp fields with hsame | ⟨hold, hnew⟩
    · exact h.records r (hsame ▸ hr)
    · rw [hnew] at hr
      have hself := h.records fields (by rw [hold]; exact List.mem_singleton_self _)
      rw [List.mem_singleton.mp hr, recordAgrees_iff, hcurrency, hdeposit,
        recordMinor_stampedMeta]
      exact recordAgrees_iff.mp hself
  · rw [sum_docRecords_stampedMeta, ← h.paid]
    unfold paymentMetaPaidMinor listedPaidMinor
    rw [hdeposits, hcurrency, hdeposit]

lemma pyOr_assoc (a b c : Value T H) : pyOr H (pyOr H a b) c = pyOr H a (pyOr H b c) := by
  unfold pyOr
  by_cases ha : pyTruthy H a = true
  · simp [ha]
  · simp [ha]

/-- An amount that was stored for the invoice. -/
lemma recordAgrees_of_stored {n : ℤ} (hne : defaultCurrency T inv ≠ [])
    (husd : defaultCurrency T inv ≠ "USD".toList)
    (hcurrency : nativeOrBlank T (defaultCurrency T inv) (get r "currency") = true) (hn : 0 ≤ n)
    (hdeposit : get r "deposit" = paymentDepositValueFromMinor T H n (defaultCurrency T inv))
    (hread : (paymentDepositMinor T H (get r "deposit")
      (.str (defaultCurrency T inv))).isSome) : recordAgrees inv r = true := by
  have hfix : stripUpper T.toUpperTable (defaultCurrency T inv) = defaultCurrency T inv :=
    stripUpper_stripUpper _
  obtain ⟨m, hm⟩ := Option.isSome_iff_exists.mp hread
  have hminor : recordMinor inv r = m := by
    rw [recordMinor, ← paymentDepositMinor_defaultCurrency, hm]
    rfl
  rw [hdeposit] at hm
  rw [recordAgrees_iff, hminor, hdeposit]
  exact ⟨hcurrency, paymentDepositMinor_value_nonneg hn hm,
    amountToMinor_value hfix hne husd (reportCurrency_native hne ⟨_, rfl, hne, hfix⟩) hm⟩

/-- The currency of the column, as the report reads it. -/
lemma upperCurrency_native (hne : defaultCurrency T inv ≠ []) :
    ∃ t, (.str (upperCurrency T inv) : Value T H) = .str t ∧ t ≠ [] ∧
      stripUpper T.toUpperTable t = defaultCurrency T inv := by
  refine ⟨_, rfl, ?_, stripUpper_upperCurrency _⟩
  intro hnil
  apply hne
  rw [← stripUpper_upperCurrency, hnil]
  rfl

/-- The report of a list on whose records both readers agree. -/
lemma listedPaidMinor_of_agrees {deposits : List (Value T H)}
    (hne : defaultCurrency T inv ≠ [])
    (hcur : nativeOrBlank T (defaultCurrency T inv) (get fields "currency") = true)
    (hlist : get fields "deposits" = .arr deposits)
    (hagrees : ∀ r ∈ deposits.filterMap asFields, recordAgrees inv r = true) :
    listedPaidMinor T H fields (upperCurrency T inv) =
      some ((deposits.filterMap asFields).map (recordMinor inv)).sum := by
  have hfix : stripUpper T.toUpperTable (defaultCurrency T inv) = defaultCurrency T inv :=
    stripUpper_stripUpper _
  unfold listedPaidMinor
  rw [hlist]
  dsimp only
  apply sumMinor_of_forall
  intro r hr
  obtain ⟨hrcur, -, hramount⟩ := recordAgrees_iff.mp (hagrees r hr)
  rw [← hramount, pyOr_assoc]
  exact amountToMinor_native
    (reportCurrency_native hne (pyOr_native hrcur (pyOr_native hcur (upperCurrency_native hne))))
    (reportCurrency_native hne ⟨_, rfl, hne, hfix⟩) _

lemma get_mergedMeta (currency : Text) (existing metaFields : Fields T H)
    (deposits : List (Value T H)) (depositTotal : Value T H) :
    get (mergedMeta T H currency existing metaFields deposits depositTotal) "deposits" =
        .arr deposits ∧
      get (mergedMeta T H currency existing metaFields deposits depositTotal) "deposit" =
        depositTotal ∧
      get (mergedMeta T H currency existing metaFields deposits depositTotal) "currency" =
        pyOr H (pyOr H (get metaFields "currency") (get existing "currency")) (.str currency) := by
  unfold mergedMeta
  dsimp only
  split <;> simp [get_put]

variable {bank : List BankTransaction} {rows : List (PaidInvoice (Value T H))}
  {paid : PaidInvoice (Value T H)} {input : SaveInput T H} {record : Fields T H}
  {deposits : List (Value T H)} {totalMinor : ℤ}

/-- Both readers agree on all records of the list that an append leaves. -/
lemma Appended.recordAgrees (h : Appended bank rows paid input record deposits totalMinor)
    (hdoc : DocOk paid.toInvoice (existingFields paid.paymentMeta))
    (hne : defaultCurrency T paid.toInvoice ≠ [])
    (husd : defaultCurrency T paid.toInvoice ≠ "USD".toList)
    (hcurrency : nativeOrBlank T (defaultCurrency T paid.toInvoice)
      (get input.metaFields "currency") = true)
    (hamount : 0 ≤ (paymentDepositMinor T H (get input.metaFields "deposit")
      (.str (defaultCurrency T paid.toInvoice))).getD 0) :
    ∀ r ∈ deposits.filterMap asFields, recordAgrees paid.toInvoice r = true := by
  have hread := (sumMinor_eq_some h.total).1
  have hprior : ∀ r ∈ (priorDeposits T H (defaultCurrency T paid.toInvoice)
      (existingFields paid.paymentMeta)).filterMap asFields,
      r ∈ deposits.filterMap asFields → Billing.recordAgrees paid.toInvoice r = true := by
    intro r hr hmem
    rcases priorDeposits_cases (defaultCurrency T paid.toInvoice) paid.paymentMeta with
      hsame | hnone | hlegacy
    · rw [hsame, paymentMetaRecords_existing] at hr
      exact hdoc.records r hr
    · rw [hnone] at hr
      cases hr
    · rw [hlegacy] at hr
      obtain ⟨-, hcur, n, hn, hdeposit⟩ := mem_legacyDeposits hr
      have hnonneg := hdoc.deposit
      rw [hn] at hnonneg
      have hnative : nativeOrBlank T (defaultCurrency T paid.toInvoice) (get r "currency") =
          true := by
        obtain ⟨t, ht, -, hcode⟩ := pyOr_native hdoc.currency
          ⟨_, rfl, hne, stripUpper_stripUpper _⟩
        rw [hcur, ht]
        exact decide_eq_true (.inr hcode)
      exact recordAgrees_of_stored hne husd hnative hnonneg hdeposit (hread r hmem)
  intro r hr
  rcases addRecord_eq_some h.added with hsame | happended
  · exact hprior r (hsame ▸ hr) hr
  · have hcases := hr
    rw [happended, List.filterMap_append] at hcases
    rcases List.mem_append.mp hcases with hold | hnew
    · exact hprior r hold hr
    · have hrecord : r = record := by simpa [asFields] using hnew
      obtain ⟨-, hcur, n, hn, hdeposit⟩ := depositRecord_eq_some h.read
      rw [hn] at hamount
      subst hrecord
      exact recordAgrees_of_stored hne husd (hcur ▸ hcurrency) hamount hdeposit (hread r hr)

lemma Appended.sum_recordMinor (h : Appended bank rows paid input record deposits totalMinor) :
    ((deposits.filterMap asFields).map (recordMinor paid.toInvoice)).sum = totalMinor := by
  rw [← (sumMinor_eq_some h.total).2]
  congr 1
  apply List.map_congr_left
  intro r _
  rw [recordMinor, paymentDepositMinor_defaultCurrency]

/-- An append leaves a document in order, with the total it has computed. -/
lemma Appended.docOk (h : Appended bank rows paid input record deposits totalMinor)
    (hdoc : DocOk paid.toInvoice (existingFields paid.paymentMeta))
    (hne : defaultCurrency T paid.toInvoice ≠ [])
    (husd : defaultCurrency T paid.toInvoice ≠ "USD".toList)
    (hcurrency : nativeOrBlank T (defaultCurrency T paid.toInvoice)
      (get input.metaFields "currency") = true)
    (hamount : 0 ≤ (paymentDepositMinor T H (get input.metaFields "deposit")
      (.str (defaultCurrency T paid.toInvoice))).getD 0) :
    DocOk paid.toInvoice (mergedMeta T H (defaultCurrency T paid.toInvoice)
      (existingFields paid.paymentMeta) input.metaFields deposits
      (paymentDepositValueFromMinor T H totalMinor (defaultCurrency T paid.toInvoice))) := by
  have hagrees := h.recordAgrees hdoc hne husd hcurrency hamount
  have hsum := h.sum_recordMinor
  obtain ⟨hdeposits, hdeposit, hcur⟩ := get_mergedMeta (defaultCurrency T paid.toInvoice)
    (existingFields paid.paymentMeta) input.metaFields deposits
    (paymentDepositValueFromMinor T H totalMinor (defaultCurrency T paid.toInvoice))
  have hrecords := paymentMetaRecords_mergedMeta (defaultCurrency T paid.toInvoice)
    (existingFields paid.paymentMeta) input.metaFields deposits
    (paymentDepositValueFromMinor T H totalMinor (defaultCurrency T paid.toInvoice))
  obtain ⟨minor, hminor, -⟩ := h.within
  have hnonneg : 0 ≤ totalMinor := by
    rw [← hsum]
    apply List.sum_nonneg
    intro x hx
    obtain ⟨r, hr, rfl⟩ := List.mem_map.mp hx
    exact (recordAgrees_iff.mp (hagrees r hr)).2.1
  have hfix : stripUpper T.toUpperTable (defaultCurrency T paid.toInvoice) =
      defaultCurrency T paid.toInvoice := stripUpper_stripUpper _
  -- whatever a record and the document say, the currency is that of the invoice
  have hnative : ∃ t, pyOr H (pyOr H (get input.metaFields "currency")
      (get (existingFields paid.paymentMeta) "currency"))
      (.str (defaultCurrency T paid.toInvoice)) = .str t ∧ t ≠ [] ∧
      stripUpper T.toUpperTable t = defaultCurrency T paid.toInvoice := by
    rw [pyOr_assoc]
    exact pyOr_native hcurrency (pyOr_native hdoc.currency ⟨_, rfl, hne, hfix⟩)
  obtain ⟨t, ht, -, hcode⟩ := hnative
  have hdocCur : nativeOrBlank T (defaultCurrency T paid.toInvoice) (get (mergedMeta T H
      (defaultCurrency T paid.toInvoice) (existingFields paid.paymentMeta) input.metaFields deposits
      (paymentDepositValueFromMinor T H totalMinor (defaultCurrency T paid.toInvoice)))
      "currency") = true := by
    rw [hcur, ht]
    exact decide_eq_true (.inr hcode)
  have hlisted := listedPaidMinor_of_agrees hne hdocCur hdeposits hagrees
  refine ⟨hdocCur, ?_, ?_, ?_⟩
  · unfold docRecords
    rw [hrecords]
    exact hagrees
  · rw [hdeposit, hminor]
    exact paymentDepositMinor_value_nonneg hnonneg hminor
  · unfold docRecords paymentMetaPaidMinor
    rw [hlisted, hrecords, hsum, hdeposit]
    simp only [Option.bind_eq_bind, Option.bind_some]
    split
    · rfl
    · next hzero =>
      have hvalue := amountToMinor_value hfix hne husd
        (reportCurrency_native hne (pyOr_native hdocCur (upperCurrency_native hne))) hminor
      have htotal : totalMinor = 0 := by simpa using hzero
      subst htotal
      rw [hvalue, paymentDepositMinor_value_zero hminor]

end Documents

section Invariant

variable {T : DigitTables} {H : PyHost T.toUnicodeTables}

/-- The invoice is paid in one way, within its total, and is marked as paid only when the
retainer covers it. -/
structure InvoiceOk (db : CollectionDb T H) (inv : Invoice) : Prop where
  id_ne : inv.id ≠ 0
  doc : DocOk inv (existingFields (db.columns inv.id).paymentMeta)
  apart : bankMinor inv (db.columns inv.id).paymentMeta = 0 ∨ netApplied db.deposits inv.id = 0
  within : 0 < inv.totalMinor →
    bankMinor inv (db.columns inv.id).paymentMeta + netApplied db.deposits inv.id ≤ inv.totalMinor
  marked : 0 < inv.totalMinor → invoiceMarkedPaid inv = true →
    netApplied db.deposits inv.id = inv.totalMinor

structure CollectionInvariant (db : CollectionDb T H) : Prop where
  ledger : RetainerLedger T.toUpperTable db.deposits
  payments : ∀ k, normalizedPaymentTotalMinor db.payments k = 0
  invoices : ∀ k inv, db.deposits.invoices.find k = some inv → InvoiceOk db inv

variable {db db' : CollectionDb T H} {inv : Invoice} {id : Nat}

lemma bankMinor_eq (inv : Invoice) (v : Option (Value T H)) :
    bankMinor inv v = ((docRecords (existingFields v)).map (recordMinor inv)).sum := by
  rw [bankMinor, paymentMetaRecords_existing]

lemma InvoiceOk.bank_nonneg (h : InvoiceOk db inv) :
    0 ≤ bankMinor inv (db.columns inv.id).paymentMeta := by
  rw [bankMinor_eq]
  exact h.doc.nonneg

lemma InvoiceOk.congr (h : InvoiceOk db inv) (hcolumns : db'.columns inv.id = db.columns inv.id)
    (hnet : netApplied db'.deposits inv.id = netApplied db.deposits inv.id) :
    InvoiceOk db' inv := by
  refine ⟨h.id_ne, ?_, ?_, ?_, ?_⟩
  · rw [hcolumns]
    exact h.doc
  · rw [hcolumns, hnet]
    exact h.apart
  · rw [hcolumns, hnet]
    exact h.within
  · rw [hnet]
    exact h.marked

/-- A request changes one invoice, its column and its net retainer. -/
lemma CollectionInvariant.change (h : CollectionInvariant db) {f : Invoice → Invoice}
    (hfind : db.deposits.invoices.find id = some inv)
    (hledger : RetainerLedger T.toUpperTable db'.deposits)
    (hinvoices : ∀ k, db'.deposits.invoices.find k =
      if k = id then (db.deposits.invoices.find k).map f else db.deposits.invoices.find k)
    (hcolumns : ∀ k, k ≠ id → db'.columns k = db.columns k)
    (hnet : ∀ k, k ≠ id → netApplied db'.deposits k = netApplied db.deposits k)
    (hpayments : db'.payments = db.payments) (hnew : InvoiceOk db' (f inv)) :
    CollectionInvariant db' := by
  refine ⟨hledger, hpayments ▸ h.payments, ?_⟩
  intro k row hrow
  rw [hinvoices] at hrow
  split at hrow
  · next hk =>
    rw [hk, hfind] at hrow
    cases hrow
    exact hnew
  · next hk =>
    have hid : row.id ≠ id := by
      rw [Table.key_of_find hrow]
      exact hk
    exact (h.invoices k row hrow).congr (hcolumns _ hid) (hnet _ hid)

/-- What is reported is what was received. -/
lemma CollectionInvariant.effectivePaid (h : CollectionInvariant db)
    (hfind : db.deposits.invoices.find id = some inv) (htotal : 0 < inv.totalMinor) :
    db.effectivePaid inv = some (bankMinor inv (db.columns inv.id).paymentMeta +
      netApplied db.deposits inv.id) := by
  have hinv := h.invoices id inv hfind
  have hbank := hinv.bank_nonneg
  have hnet := netApplied_nonneg h.ledger.ledger inv.id
  have hwithin := hinv.within htotal
  have hpaid : paymentMetaPaidMinor T H (existingFields (db.columns inv.id).paymentMeta)
      (upperCurrency T inv) = some (bankMinor inv (db.columns inv.id).paymentMeta) := by
    rw [bankMinor_eq]
    exact hinv.doc.paid
  have hinvTotal : invoiceTotalMinor T H inv (db.columns inv.id).total = inv.totalMinor :=
    if_pos htotal
  unfold CollectionDb.effectivePaid effectivePaidMinor
  change (if inv.id = 0 then some 0 else do
    let metaPaid ← paymentMetaPaidMinor T H (existingFields (db.columns inv.id).paymentMeta)
      (upperCurrency T inv)
    return if invoiceMarkedPaid inv ∧ 0 < invoiceTotalMinor T H inv (db.columns inv.id).total then
      max (max (max (normalizedPaymentTotalMinor db.payments inv.id) metaPaid)
        (max 0 (netApplied db.deposits inv.id)))
        (invoiceTotalMinor T H inv (db.columns inv.id).total)
    else max (max (normalizedPaymentTotalMinor db.payments inv.id) metaPaid)
      (max 0 (netApplied db.deposits inv.id))) = _
  rw [if_neg hinv.id_ne, hpaid, h.payments, hinvTotal]
  change some _ = some _
  congr 1
  have hapart := hinv.apart
  split
  · next hmarked =>
    have hcovered := hinv.marked htotal hmarked.1
    omega
  · omega

/-! ### Requests -/

lemma derive_eq_paid {billing : BillingStatus} {payment : PaymentStatus}
    (h : deriveLegacyStatusFromSplit billing payment = .paid) : payment = .paid := by
  cases billing <;> cases payment <;> first | rfl | cases h

lemma RetainerLedger.of_updateInvoice {U : UpperTable} {deposits : DepositDb}
    (h : RetainerLedger U deposits) {f : Invoice → Invoice} (hf : ∀ inv, (f inv).id = inv.id) :
    RetainerLedger U (deposits.updateInvoice id f hf) := ⟨h.ledger, h.named⟩

lemma columns_setMeta_of_ne (db : CollectionDb T H) (deposits : DepositDb) (fields : Fields T H)
    {k : Nat} (hk : k ≠ id) : (db.setMeta deposits id fields).columns k = db.columns k :=
  Function.update_of_ne hk _ _

lemma columns_setMeta_self (db : CollectionDb T H) (deposits : DepositDb) (fields : Fields T H) :
    (db.setMeta deposits id fields).columns id =
      { db.columns id with paymentMeta := some (.obj fields) } := Function.update_self _ _ _

/-- The retainer of one invoice is moved, and its status columns and its marks are set. -/
lemma CollectionInvariant.retainerMoved (h : CollectionInvariant db) {deposits : DepositDb} {x : Int}
    {billing : BillingStatus} {payment : PaymentStatus} {verified : Bool}
    (stamp : VerifiedStamp T H) (hfind : db.deposits.invoices.find id = some inv)
    (hmoved : NetMoved T.toUpperTable db.deposits deposits id x)
    (hbank : bankMinor inv (db.columns inv.id).paymentMeta = 0)
    (hwithin : 0 < inv.totalMinor → netApplied db.deposits id + x ≤ inv.totalMinor)
    (hmarked : 0 < inv.totalMinor → payment = .paid ∨ verified = true →
      netApplied db.deposits id + x = inv.totalMinor) :
    CollectionInvariant (db.stamp (deposits.setStatus id billing payment verified) id stamp) := by
  have hid : inv.id = id := Table.key_of_find hfind
  have hinv := h.invoices id inv hfind
  have hinvoices : ∀ k, (deposits.setStatus id billing payment verified).invoices.find k =
      if k = id then (db.deposits.invoices.find k).map (Invoice.withStatus billing payment verified)
      else db.deposits.invoices.find k := by
    intro k
    rw [← hmoved.invoices]
    exact find_updateInvoice deposits id k (Invoice.withStatus billing payment verified)
      (fun _ => rfl)
  have hnet : netApplied (deposits.setStatus id billing payment verified) id =
      netApplied db.deposits id + x := by
    have hself := hmoved.net id
    rw [if_pos rfl] at hself
    exact hself
  refine h.change hfind
    (hmoved.ok.of_updateInvoice (f := Invoice.withStatus billing payment verified) (fun _ => rfl))
    hinvoices (fun k hk => columns_setMeta_of_ne _ _ _ hk) ?_ rfl ?_
  · intro k hk
    have hother := hmoved.net k
    rw [if_neg hk, Int.add_zero] at hother
    exact hother
  · subst hid
    have hcolumn := @columns_setMeta_self T H inv.id db
      (deposits.setStatus inv.id billing payment verified)
      (stampedMeta (((deposits.setStatus inv.id billing payment verified).invoices.find inv.id).any
        Invoice.paymentVerified) stamp (existingFields (db.columns inv.id).paymentMeta))
    have hstamped : bankMinor (Invoice.withStatus billing payment verified inv)
        ((db.stamp (deposits.setStatus inv.id billing payment verified) inv.id stamp).columns
          inv.id).paymentMeta = 0 := by
      unfold CollectionDb.stamp
      rw [hcolumn, bankMinor_eq]
      rw [bankMinor_eq] at hbank
      exact (sum_docRecords_stampedMeta _ _ _ _).trans hbank
    refine ⟨hinv.id_ne, ?_, .inl hstamped, ?_, ?_⟩
    · unfold CollectionDb.stamp
      change DocOk _ (existingFields ((db.setMeta _ inv.id _).columns inv.id).paymentMeta)
      rw [hcolumn]
      exact (hinv.doc.stamped _ stamp).of_currency rfl
    · intro htotal
      have hle := hwithin htotal
      change bankMinor _ ((db.stamp (deposits.setStatus inv.id billing payment verified) inv.id
        stamp).columns inv.id).paymentMeta +
          netApplied (deposits.setStatus inv.id billing payment verified) inv.id ≤ inv.totalMinor
      rw [hstamped, hnet]
      omega
    · intro htotal hpaid
      change netApplied (deposits.setStatus inv.id billing payment verified) inv.id = inv.totalMinor
      rw [hnet]
      apply hmarked htotal
      rcases of_decide_eq_true hpaid with hverified | hpayment | hstatus
      · exact .inr hverified
      · exact .inl hpayment
      · exact .inl (derive_eq_paid hstatus)

lemma toOption_eq_some {ε α : Type} {x : Except ε α} {a : α} :
    x.toOption = some a ↔ x = .ok a := by
  cases x <;> simp [Except.toOption]

lemma CollectionInvariant.applyDeposit (h : CollectionInvariant db) {amount : AmountField}
    {stamp : VerifiedStamp T H} {deposits : DepositDb}
    (hguard : paidInOneWay db (.applyDeposit id amount stamp) = true)
    (happly : applyDeposit T.toUpperTable db.deposits id amount = .ok deposits) :
    CollectionInvariant (db.stamp deposits id stamp) := by
  obtain ⟨inv, db₁, x, payment, verified, hfind, -, hmoved, hle, -, hmarked, rfl⟩ :=
    h.ledger.applyDeposit happly
  simp only [paidInOneWay, hfind, Option.all_some, decide_eq_true_eq] at hguard
  exact h.retainerMoved stamp hfind hmoved hguard (fun _ => hle) (fun _ => hmarked)

/-- There is something to cancel, so that the invoice is paid out of the retainer. -/
lemma CollectionInvariant.cancelDepositApply (h : CollectionInvariant db) {entryId : Nat}
    {stamp : VerifiedStamp T H} {deposits : DepositDb}
    (hcancel : cancelDepositApply T.toUpperTable db.deposits id entryId = .ok deposits) :
    CollectionInvariant (db.stamp deposits id stamp) := by
  obtain ⟨inv, db₁, x, payment, verified, hfind, hpos, hmoved, -, hmarked, rfl⟩ :=
    h.ledger.cancelDepositApply hcancel
  have hinv := h.invoices id inv hfind
  have hid : inv.id = id := Table.key_of_find hfind
  have hnet := hmoved.net id
  rw [if_pos rfl] at hnet
  have hnonneg := netApplied_nonneg hmoved.ok.ledger id
  have hbank : bankMinor inv (db.columns inv.id).paymentMeta = 0 := by
    rcases hinv.apart with hzero | hzero
    · exact hzero
    · rw [hid] at hzero
      omega
  have hbound : 0 < inv.totalMinor → netApplied db.deposits id ≤ inv.totalMinor := by
    intro htotal
    have hwithin := hinv.within htotal
    rw [hbank, hid] at hwithin
    omega
  refine h.retainerMoved stamp hfind hmoved hbank ?_ ?_
  · intro htotal
    have hle := hbound htotal
    omega
  · intro htotal hpaid
    have hle := hbound htotal
    have hcovered := hmarked hpaid
    omega

lemma docOk_of_replacementAgrees {fields : Fields T H}
    (h : replacementAgrees inv fields = true)
    (hcurrency : nativeOrBlank T (defaultCurrency T inv) (get fields "currency") = true)
    (hdeposit : 0 ≤ (paymentDepositMinor T H (get fields "deposit")
      (.str (defaultCurrency T inv))).getD 0) : DocOk inv fields := by
  obtain ⟨hrecords, -, hpaid⟩ := of_decide_eq_true h
  exact ⟨hcurrency, List.all_eq_true.mp hrecords, hdeposit, hpaid⟩

/-- What a guarded request writes is in order and within the total. -/
lemma docOk_of_metaToSave {paid : PaidInvoice (Value T H)} {bank : List BankTransaction}
    {rows : List (PaidInvoice (Value T H))} {req : SaveRequest T H} {input : SaveInput T H}
    {fields : Fields T H} (hdoc : DocOk paid.toInvoice (existingFields paid.paymentMeta))
    (hinput : inputFor paid req = some input) (hsmall : paid.totalMinor < 2 ^ 50)
    (hne : defaultCurrency T paid.toInvoice ≠ [])
    (husd : defaultCurrency T paid.toInvoice ≠ "USD".toList)
    (hcurrency : nativeOrBlank T (defaultCurrency T paid.toInvoice)
      (get input.metaFields "currency") = true)
    (hamount : 0 ≤ (paymentDepositMinor T H (get input.metaFields "deposit")
      (.str (defaultCurrency T paid.toInvoice))).getD 0)
    (hmode : input.append = true ∨ replacementAgrees paid.toInvoice input.metaFields = true)
    (hsave : metaToSave T H bank rows paid req = .ok fields) :
    DocOk paid.toInvoice fields ∧ (0 < paid.totalMinor →
      ((docRecords fields).map (recordMinor paid.toInvoice)).sum ≤ paid.totalMinor) := by
  obtain ⟨input', hinput', hcheck, hwritten⟩ := metaToSave_eq_ok hsave
  rw [hinput] at hinput'
  cases hinput'
  have htotalMinor : 0 < paid.totalMinor → invTotalMinor T H paid = paid.totalMinor :=
    fun htotal => if_pos htotal
  by_cases happend : input.append = true
  · rw [if_pos happend] at hwritten
    obtain ⟨record, deposits, totalMinor, happ, rfl⟩ := appendedMeta_eq_ok hwritten
    refine ⟨happ.docOk hdoc hne husd hcurrency hamount, ?_⟩
    intro htotal
    obtain ⟨minor, hminor, hle⟩ := happ.within
    rw [htotalMinor htotal] at hle
    unfold docRecords
    rw [paymentMetaRecords_mergedMeta, happ.sum_recordMinor]
    exact le_of_paymentDepositMinor_value hsmall (hle htotal) (Int.le_of_lt htotal) hminor
  · rw [if_neg happend] at hwritten
    subst hwritten
    have hreplace := hmode.resolve_left happend
    refine ⟨docOk_of_replacementAgrees hreplace hcurrency hamount, ?_⟩
    intro htotal
    rw [htotalMinor htotal] at hcheck
    obtain ⟨-, hle, -⟩ := of_decide_eq_true hreplace
    exact hle.trans (hcheck htotal)

lemma CollectionInvariant.savePaymentMeta (h : CollectionInvariant db) {req : SaveRequest T H}
    (hguard : paidInOneWay db (.savePaymentMeta id req) = true)
    (hsave : collectSave db id req = .ok db') : CollectionInvariant db' := by
  unfold collectSave at hsave
  split at hsave
  · cases hsave
  · next inv hfind =>
    obtain ⟨_, -, hsave⟩ := except_bind_eq_ok.mp hsave
    obtain ⟨fields, hfields, hsave⟩ := except_bind_eq_ok.mp hsave
    cases hsave
    have hinv := h.invoices id inv hfind
    have hid : inv.id = id := Table.key_of_find hfind
    obtain ⟨input, hinput, -⟩ := metaToSave_eq_ok hfields
    simp only [paidInOneWay, hfind, hinput, Option.all_some, decide_eq_true_eq] at hguard
    obtain ⟨hnet, hsmall, hne, husd, hcurrency, hamount, hmode⟩ := hguard
    obtain ⟨hdoc, hwithin⟩ := docOk_of_metaToSave hinv.doc hinput
      hsmall hne husd hcurrency hamount hmode hfields
    refine h.change hfind (h.ledger.of_updateInvoice (f := Invoice.unverified) (fun _ => rfl))
      (fun k => find_updateInvoice db.deposits id k Invoice.unverified (fun _ => rfl))
      (fun k hk => columns_setMeta_of_ne _ _ _ hk) (fun _ _ => rfl) rfl ?_
    subst hid
    have hcolumn := @columns_setMeta_self T H inv.id db
      (db.deposits.updateInvoice inv.id Invoice.unverified (fun _ => rfl)) fields
    refine ⟨hinv.id_ne, ?_, .inr hnet, ?_, ?_⟩
    · change DocOk _ (existingFields ((db.setMeta _ inv.id fields).columns inv.id).paymentMeta)
      rw [hcolumn]
      exact hdoc.of_currency rfl
    · intro htotal
      change bankMinor _ ((db.setMeta _ inv.id fields).columns inv.id).paymentMeta +
        netApplied db.deposits inv.id ≤ inv.totalMinor
      rw [hcolumn, hnet, Int.add_zero]
      exact hwithin htotal
    · intro htotal hpaid
      have hmarked : invoiceMarkedPaid inv = true := by
        rcases of_decide_eq_true hpaid with hverified | hpayment | hstatus
        · cases hverified
        · exact decide_eq_true (.inr (.inl hpayment))
        · exact decide_eq_true (.inr (.inr hstatus))
      exact hinv.marked htotal hmarked

lemma CollectionInvariant.step (h : CollectionInvariant db) {req : CollectRequest T H}
    (hguard : paidInOneWay db req = true) (hstep : collectStep db req = some db') :
    CollectionInvariant db' := by
  cases req with
  | applyDeposit id amount stamp =>
    obtain ⟨deposits, hdeposits, rfl⟩ := Option.map_eq_some_iff.mp hstep
    exact h.applyDeposit hguard (toOption_eq_some.mp hdeposits)
  | cancelDepositApply id entryId stamp =>
    obtain ⟨deposits, hdeposits, rfl⟩ := Option.map_eq_some_iff.mp hstep
    exact h.cancelDepositApply (toOption_eq_some.mp hdeposits)
  | savePaymentMeta id req => exact h.savePaymentMeta hguard (toOption_eq_some.mp hstep)

/-- Nothing has been collected yet: the ledger is in order and no retainer is applied, there are
no payments and no payment data, and no invoice is marked as paid. -/
structure CollectionDb.Uncollected (db : CollectionDb T H) : Prop where
  ledger : RetainerLedger T.toUpperTable db.deposits
  payments : db.payments = []
  unapplied : ∀ inv ∈ db.deposits.invoices.rows, netApplied db.deposits inv.id = 0
  unpaid : ∀ inv ∈ db.deposits.invoices.rows,
    inv.id ≠ 0 ∧ (db.columns inv.id).paymentMeta = none ∧ invoiceMarkedPaid inv = false

lemma CollectionDb.Uncollected.invariant (h : db.Uncollected) : CollectionInvariant db := by
  refine ⟨h.ledger, fun k => by rw [h.payments]; rfl, ?_⟩
  intro k inv hfind
  have hmem := Table.mem_of_find hfind
  have hnet := h.unapplied inv hmem
  obtain ⟨hid, hmeta, hmarked⟩ := h.unpaid inv hmem
  have hbank : bankMinor inv (db.columns inv.id).paymentMeta = 0 := by
    rw [hmeta]
    rfl
  refine ⟨hid, ?_, .inl hbank, ?_, ?_⟩
  · rw [hmeta]
    exact docOk_nil inv
  · intro htotal
    omega
  · intro _ hpaid
    rw [hmarked] at hpaid
    cases hpaid

end Invariant

/-- As long as every invoice is paid in one way at a time and both readers agree on its bank
deposits, what is collected stays within the total, and the report is what was received. -/
theorem collected_within_total {T : DigitTables} {H : PyHost T.toUnicodeTables}
    {db db' : CollectionDb T H} {rs : List (CollectRequest T H)} (hstart : db.Uncollected)
    (hrun : GuardedRun collectStep (fun db r => paidInOneWay db r = true) db rs db') :
    ∀ inv ∈ db'.deposits.invoices.rows, 0 < inv.totalMinor →
      bankMinor inv (db'.columns inv.id).paymentMeta + netApplied db'.deposits inv.id ≤
          inv.totalMinor ∧
        db'.effectivePaid inv = some (bankMinor inv (db'.columns inv.id).paymentMeta +
          netApplied db'.deposits inv.id) := by
  have hI : CollectionInvariant db' :=
    hrun.invariant hstart.invariant (fun _ _ _ h hguard hstep => h.step hguard hstep)
  intro inv hinv htotal
  have hfind := Table.find_of_mem hinv
  exact ⟨(hI.invoices inv.id inv hfind).within htotal, hI.effectivePaid hfind htotal⟩

def euroInvoice (id : Nat) : Invoice :=
  { id := id, clientId := 7, businessProfileId := some 1, currency := some "EUR".toList,
    totalMinor := 10000, status := .sent, billingStatus := .sent, paymentStatus := .unpaid,
    paymentVerified := false }

def toppedUp : DepositDb :=
  ⟨.empty _, (Table.empty _).insert
    (fun id => ⟨id, some 1, 7, "EUR".toList, 20000, .topup, none, none⟩) (fun _ => rfl)⟩

/-- Two invoices of 100.00 and a retainer of 200.00. -/
def twoEuroInvoices : CollectionDb asciiDigitTables plainHost where
  deposits :=
    { toppedUp with
      invoices := (toppedUp.invoices.insert euroInvoice (fun _ => rfl)).insert euroInvoice
        (fun _ => rfl) }
  columns _ := ⟨none, 100, false, none⟩
  payments := []
  bank := []

lemma uncollected_twoEuroInvoices : twoEuroInvoices.Uncollected := by
  have htopup : clientDeposit asciiTable .empty (some 1) 7 "EUR".toList 20000 .topup =
      .ok toppedUp := rfl
  have htopped : RetainerLedger asciiTable toppedUp :=
    (retainerLedger_empty.clientDeposit ⟨by simp, by simp⟩ htopup).ok
  have hfirst : RetainerLedger asciiTable { toppedUp with
      invoices := toppedUp.invoices.insert euroInvoice (fun _ => rfl) } :=
    htopped.insertInvoice (fun _ => rfl)
  have hledger : RetainerLedger asciiTable twoEuroInvoices.deposits :=
    hfirst.insertInvoice (fun _ => rfl)
  refine ⟨hledger, rfl, by decide, ?_⟩
  intro inv hinv
  rcases List.mem_append.mp hinv with hone | htwo
  · rw [List.mem_singleton.mp hone]
    exact ⟨by decide, rfl, rfl⟩
  · rw [List.mem_singleton.mp htwo]
    exact ⟨by decide, rfl, rfl⟩

def appendRequest (id : Nat) (deposit : ℤ) : CollectRequest asciiDigitTables plainHost :=
  .savePaymentMeta id (.json (.obj [("deposit".toList, .int deposit), ("append".toList, .bool true)]))

def applyRequest (id : Nat) (amount : AmountField) : CollectRequest asciiDigitTables plainHost :=
  .applyDeposit id amount ⟨.int 1, .str "staff".toList, "2024-05-01T09:00:00".toList⟩

theorem collected_within_total_one_way :
    ∃ db, GuardedRun collectStep (fun db r => paidInOneWay db r = true) twoEuroInvoices
        [appendRequest 1 60, applyRequest 2 .blank, appendRequest 1 30] db ∧
      (db.deposits.invoices.rows.map db.effectivePaid = [some 9000, some 10000]) ∧
      ∀ inv ∈ db.deposits.invoices.rows, 0 < inv.totalMinor →
        bankMinor inv (db.columns inv.id).paymentMeta + netApplied db.deposits inv.id ≤
          inv.totalMinor := by
  obtain ⟨db, hrun, hpaid⟩ := exists_guardedRun_of_any collectStep
    (fun db r => paidInOneWay db r = true) twoEuroInvoices
    [appendRequest 1 60, applyRequest 2 .blank, appendRequest 1 30]
    (fun db => db.deposits.invoices.rows.map db.effectivePaid = [some 9000, some 10000])
    (by decide +kernel)
  exact ⟨db, hrun, of_decide_eq_true hpaid, fun inv hinv htotal =>
    (collected_within_total uncollected_twoEuroInvoices hrun inv hinv htotal).1⟩

/-- 60.00 of the retainer are applied, and a bank deposit of 100.00 is recorded as well. -/
theorem collected_beyond_total :
    ¬∀ (db db' : CollectionDb asciiDigitTables plainHost)
      (rs : List (CollectRequest asciiDigitTables plainHost)), db.Uncollected →
      Run collectStep db rs db' → ∀ inv ∈ db'.deposits.invoices.rows, 0 < inv.totalMinor →
        bankMinor inv (db'.columns inv.id).paymentMeta + netApplied db'.deposits inv.id ≤
          inv.totalMinor := by
  intro h
  obtain ⟨db, hrun, hover⟩ := exists_guardedRun_of_any collectStep (fun _ _ => True)
    twoEuroInvoices [applyRequest 1 (.minor 6000), appendRequest 1 100]
    (fun db => ∃ inv ∈ db.deposits.invoices.rows, inv.totalMinor = 10000 ∧
      bankMinor inv (db.columns inv.id).paymentMeta + netApplied db.deposits inv.id = 16000)
    (by decide +kernel)
  obtain ⟨inv, hinv, htotal, hsum⟩ := of_decide_eq_true hover
  have hle := h _ _ _ uncollected_twoEuroInvoices hrun inv hinv (by omega)
  omega

end IpDocket.Billing
