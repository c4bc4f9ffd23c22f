import IpDocket.Billing.PaymentMeta
import IpDocket.Lib.Run
import IpDocket.Lib.Sums

/-!
# What the invoices take from a bank transaction

A bank transaction is shared out among invoices by the deposit records that carry its id. The
bound by its amount is checked against what a text search finds, so it needs records that the
search finds and that are counted for the saved invoice as they are counted for the others.
-/

namespace IpDocket.Billing
open IpDocket.Lib

/-- `acc_in` of the transaction. -/
def accInOf (bank : List BankTransaction) (t : Text) : ℤ :=
  ((bank.find? (fun tx => tx.tid = t)).bind BankTransaction.accIn).getD 0

/-- The id is that of a transaction with an incoming amount. -/
def spendable (bank : List BankTransaction) (t : Text) : Bool := t ≠ [] ∧ 0 < accInOf bank t

section Measure

variable {T : DigitTables} {H : PyHost T.toUnicodeTables}

/-- What an invoice takes from the transaction `t`: its records that carry `t`, in the currency
of the invoice. -/
def share (t : Text) (inv : PaidInvoice (Value T H)) : ℤ :=
  if inv.counts then tidMinor T H t (ofColumn T H inv.currency) (paymentMetaRecords inv.paymentMeta)
  else 0

/-- What all invoices take from the transaction. A record without an id carries none. -/
def allocatedMinor (db : MetaDb T H) (t : Text) : ℤ :=
  if t = [] then 0 else (db.invoices.rows.map (share t)).sum

/-- The request does not go around the check of what the transaction has left. Its records name
a transaction with an amount only when they are appended under its id, with an id that the text
search finds, on an invoice with a currency, in a currency of the same scale and with an amount
that is not negative. -/
def staysChecked (db : MetaDb T H) (a : Nat × SaveRequest T H) : Bool :=
  match db.invoices.find a.1 with
  | none => true
  | some inv =>
    match inputFor inv a.2 with
    | none => true
    | some input =>
      let currency := defaultCurrency T inv.toInvoice
      if input.append then
        if input.tid = [] then !spendable db.bank (recordTid input.metaFields)
        else spendable db.bank input.tid →
          Unescaped input.tid ∧ pyTruthy H (ofColumn T H inv.currency) ∧
            (∃ code ∈ paymentMetaCurrency T H (get input.metaFields "currency"),
              scaleOf T.toUpperTable (some code) = scaleOf T.toUpperTable (some currency)) ∧
            0 ≤ (paymentDepositMinor T H (get input.metaFields "deposit") (.str currency)).getD 0
      else
        (paymentMetaRecords (some (.obj input.metaFields))).all
          (fun r => !spendable db.bank (recordTid r))

/-- A record that names a transaction with an amount: the search finds it, and it counts the
same everywhere. -/
structure RecordOk (inv : PaidInvoice (Value T H)) (r : Fields T H) : Prop where
  tid : get r "tid" = .str (recordTid r)
  unescaped : Unescaped (recordTid r)
  column : pyTruthy H (ofColumn T H inv.currency) = true
  minor : ∃ m, 0 ≤ m ∧
    paymentDepositMinor T H (get r "deposit") (ofColumn T H inv.currency) = some m ∧
    paymentDepositMinor T H (get r "deposit")
      (pyOr H (get r "currency") (.str (defaultCurrency T inv.toInvoice))) = some m

variable {inv : PaidInvoice (Value T H)} {r : Fields T H} {db : MetaDb T H} {t : Text}

lemma get_put (key key' : String) (v : Value T H) (fields : Fields T H) :
    get (put key v fields) key' = if key' = key then v else get fields key' := by
  unfold get put
  rw [field_setField]
  simp only [String.toList_inj]

lemma mem_filterMap_asFields {items : List (Value T H)} :
    r ∈ items.filterMap asFields ↔ .obj r ∈ items := by
  rw [List.mem_filterMap]
  constructor
  · rintro ⟨v, hv, hr⟩
    cases v <;> cases hr
    exact hv
  · intro h
    exact ⟨_, h, rfl⟩

/-- The text of a record is found in the text of the document. -/
lemma infix_dumps_record {v : Value T H} (h : r ∈ paymentMetaRecords (some v)) :
    dumps H (.obj r) <:+: dumps H v := by
  unfold paymentMetaRecords at h
  split at h
  · next fields hv =>
    cases hv
    split at h
    · next items hitems =>
      have hfield := mem_of_field hitems (by simp)
      have hlist := dumps_infix_obj (H := H) hfield
      have hrecord := dumps_infix_arr (H := H) (mem_filterMap_asFields.mp h)
      exact (hrecord.trans (List.suffix_append _ _).isInfix).trans hlist
    · split at h
      · rw [List.mem_singleton.mp h]
      · cases h
  · cases h

/-- The search finds an invoice by a record that names a transaction. -/
lemma RecordOk.mentions (h : RecordOk inv r) (hr : r ∈ paymentMetaRecords inv.paymentMeta) :
    mentionsTid T H (recordTid r) inv = true := by
  cases hmeta : inv.paymentMeta with
  | none =>
    rw [hmeta] at hr
    cases hr
  | some v =>
    rw [hmeta] at hr
    have hfield := dumps_infix_obj (H := H) (mem_of_field h.tid (by simp))
    have htid : dumpsStr "tid".toList ++ ": ".toList ++ dumps H (.str (recordTid r)) =
        "\"tid\": \"".toList ++ recordTid r ++ ['"'] := by
      rw [dumps, dumpsStr_of_unescaped h.unescaped, dumpsStr_of_unescaped (by decide)]
      simp
    rw [htid] at hfield
    have hnoescape : '\\' ∉ "\"tid\": \"".toList ++ recordTid r ++ ['"'] := by
      intro hmem
      rcases List.mem_append.mp hmem with hmem | hmem
      · rcases List.mem_append.mp hmem with hmem | hmem
        · revert hmem
          decide
        · exact (h.unescaped _ hmem).2.2 rfl
      · revert hmem
        decide
    have hlike := sqlLike_of_infix hnoescape (hfield.trans (infix_dumps_record hr))
    unfold mentionsTid
    rw [hmeta, Option.any_some, hlike, Bool.true_or]

structure AllocationInvariant (db : MetaDb T H) : Prop where
  records : ∀ inv ∈ db.invoices.rows, ∀ r ∈ paymentMetaRecords inv.paymentMeta,
    spendable db.bank (recordTid r) = true → RecordOk inv r
  bounded : ∀ t, spendable db.bank t = true → (db.invoices.rows.map (share t)).sum ≤
    accInOf db.bank t

/-- The records of an invoice count nothing for a transaction that none of them carries. -/
lemma tidMinor_of_forall_ne {currency : Value T H} {records : List (Fields T H)}
    (h : ∀ r ∈ records, recordTid r ≠ t) : tidMinor T H t currency records = 0 := by
  have hnil : records.filter (fun r => recordTid r = t) = [] := by
    apply List.filter_eq_nil_iff.mpr
    intro r hr
    simpa using h r hr
  rw [tidMinor, hnil]
  rfl

lemma AllocationInvariant.tidMinor_nonneg (h : AllocationInvariant db)
    (hinv : inv ∈ db.invoices.rows) (ht : spendable db.bank t = true) :
    0 ≤ tidMinor T H t (ofColumn T H inv.currency) (paymentMetaRecords inv.paymentMeta) := by
  apply List.sum_nonneg
  intro x hx
  obtain ⟨r, hr, rfl⟩ := List.mem_map.mp hx
  obtain ⟨hmem, htid⟩ := List.mem_filter.mp hr
  have hok := h.records inv hinv r hmem (of_decide_eq_true htid ▸ ht)
  obtain ⟨m, hm, hminor, -⟩ := hok.minor
  rw [hminor]
  exact hm

/-- The search finds all that the other invoices take. -/
lemma AllocationInvariant.sumTidAllocationsMinor (h : AllocationInvariant db)
    (ht : spendable db.bank t = true) (hstrip : pyStrip t = t) (currency : Text)
    (hfind : db.invoices.find inv.id = some inv) :
    sumTidAllocationsMinor T H db.invoices.rows t currency inv.id =
      (db.invoices.rows.map (share t)).sum - share t inv := by
  have hne : t ≠ [] := by
    simp only [spendable, decide_eq_true_eq] at ht
    exact ht.1
  -- an invoice that the search leaves out has no record of the transaction
  have hshare : ∀ other ∈ db.invoices.rows,
      (mentionsTid T H t other ∧ other.counts) ∨ share t other = 0 := by
    intro other hother
    by_cases hcounts : other.counts = true
    · by_cases hmentions : mentionsTid T H t other = true
      · exact .inl ⟨hmentions, hcounts⟩
      · right
        rw [share, if_pos hcounts]
        apply tidMinor_of_forall_ne
        rintro r hr rfl
        exact hmentions ((h.records other hother r hr ht).mentions hr)
    · exact .inr (if_neg hcounts)
  have hterm : ∀ other ∈ db.invoices.rows, other.counts = true →
      tidMinor T H t (pyOr H (ofColumn T H other.currency) (.str currency))
        (paymentMetaRecords other.paymentMeta) = share t other := by
    intro other hother hcounts
    rw [share, if_pos hcounts]
    by_cases hcolumn : pyTruthy H (ofColumn T H other.currency) = true
    · rw [pyOr, if_pos hcolumn]
    · have hnone : ∀ r ∈ paymentMetaRecords other.paymentMeta, recordTid r ≠ t := by
        rintro r hr rfl
        exact hcolumn (h.records other hother r hr ht).column
      rw [tidMinor_of_forall_ne hnone, tidMinor_of_forall_ne hnone]
  unfold Billing.sumTidAllocationsMinor
  rw [hstrip]
  dsimp only
  rw [if_neg hne, ← sum_filter_key_ne db.invoices.unique (Table.mem_of_find hfind)]
  have hfilter : db.invoices.rows.filter
      (fun other => mentionsTid T H t other ∧ other.counts ∧ other.id ≠ inv.id) =
      (db.invoices.rows.filter (fun other => other.key ≠ inv.key)).filter
        (fun other => mentionsTid T H t other ∧ other.counts) := by
    rw [List.filter_filter]
    apply List.filter_congr
    intro other _
    rw [← Bool.decide_and, decide_eq_decide]
    exact and_assoc.symm
  rw [hfilter, ← sum_map_filter_of_zero (f := share t)
    (p := fun other => mentionsTid T H t other ∧ other.counts)]
  · congr 1
    apply List.map_congr_left
    intro other hother
    obtain ⟨hrest, hfound⟩ := List.mem_filter.mp hother
    exact hterm other (List.mem_filter.mp hrest).1 (of_decide_eq_true hfound).2
  · intro other hother hout
    rcases hshare other (List.mem_filter.mp hother).1 with hin | hzero
    · exact absurd hin (of_decide_eq_false hout)
    · exact hzero

/-- A document that takes no more from each transaction than the old one, or no more than what
the other invoices leave. -/
lemma AllocationInvariant.setMeta (h : AllocationInvariant db) {id : Nat}
    (hfind : db.invoices.find id = some inv) {fields : Fields T H}
    (hrecords : ∀ r ∈ paymentMetaRecords (some (.obj fields)),
      spendable db.bank (recordTid r) = true → RecordOk inv r)
    (htakes : ∀ t, spendable db.bank t = true →
      tidMinor T H t (ofColumn T H inv.currency) (paymentMetaRecords (some (.obj fields))) ≤
        tidMinor T H t (ofColumn T H inv.currency) (paymentMetaRecords inv.paymentMeta) ∨
      (db.invoices.rows.map (share t)).sum - share t inv +
        tidMinor T H t (ofColumn T H inv.currency) (paymentMetaRecords (some (.obj fields))) ≤
          accInOf db.bank t) :
    AllocationInvariant (db.setMeta id fields) := by
  constructor
  · intro other hother r hr hspend
    obtain ⟨old, hold, rfl⟩ := List.mem_map.mp hother
    unfold onRows at hr ⊢
    split at hr
    · next hid =>
      rw [if_pos hid]
      have hkey : old.key = inv.key := (of_decide_eq_true hid).trans (Table.key_of_find hfind).symm
      have heq := Table.eq_of_key_eq hold (Table.mem_of_find hfind) hkey
      subst heq
      have hok := hrecords r hr hspend
      exact ⟨hok.tid, hok.unescaped, hok.column, hok.minor⟩
    · next hid =>
      rw [if_neg hid]
      exact h.records old hold r hr hspend
  · intro t ht
    have hbound := h.bounded t ht
    have hsum := Table.sum_update_key (f := PaidInvoice.withMeta fields) (fun _ => rfl) hfind
      (share t)
    change ((db.setMeta id fields).invoices.rows.map (share t)).sum ≤ accInOf db.bank t
    have hrows : ((db.setMeta id fields).invoices.rows.map (share t)).sum =
        (db.invoices.rows.map (share t)).sum - share t inv +
          share t (inv.withMeta fields) := hsum
    have hnew : share t (inv.withMeta fields) = if inv.counts then tidMinor T H t
        (ofColumn T H inv.currency) (paymentMetaRecords (some (.obj fields))) else 0 := rfl
    rw [hrows, hnew]
    have hold : share t inv = if inv.counts then tidMinor T H t
        (ofColumn T H inv.currency) (paymentMetaRecords inv.paymentMeta) else 0 := rfl
    rcases htakes t ht with hle | hleft
    · rw [hold]
      split <;> omega
    · split
      · exact hleft
      · next hcounts =>
        rw [share, if_neg hcounts]
        omega

/-! ### What an append writes -/

lemma recordTid_of_null (h : get r "tid" = .null) : recordTid r = [] := by
  rw [recordTid, h]
  rfl

lemma recordTid_of_str (h : get r "tid" = .str t) : recordTid r = pyStrip t := by
  have hstr : strOrEmpty (T := T) (H := H) (.str t) = t := by
    cases t with
    | nil => rfl
    | cons c t => rfl
  rw [recordTid, h, hstr]

lemma paymentMetaRecords_mergedMeta (currency : Text) (existing metaFields : Fields T H)
    (deposits : List (Value T H)) (depositTotal : Value T H) :
    paymentMetaRecords (some (.obj (mergedMeta T H currency existing metaFields deposits
      depositTotal))) = deposits.filterMap asFields := by
  have hget : get (mergedMeta T H currency existing metaFields deposits depositTotal) "deposits" =
      .arr deposits := by
    unfold mergedMeta
    dsimp only
    split <;> simp [get_put]
  unfold paymentMetaRecords
  dsimp only
  rw [hget]

/-- An append starts from the deposits of the invoice, from none, or from the single deposit of
a document without a list. -/
lemma priorDeposits_cases (currency : Text) (v : Option (Value T H)) :
    (priorDeposits T H currency (existingFields v)).filterMap asFields = paymentMetaRecords v ∨
      priorDeposits T H currency (existingFields v) = [] ∨
      priorDeposits T H currency (existingFields v) =
        legacyDeposits T H currency (existingFields v) := by
  unfold priorDeposits
  split
  · next d ds hget =>
    left
    cases v with
    | none => cases hget
    | some v =>
      cases v with
      | obj fields =>
        have hfields : get fields "deposits" = .arr (d :: ds) := hget
        unfold paymentMetaRecords
        dsimp only
        rw [hfields]
      | _ => cases hget
  · right
    split
    · exact .inl rfl
    · exact .inr rfl

/-- The record that is made of the single deposit. -/
lemma mem_legacyDeposits {currency : Text} {existing : Fields T H}
    (h : r ∈ (legacyDeposits T H currency existing).filterMap asFields) :
    get r "tid" = .null ∧ get r "currency" = pyOr H (get existing "currency") (.str currency) ∧
      ∃ n, paymentDepositMinor T H (get existing "deposit") (.str currency) = some n ∧
        get r "deposit" = paymentDepositValueFromMinor T H n currency := by
  unfold legacyDeposits at h
  split at h
  · next deposit hdeposit =>
    obtain ⟨n, hn, hvalue⟩ := Option.map_eq_some_iff.mp hdeposit
    have hobj := List.mem_singleton.mp (mem_filterMap_asFields.mp h)
    cases hobj
    exact ⟨rfl, rfl, n, hn, hvalue.symm⟩
  · cases h

/-- The deposits that an append starts from are those of the invoice, or carry no id. -/
lemma prior_records (currency : Text) (v : Option (Value T H)) :
    (priorDeposits T H currency (existingFields v)).filterMap asFields = paymentMetaRecords v ∨
      ∀ r ∈ (priorDeposits T H currency (existingFields v)).filterMap asFields,
        recordTid r = [] := by
  rcases priorDeposits_cases currency v with hsame | hnone | hlegacy
  · exact .inl hsame
  · right
    rw [hnone]
    exact List.forall_mem_nil _
  · right
    rw [hlegacy]
    intro r hr
    exact recordTid_of_null (mem_legacyDeposits hr).1

/-- An append adds its record or leaves the deposits as they are. -/
lemma addRecord_eq_some {tid : Text} {record : Fields T H} {prior deposits : List (Value T H)}
    (h : addRecord T H tid record prior = some deposits) :
    deposits = prior ∨ deposits = prior ++ [.obj record] := by
  unfold addRecord at h
  split at h
  · cases h
    exact .inr rfl
  · obtain ⟨found, -, hfound⟩ := Option.map_eq_some_iff.mp h
    cases found with
    | true =>
      cases hfound
      exact .inl rfl
    | false =>
      cases hfound
      exact .inr rfl

/-- The appended record: its id, its currency and its amount. -/
lemma depositRecord_eq_some {currency tid : Text} {metaFields record : Fields T H}
    (h : depositRecord T H currency tid metaFields = some record) :
    get record "tid" = (if tid = [] then get metaFields "tid" else .str tid) ∧
      get record "currency" = get metaFields "currency" ∧
      ∃ n, paymentDepositMinor T H (get metaFields "deposit") (.str currency) = some n ∧
        get record "deposit" = paymentDepositValueFromMinor T H n currency := by
  obtain ⟨deposit, hdeposit, hrecord⟩ := Option.map_eq_some_iff.mp h
  obtain ⟨n, hn, hvalue⟩ := Option.map_eq_some_iff.mp hdeposit
  rw [← hrecord, ← hvalue]
  by_cases htid : tid = []
  · simp only [htid, if_true] at hn
    exact ⟨by simp [htid, get_put], by simp [htid, get_put], n, hn, by simp [get_put]⟩
  · simp only [htid, if_false, get_put] at hn
    exact ⟨by simp [htid, get_put], by simp [htid, get_put], n, hn, by simp [get_put]⟩

lemma sumMinor_eq_some {α : Type} {f : α → Option ℤ} {rs : List α} {total : ℤ}
    (h : sumMinor f rs = some total) :
    (∀ r ∈ rs, (f r).isSome) ∧ (rs.map (fun r => (f r).getD 0)).sum = total := by
  induction rs generalizing total with
  | nil =>
    cases h
    exact ⟨List.forall_mem_nil _, rfl⟩
  | cons r rs ih =>
    obtain ⟨minor, hminor, h⟩ := Option.bind_eq_some_iff.mp h
    obtain ⟨rest, hrest, h⟩ := Option.bind_eq_some_iff.mp h
    cases h
    obtain ⟨hall, hsum⟩ := ih hrest
    constructor
    · intro q hq
      rcases List.mem_cons.mp hq with rfl | hq
      · rw [hminor]
        rfl
      · exact hall q hq
    · rw [List.map_cons, List.sum_cons, hsum, hminor]
      rfl

lemma sumMinor_of_forall {α : Type} {f : α → Option ℤ} {g : α → ℤ} {rs : List α}
    (h : ∀ r ∈ rs, f r = some (g r)) : sumMinor f rs = some (rs.map g).sum := by
  induction rs with
  | nil => rfl
  | cons r rs ih =>
    rw [sumMinor, h r List.mem_cons_self, ih (fun q hq => h q (List.mem_cons_of_mem _ hq))]
    rfl

lemma paymentMetaCurrency_ofColumn (inv : Invoice) :
    paymentMetaCurrency T H (ofColumn T H inv.currency) = some (defaultCurrency T inv) := by
  unfold defaultCurrency
  match inv.currency with
  | none => rfl
  | some [] => rfl
  | some (c :: code) => rfl

/-- The default currency stands for the column. -/
lemma paymentDepositMinor_defaultCurrency (inv : Invoice) (v : Value T H) :
    paymentDepositMinor T H v (.str (defaultCurrency T inv)) =
      paymentDepositMinor T H v (ofColumn T H inv.currency) := by
  have hidem : stripUpper T.toUpperTable (defaultCurrency T inv) = defaultCurrency T inv :=
    stripUpper_stripUpper _
  obtain ⟨cur, hcur, hscale⟩ := @paymentMetaCurrency_str T H (defaultCurrency T inv)
  rw [hidem] at hscale
  exact paymentDepositMinor_congr hcur (paymentMetaCurrency_ofColumn inv) hscale v

variable {input : SaveInput T H} {record : Fields T H} {deposits : List (Value T H)}
  {totalMinor : ℤ} {id : Nat}

/-- A record that is appended under the id of a transaction as `staysChecked` asks. -/
lemma Appended.recordOk
    (h : Appended db.bank db.invoices.rows inv input record deposits totalMinor)
    (hmem : record ∈ deposits.filterMap asFields) (hstrip : pyStrip input.tid = input.tid)
    (htid : input.tid ≠ []) (hunescaped : Unescaped input.tid)
    (hcolumn : pyTruthy H (ofColumn T H inv.currency) = true)
    (hscale : ∃ code ∈ paymentMetaCurrency T H (get input.metaFields "currency"),
      scaleOf T.toUpperTable (some code) =
        scaleOf T.toUpperTable (some (defaultCurrency T inv.toInvoice)))
    (hamount : 0 ≤ (paymentDepositMinor T H (get input.metaFields "deposit")
      (.str (defaultCurrency T inv.toInvoice))).getD 0) : RecordOk inv record := by
  obtain ⟨hget, hcurrency, n, hn, hdeposit⟩ := depositRecord_eq_some h.read
  rw [if_neg htid] at hget
  have hrecordTid : recordTid record = input.tid := (recordTid_of_str hget).trans hstrip
  obtain ⟨m, hm⟩ := Option.isSome_iff_exists.mp ((sumMinor_eq_some h.total).1 record hmem)
  refine ⟨by rw [hget, hrecordTid], hrecordTid ▸ hunescaped, hcolumn, m, ?_, ?_, ?_⟩
  · rw [hn] at hamount
    rw [hdeposit] at hm
    exact paymentDepositMinor_value_nonneg hamount hm
  · rw [← paymentDepositMinor_defaultCurrency]
    exact hm
  · rw [hcurrency, pyOr]
    split
    · obtain ⟨code, hcode, hsame⟩ := hscale
      rw [paymentDepositMinor_congr hcode (paymentMetaCurrency_ofColumn inv.toInvoice) hsame,
        ← paymentDepositMinor_defaultCurrency]
      exact hm
    · exact hm

/-- The records after an append are the appended one and old ones. -/
lemma Appended.mem_records (h : Appended db.bank db.invoices.rows inv input record deposits
    totalMinor) (hr : r ∈ deposits.filterMap asFields) :
    r = record ∨ r ∈ paymentMetaRecords inv.paymentMeta ∨ recordTid r = [] := by
  have hprior : ∀ r ∈ (priorDeposits T H (defaultCurrency T inv.toInvoice)
      (existingFields inv.paymentMeta)).filterMap asFields,
      r ∈ paymentMetaRecords inv.paymentMeta ∨ recordTid r = [] := by
    intro r hr
    rcases prior_records (defaultCurrency T inv.toInvoice) inv.paymentMeta with heq | hnone
    · exact .inl (heq ▸ hr)
    · exact .inr (hnone r hr)
  rcases addRecord_eq_some h.added with rfl | rfl
  · exact .inr (hprior r hr)
  · rw [List.filterMap_append] at hr
    rcases List.mem_append.mp hr with hold | hnew
    · exact .inr (hprior r hold)
    · exact .inl (by simpa [asFields] using hnew)

/-- An append takes from the transactions that its record does not name at most what the
invoice took before. -/
lemma Appended.tidMinor_le (hdb : AllocationInvariant db) (hfind : db.invoices.find id = some inv)
    (h : Appended db.bank db.invoices.rows inv input record deposits totalMinor)
    (ht : spendable db.bank t = true) (hne : recordTid record ≠ t) :
    tidMinor T H t (ofColumn T H inv.currency) (deposits.filterMap asFields) ≤
      tidMinor T H t (ofColumn T H inv.currency) (paymentMetaRecords inv.paymentMeta) := by
  have hnil : t ≠ [] := by
    simp only [spendable, decide_eq_true_eq] at ht
    exact ht.1
  have hdrop : tidMinor T H t (ofColumn T H inv.currency) (deposits.filterMap asFields) =
      tidMinor T H t (ofColumn T H inv.currency)
        ((priorDeposits T H (defaultCurrency T inv.toInvoice)
          (existingFields inv.paymentMeta)).filterMap asFields) := by
    rcases addRecord_eq_some h.added with rfl | rfl
    · rfl
    · simp [tidMinor, List.filterMap_append, asFields, List.filter_append, hne]
  rw [hdrop]
  rcases prior_records (defaultCurrency T inv.toInvoice) inv.paymentMeta with heq | hnone
  · rw [heq]
  · rw [tidMinor_of_forall_ne (fun r hr hrt => hnil (hrt.symm.trans (hnone r hr)))]
    exact hdb.tidMinor_nonneg (Table.mem_of_find hfind) ht

/-- From its own transaction an append takes no more than the other invoices leave. -/
lemma Appended.takes (hdb : AllocationInvariant db) (hfind : db.invoices.find id = some inv)
    (h : Appended db.bank db.invoices.rows inv input record deposits totalMinor)
    (hstrip : pyStrip input.tid = input.tid) (ht : spendable db.bank input.tid = true)
    (hok : ∀ r ∈ deposits.filterMap asFields, recordTid r = input.tid → RecordOk inv r) :
    tidMinor T H input.tid (ofColumn T H inv.currency) (deposits.filterMap asFields) ≤
        tidMinor T H input.tid (ofColumn T H inv.currency) (paymentMetaRecords inv.paymentMeta) ∨
      (db.invoices.rows.map (share input.tid)).sum - share input.tid inv +
        tidMinor T H input.tid (ofColumn T H inv.currency) (deposits.filterMap asFields) ≤
          accInOf db.bank input.tid := by
  have hid : inv.key = id := Table.key_of_find hfind
  have hself : db.invoices.find inv.id = some inv := by
    rw [← hid] at hfind
    exact hfind
  obtain ⟨hnil, hpos⟩ : input.tid ≠ [] ∧ 0 < accInOf db.bank input.tid := by
    simpa only [spendable, decide_eq_true_eq] using ht
  have htx : bankActivityTidAmountMinor db.bank input.tid = accInOf db.bank input.tid := by
    unfold bankActivityTidAmountMinor
    rw [hstrip]
    exact if_neg hnil
  -- the check counts the records of the saved invoice as the search counts them
  have hcurrent : sumMinor (fun r => paymentDepositMinor T H (get r "deposit")
      (pyOr H (get r "currency") (.str (defaultCurrency T inv.toInvoice))))
      ((deposits.filterMap asFields).filter (fun r => recordTid r = input.tid)) =
      some (tidMinor T H input.tid (ofColumn T H inv.currency) (deposits.filterMap asFields)) := by
    apply sumMinor_of_forall
    intro r hr
    obtain ⟨hmem, htid⟩ := List.mem_filter.mp hr
    obtain ⟨m, -, hcolumn, hrecord⟩ := (hok r hmem (of_decide_eq_true htid)).minor
    rw [hcolumn, hrecord]
    rfl
  have helse := hdb.sumTidAllocationsMinor ht hstrip (defaultCurrency T inv.toInvoice) hself
  have hcheck := require_eq_ok.mp h.available
  rw [htx, hcurrent, helse] at hcheck
  simp only [Option.getD_some, decide_eq_true_eq, not_and, not_lt] at hcheck
  have hold := hdb.tidMinor_nonneg (Table.mem_of_find hfind) ht
  by_cases hzero : 0 < tidMinor T H input.tid (ofColumn T H inv.currency)
      (deposits.filterMap asFields)
  · exact .inr (hcheck hnil hpos hzero)
  · left
    omega

/-- The id of the appended record is that of the request, or comes with its fields. -/
lemma Appended.recordTid_eq
    (h : Appended db.bank db.invoices.rows inv input record deposits totalMinor)
    (hstrip : pyStrip input.tid = input.tid) :
    recordTid record = if input.tid = [] then recordTid input.metaFields else input.tid := by
  have hget := (depositRecord_eq_some h.read).1
  split at hget
  · next htid =>
    rw [if_pos htid, recordTid, hget]
    rfl
  · next htid => rw [if_neg htid, recordTid_of_str hget, hstrip]

lemma AllocationInvariant.append (hdb : AllocationInvariant db)
    (hfind : db.invoices.find id = some inv)
    (h : Appended db.bank db.invoices.rows inv input record deposits totalMinor)
    (hstrip : pyStrip input.tid = input.tid)
    (hfree : input.tid = [] → spendable db.bank (recordTid input.metaFields) = false)
    (hnamed : input.tid ≠ [] → spendable db.bank input.tid = true →
      Unescaped input.tid ∧ pyTruthy H (ofColumn T H inv.currency) = true ∧
        (∃ code ∈ paymentMetaCurrency T H (get input.metaFields "currency"),
          scaleOf T.toUpperTable (some code) =
            scaleOf T.toUpperTable (some (defaultCurrency T inv.toInvoice))) ∧
        0 ≤ (paymentDepositMinor T H (get input.metaFields "deposit")
          (.str (defaultCurrency T inv.toInvoice))).getD 0) (depositTotal : Value T H) :
    AllocationInvariant (db.setMeta id (mergedMeta T H (defaultCurrency T inv.toInvoice)
      (existingFields inv.paymentMeta) input.metaFields deposits depositTotal)) := by
  have hrecordTid := h.recordTid_eq hstrip
  have hok : ∀ r ∈ deposits.filterMap asFields, spendable db.bank (recordTid r) = true →
      RecordOk inv r := by
    intro r hr hspend
    rcases h.mem_records hr with rfl | hold | hnone
    · rw [hrecordTid] at hspend
      split at hspend
      · next htid =>
        rw [hfree htid] at hspend
        cases hspend
      · next htid =>
        obtain ⟨hunescaped, hcolumn, hscale, hamount⟩ := hnamed htid hspend
        exact h.recordOk hr hstrip htid hunescaped hcolumn hscale hamount
    · exact hdb.records inv (Table.mem_of_find hfind) r hold hspend
    · rw [hnone] at hspend
      cases hspend
  apply hdb.setMeta hfind
  · rw [paymentMetaRecords_mergedMeta]
    exact hok
  · intro t ht
    rw [paymentMetaRecords_mergedMeta]
    by_cases htid : t = input.tid
    · subst htid
      exact h.takes hdb hfind hstrip ht (fun r hr hrt => hok r hr (hrt ▸ ht))
    · left
      apply h.tidMinor_le hdb hfind ht
      rw [hrecordTid]
      split
      · next hnil =>
        rintro rfl
        rw [hfree hnil] at ht
        cases ht
      · exact Ne.symm htid

lemma pyStrip_pyStrip (t : Text) : pyStrip (pyStrip t) = pyStrip t :=
  pyStrip_of_stripped (stripped_pyStrip t)

lemma pyStrip_tid_of_inputFor {req : SaveRequest T H} (h : inputFor inv req = some input) :
    pyStrip input.tid = input.tid := by
  unfold inputFor at h
  split at h
  · next raw hraw =>
    cases h
    unfold readRequest at hraw
    split at hraw
    · cases hraw
      rfl
    · split at hraw
      · split at hraw
        · cases hraw
          exact pyStrip_pyStrip _
        · cases hraw
      · cases hraw
  · cases h

lemma AllocationInvariant.savePaymentMeta {db' : MetaDb T H} {req : SaveRequest T H}
    (h : AllocationInvariant db) (hguard : staysChecked db (id, req) = true)
    (hsave : savePaymentMeta T H db id req = .ok db') : AllocationInvariant db' := by
  unfold Billing.savePaymentMeta at hsave
  split at hsave
  · cases hsave
  · next inv hfind =>
    obtain ⟨_, -, hsave⟩ := except_bind_eq_ok.mp hsave
    obtain ⟨fields, hfields, hsave⟩ := except_bind_eq_ok.mp hsave
    cases hsave
    obtain ⟨input, hinput, -, hwritten⟩ := metaToSave_eq_ok hfields
    have hstrip := pyStrip_tid_of_inputFor hinput
    simp only [staysChecked, hfind, hinput] at hguard
    by_cases happend : input.append = true
    · rw [if_pos happend] at hwritten hguard
      obtain ⟨record, deposits, totalMinor, happ, rfl⟩ := appendedMeta_eq_ok hwritten
      apply h.append hfind happ hstrip
      · intro htid
        rw [if_pos htid] at hguard
        simpa using hguard
      · intro htid hspend
        rw [if_neg htid] at hguard
        exact of_decide_eq_true hguard hspend
    · rw [if_neg happend] at hwritten hguard
      rw [hwritten]
      have hnone : ∀ r ∈ paymentMetaRecords (some (.obj input.metaFields)),
          spendable db.bank (recordTid r) ≠ true := by
        intro r hr
        simpa using List.all_eq_true.mp hguard r hr
      apply h.setMeta hfind
      · intro r hr hspend
        exact absurd hspend (hnone r hr)
      · intro t ht
        left
        rw [tidMinor_of_forall_ne (fun r hr hrt => hnone r hr (hrt ▸ ht))]
        exact h.tidMinor_nonneg (Table.mem_of_find hfind) ht

end Measure

section Run

variable (T : DigitTables) (H : PyHost T.toUnicodeTables)

abbrev saveStep : MetaDb T H → Nat × SaveRequest T H → Option (MetaDb T H) :=
  stepOf (fun db a => savePaymentMeta T H db a.1 a.2)

/-- No payment data has been saved yet. -/
def MetaDb.Fresh {T : DigitTables} {H : PyHost T.toUnicodeTables} (db : MetaDb T H) : Prop :=
  ∀ inv ∈ db.invoices.rows, inv.paymentMeta = none

variable {T H}

lemma allocationInvariant_of_fresh {db : MetaDb T H} (h : db.Fresh) : AllocationInvariant db := by
  have hrecords : ∀ inv ∈ db.invoices.rows, paymentMetaRecords inv.paymentMeta = [] := by
    intro inv hinv
    rw [h inv hinv]
    rfl
  constructor
  · intro inv hinv r hr
    rw [hrecords inv hinv] at hr
    cases hr
  · intro t ht
    have hzero : ∀ x ∈ db.invoices.rows.map (share t), x = 0 := by
      intro x hx
      obtain ⟨inv, hinv, rfl⟩ := List.mem_map.mp hx
      rw [share, hrecords inv hinv]
      exact ite_self 0
    simp only [spendable, decide_eq_true_eq] at ht
    rw [List.sum_eq_zero hzero]
    omega

lemma bank_of_run {db db' : MetaDb T H} {as : List (Nat × SaveRequest T H)}
    (hrun : GuardedRun (saveStep T H) (fun db a => staysChecked db a = true) db as db') :
    db'.bank = db.bank := by
  refine hrun.invariant (I := fun s => s.bank = db.bank) rfl ?_
  intro s a s' hs _ hstep
  have hsave := stepOf_eq_some.mp hstep
  unfold savePaymentMeta at hsave
  split at hsave
  · cases hsave
  · obtain ⟨_, -, hsave⟩ := except_bind_eq_ok.mp hsave
    obtain ⟨_, -, hsave⟩ := except_bind_eq_ok.mp hsave
    cases hsave
    exact hs

/-- As long as no request goes around the check, the invoices never take more from a bank
transaction than its incoming amount. -/
theorem bank_transaction_not_overspent {db db' : MetaDb T H} {as : List (Nat × SaveRequest T H)}
    (hfresh : db.Fresh)
    (hrun : GuardedRun (saveStep T H) (fun db a => staysChecked db a = true) db as db') (t : Text)
    (ht : 0 < accInOf db.bank t) : allocatedMinor db' t ≤ accInOf db.bank t := by
  have hinv : AllocationInvariant db' :=
    hrun.invariant (allocationInvariant_of_fresh hfresh)
      (fun _ _ _ h hguard hstep => h.savePaymentMeta hguard (stepOf_eq_some.mp hstep))
  have hbank := bank_of_run hrun
  unfold allocatedMinor
  split
  · omega
  · next hne =>
    rw [← hbank] at ht ⊢
    exact hinv.bounded t (decide_eq_true ⟨hne, ht⟩)

end Run

/-- Amounts in hundredths, and no list or `dict` in the place of a text. -/
def plainHost : PyHost asciiDigitTables.toUnicodeTables := ⟨centFloats, fun _ => "[]".toList⟩

def sentInvoice (id : Nat) : PaidInvoice (Value asciiDigitTables plainHost) :=
  { id := id, clientId := 7, businessProfileId := some 1, currency := some "USD".toList,
    totalMinor := 10000, status := .sent, billingStatus := .sent, paymentStatus := .unpaid,
    paymentVerified := false, number := none, total := 100, isDeleted := false,
    paymentMeta := none }

/-- Two invoices of 100.00 and a transaction of 100.00. -/
def twoInvoices : MetaDb asciiDigitTables plainHost :=
  ⟨((Table.empty _).insert sentInvoice (fun _ => rfl)).insert sentInvoice (fun _ => rfl),
    [⟨"T1".toList, some 10000, none⟩]⟩

/-- A payload with the id of the transaction, which may be used by several invoices. -/
def depositPayload (deposit : ℤ) (append : Bool) : SaveRequest asciiDigitTables plainHost :=
  .json (.obj [("tid".toList, .str "T1".toList), ("deposit".toList, .int deposit),
    ("append".toList, .bool append), ("allow_multi_invoice".toList, .bool true)])

lemma fresh_twoInvoices : twoInvoices.Fresh := by
  intro inv hinv
  rcases List.mem_append.mp hinv with hfirst | hsecond
  · rw [List.mem_singleton.mp hfirst]
    rfl
  · rw [List.mem_singleton.mp hsecond]
    rfl

theorem bank_transaction_shared_by_two :
    ∃ db, GuardedRun (saveStep asciiDigitTables plainHost) (fun db a => staysChecked db a = true)
        twoInvoices [(1, depositPayload 60 true), (2, depositPayload 40 true)] db ∧
      allocatedMinor db "T1".toList = 10000 ∧ allocatedMinor db "T1".toList ≤ 10000 := by
  obtain ⟨db, hrun, hsum⟩ := exists_guardedRun_of_any (saveStep asciiDigitTables plainHost)
    (fun db a => staysChecked db a = true) twoInvoices
    [(1, depositPayload 60 true), (2, depositPayload 40 true)]
    (fun db => allocatedMinor db "T1".toList = 10000) (by decide +kernel)
  exact ⟨db, hrun, of_decide_eq_true hsum,
    bank_transaction_not_overspent fresh_twoInvoices hrun "T1".toList (by decide)⟩

/-- The second invoice replaces its payment data and takes 60.00 of the same transaction again. -/
theorem bank_transaction_overspent :
    ¬∀ (as : List (Nat × SaveRequest asciiDigitTables plainHost))
      (db db' : MetaDb asciiDigitTables plainHost), db.Fresh →
      Run (saveStep asciiDigitTables plainHost) db as db' →
      ∀ t, 0 < accInOf db.bank t → allocatedMinor db' t ≤ accInOf db.bank t := by
  intro h
  obtain ⟨db, hrun, hsum⟩ := exists_guardedRun_of_any (saveStep asciiDigitTables plainHost)
    (fun _ _ => True) twoInvoices [(1, depositPayload 60 true), (2, depositPayload 60 false)]
    (fun db => allocatedMinor db "T1".toList = 12000) (by decide +kernel)
  have hle := h _ _ _ fresh_twoInvoices hrun "T1".toList (by decide)
  rw [of_decide_eq_true hsum] at hle
  exact absurd hle (by decide)

end IpDocket.Billing
