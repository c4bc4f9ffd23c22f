import IpDocket.Billing.DepositRequests

/-!
# What holds of the retainer ledger

Every cancellation belongs to one application of the same bucket, invoice and the opposite
amount, no application is cancelled twice, and the applications of an invoice that are not
cancelled match its header. One lemma says that every insert keeps this, whatever its
arguments are; only a cancellation has to name the invoice of its application.
-/

namespace IpDocket.Billing
open IpDocket.Lib

variable (U : UpperTable)

/-- The header that the checks of an insert for the entry accept. -/
def matchesHeader (inv : Invoice) (e : LedgerEntry) : Bool :=
  inv.clientId = e.clientId ∧
    (∀ bp ∈ e.businessProfileId, profileOrDefault inv.businessProfileId = bp) ∧
    (stripUpper U (inv.currency.getD []) ≠ [] → stripUpper U (inv.currency.getD []) = e.currency)

/-- `c` is the cancellation of `a`. -/
structure Cancels (c a : LedgerEntry) : Prop where
  cancel : c.entryType = .cancelApply
  apply : a.entryType = .apply
  entry : c.relatedEntryId = some a.id
  invoice : c.relatedInvoiceId = a.relatedInvoiceId
  bucket : c.bucket = a.bucket
  amount : c.amountMinor = -a.amountMinor

structure LedgerOk (t : Table LedgerEntry.id) : Prop where
  next_pos : 0 < t.next
  id_ne : ∀ e ∈ t.rows, e.id ≠ 0
  invoice_ne : ∀ e ∈ t.rows, e.relatedInvoiceId ≠ some 0
  currency : ∀ e ∈ t.rows, e.currency ≠ [] ∧ stripUpper U e.currency = e.currency
  apply_neg : ∀ e ∈ t.rows, e.entryType = .apply → e.amountMinor < 0
  cancels : ∀ c ∈ t.rows, c.entryType = .cancelApply → ∃ a ∈ t.rows, Cancels c a
  once : ∀ c ∈ t.rows, ∀ d ∈ t.rows, c.entryType = .cancelApply → d.entryType = .cancelApply →
    c.relatedEntryId = d.relatedEntryId → c = d
  balances : ∀ b, 0 ≤ bucketSum b t.rows
  sums : ∀ inv, invoiceSum t.rows inv =
    ((uncanceledApplies t.rows inv).map LedgerEntry.amountMinor).sum

structure DepositInvariant (db : DepositDb) : Prop where
  ledger : LedgerOk U db.ledger
  headers : ∀ inv, ∀ a ∈ uncanceledApplies db.ledger.rows inv,
    ∃ header, db.invoices.find inv = some header ∧ matchesHeader U header a = true

section Checks

variable {U} {c : EntryCall} {db : DepositDb}

lemma validateEntry_eq_ok : validateEntry U c = .ok () ↔
    stripUpper U c.currency ≠ [] ∧ c.amountMinor ≠ 0 ∧ (c.entryType = .topup → 0 < c.amountMinor) ∧
      (c.entryType = .apply → c.amountMinor < 0) ∧ (c.entryType = .cancelApply → 0 < c.amountMinor) ∧
      (c.entryType = .refund → c.amountMinor < 0) ∧
      (c.entryType = .apply ∨ c.entryType = .cancelApply → (truthy c.relatedInvoiceId).isSome) := by
  simp only [validateEntry, check_bind_eq_ok, check_eq_ok, decide_eq_true_eq]

lemma matchesHeader_iff {inv : Invoice} {e : LedgerEntry} : matchesHeader U inv e = true ↔
    inv.clientId = e.clientId ∧
      (∀ bp ∈ e.businessProfileId, profileOrDefault inv.businessProfileId = bp) ∧
      (stripUpper U (inv.currency.getD []) ≠ [] →
        stripUpper U (inv.currency.getD []) = e.currency) :=
  decide_eq_true_iff

lemma checkHeader_eq_ok {inv : Invoice} (id : Nat) :
    checkHeader U c inv = .ok () ↔ matchesHeader U inv (c.toEntry U id) = true := by
  rw [matchesHeader_iff]
  simp only [checkHeader, EntryCall.toEntry, check_bind_eq_ok, check_eq_ok, decide_eq_true_eq]

lemma checkTarget_eq_ok {rel : LedgerEntry} : checkTarget U c rel = .ok () ↔
    rel.clientId = c.clientId ∧ rel.businessProfileId = c.businessProfileId ∧
      (stripUpper U rel.currency ≠ [] → stripUpper U rel.currency = stripUpper U c.currency) ∧
      (c.entryType = .cancelApply → rel.entryType = .apply) ∧
      (c.entryType = .cancelApply → c.amountMinor = -rel.amountMinor) := by
  simp only [checkTarget, check_bind_eq_ok, check_eq_ok, decide_eq_true_eq]

lemma truthy_eq_some {id : Option Nat} {k : Nat} : truthy id = some k ↔ id = some k ∧ k ≠ 0 := by
  simp [truthy, Option.filter_eq_some_iff]

lemma insertEntry_eq_ok {r : DepositDb × EntryResult} : insertEntry U db c = .ok r ↔
    validateEntry U c = .ok () ∧
      checkInvoice U c ((truthy c.relatedInvoiceId).bind db.invoices.find) = .ok () ∧
      checkRelated U c ((truthy c.relatedEntryId).bind db.ledger.find) = .ok () ∧
      checkAlready c db.ledger.rows = .ok () ∧
      checkBalance c (bucketSum (c.bucket U) db.ledger.rows) = .ok () ∧
      r = ({ db with ledger := db.ledger.insert (c.toEntry U) (fun _ => rfl) },
        ⟨db.ledger.next, bucketSum (c.bucket U) db.ledger.rows,
          bucketSum (c.bucket U) db.ledger.rows + c.amountMinor⟩) := by
  constructor
  · intro h
    obtain ⟨_, hvalid, h⟩ := bind_eq_ok.mp h
    obtain ⟨_, hinv, h⟩ := bind_eq_ok.mp h
    obtain ⟨_, hrel, h⟩ := bind_eq_ok.mp h
    obtain ⟨_, halready, h⟩ := bind_eq_ok.mp h
    obtain ⟨_, hbal, h⟩ := bind_eq_ok.mp h
    cases h
    exact ⟨hvalid, hinv, hrel, halready, hbal, rfl⟩
  · rintro ⟨hvalid, hinv, hrel, halready, hbal, rfl⟩
    simp only [insertEntry, hvalid, hinv, hrel, halready, hbal]
    rfl

lemma header_of_checkInvoice (id : Nat) {inv : Nat} (hinv : truthy c.relatedInvoiceId = some inv)
    (h : checkInvoice U c ((truthy c.relatedInvoiceId).bind db.invoices.find) = .ok ()) :
    ∃ header, db.invoices.find inv = some header ∧
      matchesHeader U header (c.toEntry U id) = true := by
  rw [hinv, Option.bind_some] at h
  unfold checkInvoice at h
  rw [hinv] at h
  cases hfind : db.invoices.find inv with
  | none =>
    rw [hfind] at h
    cases h
  | some header =>
    rw [hfind] at h
    exact ⟨header, rfl, (checkHeader_eq_ok id).mp h⟩

/-- The target of a cancellation that passed the checks. -/
lemma target_of_checkRelated (hcancel : c.entryType = .cancelApply)
    (h : checkRelated U c ((truthy c.relatedEntryId).bind db.ledger.find) = .ok ()) :
    ∃ a, truthy c.relatedEntryId = some a.id ∧ a ∈ db.ledger.rows ∧ checkTarget U c a = .ok () := by
  unfold checkRelated at h
  cases hrel : truthy c.relatedEntryId with
  | none =>
    rw [hrel] at h
    have := check_eq_ok.mp h
    simp [hcancel] at this
  | some k =>
    rw [hrel, Option.bind_some] at h
    cases hfind : db.ledger.find k with
    | none =>
      rw [hfind] at h
      cases h
    | some a =>
      rw [hfind] at h
      obtain ⟨hmem, rfl⟩ := Table.find_eq_some.mp hfind
      exact ⟨a, rfl, hmem, h⟩

end Checks

section Append

variable {rows : List LedgerEntry} {e a : LedgerEntry} {inv id : Nat}

lemma isCanceled_iff : isCanceled rows id = true ↔
    ∃ c ∈ rows, c.relatedEntryId = some id ∧ c.entryType = .cancelApply := by
  simp only [isCanceled, List.any_eq_true, decide_eq_true_eq]

lemma isCanceled_append : isCanceled (rows ++ [e]) id =
    (isCanceled rows id || decide (e.relatedEntryId = some id ∧ e.entryType = .cancelApply)) := by
  simp only [isCanceled, List.any_append, List.any_cons, List.any_nil, Bool.or_false]

lemma mem_uncanceledApplies : a ∈ uncanceledApplies rows inv ↔ a ∈ rows ∧
    a.relatedInvoiceId = some inv ∧ a.entryType = .apply ∧ isCanceled rows a.id = false := by
  simp only [uncanceledApplies, List.mem_filter, decide_eq_true_eq]

lemma invoiceSum_append : invoiceSum (rows ++ [e]) inv = invoiceSum rows inv +
    if e.relatedInvoiceId = some inv ∧ (e.entryType = .apply ∨ e.entryType = .cancelApply) then
      e.amountMinor else 0 := by
  simp only [invoiceSum, List.filter_append, List.map_append, List.sum_append, List.filter_singleton,
    Bool.cond_decide]
  split <;> simp

/-- An entry that cancels nothing and that nothing cancels. -/
lemma uncanceledApplies_append (hcancel : e.entryType ≠ .cancelApply)
    (hfresh : isCanceled rows e.id = false) :
    uncanceledApplies (rows ++ [e]) inv = uncanceledApplies rows inv ++
      if e.relatedInvoiceId = some inv ∧ e.entryType = .apply then [e] else [] := by
  have hsame : ∀ id, isCanceled (rows ++ [e]) id = isCanceled rows id := by
    intro id
    simp [isCanceled_append, hcancel]
  simp only [uncanceledApplies, hsame, List.filter_append, List.filter_singleton, hfresh, and_true,
    Bool.cond_decide]

/-- A cancellation takes its application out of the list. -/
lemma uncanceledApplies_append_entry {k : Nat} (hcancel : e.entryType = .cancelApply)
    (hentry : e.relatedEntryId = some k) :
    uncanceledApplies (rows ++ [e]) inv = (uncanceledApplies rows inv).filter (fun r => r.id ≠ k) := by
  have hcanceled : ∀ id, isCanceled (rows ++ [e]) id = false ↔ isCanceled rows id = false ∧ id ≠ k := by
    intro id
    rw [isCanceled_append, hentry, hcancel, Bool.or_eq_false_iff, decide_eq_false_iff_not,
      Option.some.injEq, and_iff_left rfl, ne_comm, ne_eq]
  have hnew : ¬(e.relatedInvoiceId = some inv ∧ e.entryType = .apply ∧
      isCanceled (rows ++ [e]) e.id = false) := by
    rw [hcancel]
    rintro ⟨-, htype, -⟩
    cases htype
  rw [uncanceledApplies, List.filter_append, List.filter_singleton, Bool.cond_decide, if_neg hnew,
    List.append_nil, uncanceledApplies, List.filter_filter]
  apply List.filter_congr
  intro r _
  simp only [hcanceled, ← Bool.decide_and, decide_eq_decide]
  grind

lemma uncanceledApplies_append_cancel (h : Cancels e a) :
    uncanceledApplies (rows ++ [e]) inv =
      (uncanceledApplies rows inv).filter (fun r => r.id ≠ a.id) :=
  uncanceledApplies_append_entry h.cancel h.entry

end Append

section Insert

variable {U} {t : Table LedgerEntry.id}

/-- The invoice of a stored entry passes for an argument of a call. -/
lemma LedgerOk.truthy_invoice (h : LedgerOk U t) {a : LedgerEntry} {inv : Nat} (ha : a ∈ t.rows)
    (hinv : a.relatedInvoiceId = some inv) : truthy (some inv) = some inv := by
  have hne : inv ≠ 0 := by
    intro hzero
    rw [hzero] at hinv
    exact h.invoice_ne a ha hinv
  exact truthy_eq_some.mpr ⟨rfl, hne⟩

lemma LedgerOk.isCanceled_next (h : LedgerOk U t) : isCanceled t.rows t.next = false := by
  by_contra hne
  obtain ⟨c, hc, hentry, htype⟩ := isCanceled_iff.mp (by simpa using hne)
  obtain ⟨a, ha, hca⟩ := h.cancels c hc htype
  have hid : a.id = t.next := Option.some.inj (hca.entry.symm.trans hentry)
  have := t.fresh a ha
  omega

/-- The sum of the remaining applications after one of them is cancelled. -/
lemma sum_uncanceled_filter_ne {inv : Nat} {a : LedgerEntry}
    (ha : a ∈ uncanceledApplies t.rows inv) :
    (((uncanceledApplies t.rows inv).filter (fun r => r.id ≠ a.id)).map
      LedgerEntry.amountMinor).sum =
        ((uncanceledApplies t.rows inv).map LedgerEntry.amountMinor).sum - a.amountMinor :=
  sum_filter_key_ne (t.unique.filter _) ha

variable {c : EntryCall} {db : DepositDb}

/-- The cancellation of an application that passed the checks. -/
lemma cancels_toEntry {a : LedgerEntry} (hcancel : c.entryType = .cancelApply)
    (hrel : truthy c.relatedEntryId = some a.id) (htarget : checkTarget U c a = .ok ())
    (hcurrency : a.currency ≠ [] ∧ stripUpper U a.currency = a.currency)
    (hinv : truthy c.relatedInvoiceId = a.relatedInvoiceId) (id : Nat) :
    Cancels (c.toEntry U id) a := by
  obtain ⟨hclient, hbp, hcur, htype, hamount⟩ := checkTarget_eq_ok.mp htarget
  have hcurrency' : stripUpper U c.currency = a.currency := by
    rw [← hcur (by rw [hcurrency.2]; exact hcurrency.1), hcurrency.2]
  refine ⟨hcancel, htype hcancel, hrel, hinv, ?_, hamount hcancel⟩
  rw [bucket_toEntry]
  simp only [EntryCall.bucket, LedgerEntry.bucket, hclient, hbp, hcurrency']

/-- What an insert that went through did. -/
structure Inserted (U : UpperTable) (db : DepositDb) (e : LedgerEntry) : Prop where
  id_eq : e.id = db.ledger.next
  invoice_ne : e.relatedInvoiceId ≠ some 0
  currency : e.currency ≠ [] ∧ stripUpper U e.currency = e.currency
  apply_neg : e.entryType = .apply → e.amountMinor < 0
  header : e.entryType = .apply → ∃ inv header, e.relatedInvoiceId = some inv ∧
    db.invoices.find inv = some header ∧ matchesHeader U header e = true
  cancels : e.entryType = .cancelApply → ∃ a ∈ db.ledger.rows, Cancels e a ∧
    isCanceled db.ledger.rows a.id = false
  balance : 0 ≤ bucketSum e.bucket db.ledger.rows + e.amountMinor

/-- A cancellation names the invoice of its application. -/
def NamesInvoice (db : DepositDb) (c : EntryCall) : Prop :=
  c.entryType = .cancelApply → ∀ a ∈ db.ledger.rows, c.relatedEntryId = some a.id →
    truthy c.relatedInvoiceId = a.relatedInvoiceId

lemma inserted_of_insertEntry (h : LedgerOk U db.ledger) {r : DepositDb × EntryResult}
    (hnames : NamesInvoice db c) (hins : insertEntry U db c = .ok r) :
    Inserted U db (c.toEntry U db.ledger.next) := by
  obtain ⟨hvalid, hinv, hrel, halready, hbal, -⟩ := insertEntry_eq_ok.mp hins
  obtain ⟨hcur, -, -, happly, -, -, hrequired⟩ := validateEntry_eq_ok.mp hvalid
  refine ⟨rfl, ?_, ⟨hcur, stripUpper_stripUpper _⟩, happly, ?_, ?_, ?_⟩
  · intro hzero
    exact (truthy_eq_some.mp hzero).2 rfl
  · intro htype
    obtain ⟨inv, hsome⟩ := Option.isSome_iff_exists.mp (hrequired (.inl htype))
    obtain ⟨header, hfind, hmatch⟩ := header_of_checkInvoice _ hsome hinv
    exact ⟨inv, header, hsome, hfind, hmatch⟩
  · intro htype
    obtain ⟨a, hentry, ha, htarget⟩ := target_of_checkRelated htype hrel
    have hnamed := hnames htype a ha (truthy_eq_some.mp hentry).1
    refine ⟨a, ha, cancels_toEntry htype hentry htarget (h.currency a ha) hnamed _, ?_⟩
    have hall := of_decide_eq_true (check_eq_ok.mp halready)
    exact hall htype a.id hentry
  · exact of_decide_eq_true (check_eq_ok.mp hbal)

end Insert

section InsertOk

variable {U} {db : DepositDb} {e : LedgerEntry}

/-- The sums of an invoice after a cancellation. -/
lemma sums_append_cancel (h : LedgerOk U db.ledger) {a : LedgerEntry} (ha : a ∈ db.ledger.rows)
    (hcancels : Cancels e a) (hopen : isCanceled db.ledger.rows a.id = false) (inv : Nat) :
    invoiceSum (db.ledger.rows ++ [e]) inv =
      ((uncanceledApplies (db.ledger.rows ++ [e]) inv).map LedgerEntry.amountMinor).sum := by
  rw [invoiceSum_append, uncanceledApplies_append_cancel hcancels, h.sums, hcancels.invoice]
  by_cases hinv : a.relatedInvoiceId = some inv
  · have hmem : a ∈ uncanceledApplies db.ledger.rows inv :=
      mem_uncanceledApplies.mpr ⟨ha, hinv, hcancels.apply, hopen⟩
    rw [if_pos ⟨hinv, .inr hcancels.cancel⟩, sum_uncanceled_filter_ne hmem, hcancels.amount]
    omega
  · have hother : (uncanceledApplies db.ledger.rows inv).filter (fun r => r.id ≠ a.id) =
        uncanceledApplies db.ledger.rows inv := by
      apply List.filter_eq_self.mpr
      intro r hr
      obtain ⟨hmem, hrelated, -, -⟩ := mem_uncanceledApplies.mp hr
      apply decide_eq_true
      intro hid
      rw [Table.eq_of_key_eq hmem ha hid] at hrelated
      exact hinv hrelated
    rw [if_neg (fun hand => hinv hand.1), hother, Int.add_zero]

lemma sums_append (h : LedgerOk U db.ledger) (hins : Inserted U db e) (inv : Nat) :
    invoiceSum (db.ledger.rows ++ [e]) inv =
      ((uncanceledApplies (db.ledger.rows ++ [e]) inv).map LedgerEntry.amountMinor).sum := by
  by_cases htype : e.entryType = .cancelApply
  · obtain ⟨a, ha, hcancels, hopen⟩ := hins.cancels htype
    exact sums_append_cancel h ha hcancels hopen inv
  · have hfresh : isCanceled db.ledger.rows e.id = false := by
      rw [hins.id_eq]
      exact h.isCanceled_next
    rw [invoiceSum_append, uncanceledApplies_append htype hfresh, h.sums, List.map_append,
      List.sum_append]
    simp only [htype, or_false]
    split <;> simp

lemma once_append (hins : Inserted U db e) :
    ∀ c ∈ db.ledger.rows, c.entryType = .cancelApply → e.entryType = .cancelApply →
      c.relatedEntryId ≠ e.relatedEntryId := by
  intro c hc hctype htype heq
  obtain ⟨a, -, hcancels, hopen⟩ := hins.cancels htype
  have hcanceled : isCanceled db.ledger.rows a.id = true :=
    isCanceled_iff.mpr ⟨c, hc, heq.trans hcancels.entry, hctype⟩
  rw [hopen] at hcanceled
  cases hcanceled

/-- Every insert keeps the ledger in order. -/
lemma LedgerOk.insert (h : LedgerOk U db.ledger) (hins : Inserted U db e)
    {t : Table LedgerEntry.id} (hrows : t.rows = db.ledger.rows ++ [e])
    (hnext : t.next = db.ledger.next + 1) : LedgerOk U t := by
  have hmem : ∀ r ∈ t.rows, r ∈ db.ledger.rows ∨ r = e := by
    intro r hr
    rw [hrows] at hr
    rcases List.mem_append.mp hr with hold | hnew
    · exact .inl hold
    · exact .inr (List.mem_singleton.mp hnew)
  have hpos := h.next_pos
  refine ⟨by omega, ?_, ?_, ?_, ?_, ?_, ?_, ?_, ?_⟩
  · intro r hr
    rcases hmem r hr with hold | rfl
    · exact h.id_ne r hold
    · rw [hins.id_eq]
      omega
  · intro r hr
    rcases hmem r hr with hold | rfl
    · exact h.invoice_ne r hold
    · exact hins.invoice_ne
  · intro r hr
    rcases hmem r hr with hold | rfl
    · exact h.currency r hold
    · exact hins.currency
  · intro r hr
    rcases hmem r hr with hold | rfl
    · exact h.apply_neg r hold
    · exact hins.apply_neg
  · intro c hc htype
    rw [hrows]
    rcases hmem c hc with hold | rfl
    · obtain ⟨a, ha, hcancels⟩ := h.cancels c hold htype
      exact ⟨a, List.mem_append_left _ ha, hcancels⟩
    · obtain ⟨a, ha, hcancels, -⟩ := hins.cancels htype
      exact ⟨a, List.mem_append_left _ ha, hcancels⟩
  · intro c hc d hd hctype hdtype heq
    rcases hmem c hc with hcold | rfl
    · rcases hmem d hd with hdold | rfl
      · exact h.once c hcold d hdold hctype hdtype heq
      · exact absurd heq (once_append hins c hcold hctype hdtype)
    · rcases hmem d hd with hdold | rfl
      · exact absurd heq.symm (once_append hins d hdold hdtype hctype)
      · rfl
  · intro b
    rw [hrows, bucketSum_append, bucketSum_singleton]
    split
    · next hb =>
      rw [← hb]
      exact hins.balance
    · rw [Int.add_zero]
      exact h.balances b
  · intro inv
    rw [hrows]
    exact sums_append h hins inv

/-- Only a new application is added to the applications that are not cancelled. -/
lemma mem_uncanceledApplies_append {a : LedgerEntry} {inv : Nat}
    (ha : a ∈ uncanceledApplies (db.ledger.rows ++ [e]) inv) :
    a ∈ uncanceledApplies db.ledger.rows inv ∨
      a = e ∧ e.entryType = .apply ∧ e.relatedInvoiceId = some inv := by
  obtain ⟨hmem, hinv, htype, hopen⟩ := mem_uncanceledApplies.mp ha
  rw [isCanceled_append, Bool.or_eq_false_iff] at hopen
  rcases List.mem_append.mp hmem with hold | hnew
  · exact .inl (mem_uncanceledApplies.mpr ⟨hold, hinv, htype, hopen.1⟩)
  · rw [List.mem_singleton.mp hnew] at hinv htype
    exact .inr ⟨List.mem_singleton.mp hnew, htype, hinv⟩

end InsertOk

/-- Every insert keeps the invariant; a cancellation has to name the invoice of its
application. -/
theorem DepositInvariant.insertEntry {U : UpperTable} {db : DepositDb} {c : EntryCall}
    {r : DepositDb × EntryResult} (h : DepositInvariant U db) (hnames : NamesInvoice db c)
    (hins : insertEntry U db c = .ok r) : DepositInvariant U r.1 := by
  have hentry := inserted_of_insertEntry h.ledger hnames hins
  obtain ⟨-, -, -, -, -, rfl⟩ := insertEntry_eq_ok.mp hins
  refine ⟨h.ledger.insert hentry rfl rfl, ?_⟩
  intro inv a ha
  rcases mem_uncanceledApplies_append ha with hold | ⟨rfl, htype, hinv⟩
  · exact h.headers inv a hold
  · obtain ⟨inv', header, hinv', hfind, hmatch⟩ := hentry.header htype
    rw [hinv] at hinv'
    cases hinv'
    exact ⟨header, hfind, hmatch⟩

end IpDocket.Billing
