import IpDocket.Billing.InvoiceStatus

/-!
# Voiding invoices in bulk

A bulk void cancels the applications of one invoice after the other in one transaction. An invoice whose
cancellation fails is passed over, and what was inserted for it before stays in the transaction. A failed
statement of PostgreSQL ends the transaction, so that the commit rolls all of it back; any other exception
leaves it open.

What happens to an invoice depends on its own row, its own applications and its own failures only, as
long as every amount that is given back fits its balance.
-/

namespace IpDocket.Billing
open IpDocket.Lib

/-- A failure of the cancellation: at the `SELECT` of the applications, or when so many of them have been
cancelled. -/
structure CancelFault where
  after : Option Nat
  aborts : Bool
  deriving DecidableEq

inductive CancelEnd
  | done
  | refused
  | failed
  deriving DecidableEq

section Bulk

variable (U : UpperTable)

/-- The loop passes an application over that has no currency or no negative amount. -/
def skipsApply (a : LedgerEntry) : Bool := stripUpper U a.currency = [] ∨ -a.amountMinor ≤ 0

/-- The loop over the selected applications, which fails when `limit` of them have been cancelled. -/
def cancelUntil (invoiceId : Nat) : Option Nat → DepositDb → List LedgerEntry → DepositDb × CancelEnd
  | _, db, [] => (db, .done)
  | limit, db, a :: as =>
    if skipsApply U a then cancelUntil invoiceId limit db as
    else if limit = some 0 then (db, .failed)
    else
      match insertEntry U db (cancelCall U invoiceId a) with
      | .ok (db', _) => cancelUntil invoiceId (limit.map Nat.pred) db' as
      | .error _ => (db, .refused)

/-- One invoice of the list; `none` when the transaction is lost. -/
def bulkVoidOne (db : DepositDb) (id : Nat) (fault : Option CancelFault) : Option DepositDb :=
  match db.invoices.find id with
  | none => some db
  | some inv =>
    if BillingStatus.void ∉ billingTransitions inv.billingStatus then some db
    else
      let limit := fault.map CancelFault.after
      let aborts := fault.any CancelFault.aborts
      if limit = some none then (if aborts then none else some db)
      else
        match cancelUntil U id limit.join db (uncanceledApplies db.ledger.rows id) with
        | (db', .done) => some (db'.setStatus id .void .none false)
        | (db', .refused) => some db'
        | (db', .failed) => if aborts then none else some db'

/-- The loop over the invoices. After a lost transaction the next statement raises. -/
def bulkVoid : DepositDb → List (Nat × Option CancelFault) → Option DepositDb
  | db, [] => some db
  | db, (id, fault) :: attempts => (bulkVoidOne U db id fault).bind (fun db' => bulkVoid db' attempts)

/-- What is there after the commit, or after the rollback. -/
def committedVoid (db : DepositDb) (attempts : List (Nat × Option CancelFault)) : DepositDb :=
  (bulkVoid U db attempts).getD db

end Bulk

section Loop

variable {U : UpperTable} {db : DepositDb} {id : Nat}

lemma cancelUntil_of_ok {as : List LedgerEntry} {r : DepositDb × List CanceledEntry}
    (h : cancelApplies U id db as = .ok r) : cancelUntil U id none db as = (r.1, .done) := by
  induction as generalizing db r with
  | nil =>
    cases h
    rfl
  | cons a as ih =>
    rw [cancelApplies] at h
    rw [cancelUntil, skipsApply]
    simp only [decide_eq_true_eq]
    split at h
    · next hskip =>
      rw [if_pos hskip]
      exact ih h
    · next hskip =>
      obtain ⟨⟨db₁, result⟩, hins, h⟩ := bind_eq_ok.mp h
      obtain ⟨⟨db₂, out⟩, hrest, h⟩ := bind_eq_ok.mp h
      cases h
      have hloop := ih hrest
      rw [if_neg hskip, if_neg (by simp), hins]
      exact hloop

lemma cancelUntil_of_error {as : List LedgerEntry} {text : String}
    (h : cancelApplies U id db as = .error text) :
    cancelUntil U id none db as = (cancelAppliesUntilError U id db as, .refused) := by
  induction as generalizing db with
  | nil => cases h
  | cons a as ih =>
    rw [cancelApplies] at h
    rw [cancelUntil, cancelAppliesUntilError, skipsApply]
    simp only [decide_eq_true_eq]
    split at h
    · next hskip =>
      rw [if_pos hskip, if_pos hskip]
      exact ih h
    · next hskip =>
      rw [if_neg hskip, if_neg hskip, if_neg (by simp)]
      cases hins : insertEntry U db (cancelCall U id a) with
      | error text => rfl
      | ok r =>
        apply ih
        dsimp only at h
        rw [hins] at h
        change (cancelApplies U id r.1 as >>= _) = _ at h
        cases hrest : cancelApplies U id r.1 as with
        | error text' =>
          rw [hrest] at h
          cases h
          rfl
        | ok q =>
          rw [hrest] at h
          cases h

/-- Without a failure this is the bulk update of the billing status. -/
theorem bulkVoidOne_none : bulkVoidOne U db id none = some (bulkBillingOne U .void db id).1 := by
  have hsplit : ∀ verified, computeBillingPaymentFromStatus (some BillingStatus.void.toLegacy) verified =
      (.void, .none) := by decide
  unfold bulkVoidOne bulkBillingOne
  cases db.invoices.find id with
  | none => rfl
  | some inv =>
    dsimp only
    rw [hsplit]
    split
    · rfl
    · rw [if_neg (by simp)]
      unfold cancelUncanceledDepositAppliesForInvoice
      cases h : cancelApplies U id db (uncanceledApplies db.ledger.rows id) with
      | ok r =>
        have huntil := cancelUntil_of_ok h
        rw [Option.map_none, Option.join_none, huntil]
      | error text =>
        have huntil := cancelUntil_of_error h
        rw [Option.map_none, Option.join_none, huntil]

/-- The void of the bulk status update is a run without failures. -/
theorem bulkVoid_without_failures (ids : List Nat) :
    bulkVoid U db (ids.map (fun id => (id, none))) = some (bulkLoop (bulkBillingOne U .void) db ids).1 := by
  induction ids generalizing db with
  | nil => rfl
  | cons id ids ih =>
    rw [List.map_cons, bulkVoid, bulkVoidOne_none, Option.bind_some, ih]
    rfl

end Loop

/-- No cancellation of the invoice would leave its balance negative. -/
def Covered (U : UpperTable) (db : DepositDb) (id : Nat) : Prop :=
  ∀ a ∈ uncanceledApplies db.ledger.rows id, skipsApply U a = false →
    a.amountMinor ≤ bucketSum ((cancelCall U id a).bucket U) db.ledger.rows

/-- The invoice takes the cancellation of the application. -/
def acceptsCancel (U : UpperTable) (inv : Invoice) (a : LedgerEntry) : Bool :=
  inv.id ≠ 0 ∧ a.id ≠ 0 ∧ matchesHeader U inv ((cancelCall U inv.id a).toEntry U 0)

def invoiceEntries (entries : List LedgerEntry) (id : Nat) : List LedgerEntry :=
  entries.filter (fun e => e.relatedInvoiceId = some id)

/-- Some applications of the invoice have been cancelled, one entry for each, and nothing else is
changed. -/
structure Cancelled (db db' : DepositDb) (id : Nat) : Prop where
  invoices : db'.invoices = db.invoices
  balances : ∀ b, bucketSum b db.ledger.rows ≤ bucketSum b db'.ledger.rows
  apart : ∀ j, j ≠ id → uncanceledApplies db'.ledger.rows j = uncanceledApplies db.ledger.rows j ∧
    invoiceEntries db'.ledger.rows j = invoiceEntries db.ledger.rows j
  entries : ∃ added, invoiceEntries db'.ledger.rows id = invoiceEntries db.ledger.rows id ++ added ∧
    added.length + (uncanceledApplies db'.ledger.rows id).length =
      (uncanceledApplies db.ledger.rows id).length
  fewer : (uncanceledApplies db'.ledger.rows id).Sublist (uncanceledApplies db.ledger.rows id)

lemma Cancelled.refl (db : DepositDb) (id : Nat) : Cancelled db db id where
  invoices := rfl
  balances _ := le_refl _
  apart _ _ := ⟨rfl, rfl⟩
  entries := ⟨[], (List.append_nil _).symm, Nat.zero_add _⟩
  fewer := List.Sublist.refl _

lemma Cancelled.trans {db db' db'' : DepositDb} {id : Nat} (h : Cancelled db db' id)
    (h' : Cancelled db' db'' id) : Cancelled db db'' id := by
  obtain ⟨added, hadded, hlength⟩ := h.entries
  obtain ⟨added', hadded', hlength'⟩ := h'.entries
  constructor
  · exact h'.invoices.trans h.invoices
  · exact fun b => (h.balances b).trans (h'.balances b)
  · intro j hj
    exact ⟨(h'.apart j hj).1.trans (h.apart j hj).1, (h'.apart j hj).2.trans (h.apart j hj).2⟩
  · refine ⟨added ++ added', ?_, ?_⟩
    · rw [hadded', hadded, List.append_assoc]
    · rw [List.length_append]
      omega
  · exact h'.fewer.trans h.fewer

lemma Covered.cancelled {U : UpperTable} {db db' : DepositDb} {j id : Nat} (hcover : Covered U db j)
    (h : Cancelled db db' id) : Covered U db' j := by
  intro a ha hskip
  have hmem : a ∈ uncanceledApplies db.ledger.rows j := by
    by_cases hj : j = id
    · subst hj
      exact h.fewer.subset ha
    · rwa [(h.apart j hj).1] at ha
  exact (hcover a hmem hskip).trans (h.balances _)

section One

variable {U : UpperTable} {db : DepositDb} {id : Nat} {inv : Invoice} {a : LedgerEntry}

lemma skipsApply_eq_false : skipsApply U a = false ↔ stripUpper U a.currency ≠ [] ∧ a.amountMinor < 0 := by
  unfold skipsApply
  rw [decide_eq_false_iff_not, not_or, ne_eq]
  constructor
  · rintro ⟨hcur, hamount⟩
    exact ⟨hcur, by omega⟩
  · rintro ⟨hcur, hamount⟩
    exact ⟨hcur, by omega⟩

/-- Where the balance takes it, it is the header that decides. -/
lemma insertEntry_cancelCall_iff (hcover : Covered U db id) (hfind : db.invoices.find id = some inv)
    (ha : a ∈ uncanceledApplies db.ledger.rows id) (hskip : skipsApply U a = false) :
    (∃ r, insertEntry U db (cancelCall U id a) = .ok r) ↔ acceptsCancel U inv a = true := by
  obtain ⟨hmem, -, htype, hopen⟩ := mem_uncanceledApplies.mp ha
  obtain ⟨hcur, hneg⟩ := skipsApply_eq_false.mp hskip
  have hid := Table.key_of_find hfind
  have hheader : checkHeader U (cancelCall U id a) inv = .ok () ↔
      matchesHeader U inv ((cancelCall U inv.id a).toEntry U 0) = true := by
    rw [hid]
    exact checkHeader_eq_ok 0
  unfold acceptsCancel
  rw [decide_eq_true_eq]
  constructor
  · rintro ⟨r, hins⟩
    obtain ⟨hvalid, hinvoice, hrelated, -, -, -⟩ := insertEntry_eq_ok.mp hins
    obtain ⟨-, -, -, -, -, -, hrequired⟩ := validateEntry_eq_ok.mp hvalid
    obtain ⟨k, hk⟩ := Option.isSome_iff_exists.mp (hrequired (.inr rfl))
    obtain ⟨hsome, hne⟩ := truthy_eq_some.mp hk
    cases hsome
    rw [hk, Option.bind_some, hfind] at hinvoice
    unfold checkInvoice at hinvoice
    rw [hk] at hinvoice
    obtain ⟨b, hb, -, -⟩ := target_of_checkRelated rfl hrelated
    obtain ⟨hentry, hbne⟩ := truthy_eq_some.mp hb
    have hsame : a.id = b.id := Option.some.inj hentry
    exact ⟨hid ▸ hne, hsame ▸ hbne, hheader.mp hinvoice⟩
  · rintro ⟨hne, hane, hmatch⟩
    have hk : truthy (cancelCall U id a).relatedInvoiceId = some id := truthy_eq_some.mpr ⟨rfl, hid ▸ hne⟩
    have hentry : truthy (cancelCall U id a).relatedEntryId = some a.id := truthy_eq_some.mpr ⟨rfl, hane⟩
    have hbalance := hcover a ha hskip
    have hstrip : stripUpper U (cancelCall U id a).currency = stripUpper U a.currency :=
      stripUpper_stripUpper _
    refine ⟨_, insertEntry_eq_ok.mpr ⟨?_, ?_, ?_, ?_, ?_, rfl⟩⟩
    · rw [validateEntry_eq_ok, hstrip, hk]
      simp only [cancelCall]
      refine ⟨hcur, by omega, fun _ => by omega, ?_, fun _ => by omega, ?_, fun _ => rfl⟩
      · intro hcontra
        cases hcontra
      · intro hcontra
        cases hcontra
    · rw [hk, Option.bind_some, hfind]
      unfold checkInvoice
      rw [hk]
      exact hheader.mpr hmatch
    · rw [hentry, Option.bind_some, Table.find_of_mem hmem]
      unfold checkRelated
      rw [hentry]
      dsimp only
      rw [checkTarget_eq_ok, hstrip]
      exact ⟨rfl, rfl, fun _ => rfl, fun _ => htype, fun _ => rfl⟩
    · apply check_eq_ok.mpr
      apply decide_eq_true
      intro _ k hkey
      rw [hentry] at hkey
      cases hkey
      exact hopen
    · apply check_eq_ok.mpr
      apply decide_eq_true
      simp only [cancelCall] at hbalance ⊢
      omega

/-- The insert takes the application out of the list of its invoice. -/
lemma cancelled_of_insertEntry (ha : a ∈ uncanceledApplies db.ledger.rows id)
    (hskip : skipsApply U a = false) {r : DepositDb × EntryResult}
    (hins : insertEntry U db (cancelCall U id a) = .ok r) :
    Cancelled db r.1 id ∧ uncanceledApplies r.1.ledger.rows id =
      (uncanceledApplies db.ledger.rows id).filter (fun q => q.id ≠ a.id) := by
  obtain ⟨hmem, hinv, -, -⟩ := mem_uncanceledApplies.mp ha
  obtain ⟨hvalid, -, hrelated, -, -, rfl⟩ := insertEntry_eq_ok.mp hins
  obtain ⟨-, -, -, -, -, -, hrequired⟩ := validateEntry_eq_ok.mp hvalid
  obtain ⟨k, hk⟩ := Option.isSome_iff_exists.mp (hrequired (.inr rfl))
  obtain ⟨b, hb, -, -⟩ := target_of_checkRelated rfl hrelated
  have hinvoice : ((cancelCall U id a).toEntry U db.ledger.next).relatedInvoiceId = some id := by
    have hsome := (truthy_eq_some.mp hk).1
    cases hsome
    exact hk
  have hentry : ((cancelCall U id a).toEntry U db.ledger.next).relatedEntryId = some a.id := by
    have hsome := (truthy_eq_some.mp hb).1
    rw [← Option.some.inj hsome] at hb
    exact hb
  have hrows : (db.ledger.insert ((cancelCall U id a).toEntry U) (fun _ => rfl)).rows =
      db.ledger.rows ++ [(cancelCall U id a).toEntry U db.ledger.next] := rfl
  have hlive : ∀ j, uncanceledApplies
      (db.ledger.insert ((cancelCall U id a).toEntry U) (fun _ => rfl)).rows j =
        (uncanceledApplies db.ledger.rows j).filter (fun q => q.id ≠ a.id) := by
    intro j
    rw [hrows]
    exact uncanceledApplies_append_entry rfl hentry
  have hnodup : (uncanceledApplies db.ledger.rows id).Nodup :=
    (db.ledger.unique.filter _).imp (fun hne heq => hne (congrArg LedgerEntry.id heq))
  have honly : (uncanceledApplies db.ledger.rows id).filter (fun q => q.id ≠ a.id) =
      (uncanceledApplies db.ledger.rows id).erase a := by
    rw [hnodup.erase_eq_filter]
    apply List.filter_congr
    intro q hq
    rw [Bool.eq_iff_iff, decide_eq_true_iff, bne_iff_ne]
    apply not_congr
    constructor
    · exact fun hsame => Table.eq_of_key_eq (mem_uncanceledApplies.mp hq).1 hmem hsame
    · rintro rfl
      rfl
  refine ⟨?_, hlive id⟩
  constructor
  · rfl
  · intro b
    have hneg := (skipsApply_eq_false.mp hskip).2
    rw [hrows, bucketSum_append, bucketSum_singleton]
    have hpos : 0 ≤ ((cancelCall U id a).toEntry U db.ledger.next).amountMinor := by
      simp only [EntryCall.toEntry, cancelCall]
      omega
    split
    · omega
    · omega
  · intro j hj
    constructor
    · rw [hlive]
      apply List.filter_eq_self.mpr
      intro q hq
      apply decide_eq_true
      intro hsame
      obtain ⟨hqmem, hqinv, -, -⟩ := mem_uncanceledApplies.mp hq
      rw [Table.eq_of_key_eq hqmem hmem hsame, hinv] at hqinv
      exact hj (Option.some.inj hqinv).symm
    · unfold invoiceEntries
      rw [hrows, List.filter_append, List.filter_singleton, hinvoice]
      have hne : ¬some id = some j := fun heq => hj (Option.some.inj heq).symm
      simp [hne]
  · refine ⟨[(cancelCall U id a).toEntry U db.ledger.next], ?_, ?_⟩
    · unfold invoiceEntries
      rw [hrows, List.filter_append, List.filter_singleton, hinvoice]
      simp
    · have hlength := List.length_erase_add_one ha
      rw [hlive, honly, List.length_singleton]
      omega
  · rw [hlive]
    exact List.filter_sublist

end One

/-! ### An invoice by itself -/

section Abstract

variable (U : UpperTable)

/-- What a cancellation leaves of the applications of an invoice. -/
def release (inv : Invoice) : Option Nat → List LedgerEntry → List LedgerEntry × CancelEnd
  | _, [] => ([], .done)
  | limit, a :: as =>
    if skipsApply U a then ((a :: (release inv limit as).1), (release inv limit as).2)
    else if limit = some 0 then (a :: as, .failed)
    else if acceptsCancel U inv a then release inv (limit.map Nat.pred) as
    else (a :: as, .refused)

/-- What the attempts have made of an invoice: its applications, and whether it has been voided. -/
structure Standing where
  applied : List LedgerEntry
  voided : Bool
  deriving DecidableEq

def Standing.attempt (inv : Invoice) (st : Standing) (fault : Option CancelFault) : Option Standing :=
  let limit := fault.map CancelFault.after
  let aborts := fault.any CancelFault.aborts
  if limit = some none then (if aborts then none else some st)
  else
    match release U inv limit.join st.applied with
    | (left, .done) => some ⟨left, true⟩
    | (left, .refused) => some ⟨left, st.voided⟩
    | (left, .failed) => if aborts then none else some ⟨left, st.voided⟩

/-- An invoice that is there and may be voided. -/
def voidable (db : DepositDb) (id : Nat) : Option Invoice :=
  (db.invoices.find id).filter (fun inv => BillingStatus.void ∈ billingTransitions inv.billingStatus)

/-- The attempts on the invoice, one after the other; `none` when the transaction is lost. -/
def standingAfter (db : DepositDb) (id : Nat) : Standing → List (Option CancelFault) → Option Standing
  | st, [] => some st
  | st, fault :: faults =>
    match voidable db id with
    | none => some st
    | some inv => (st.attempt U inv fault).bind (fun st' => standingAfter db id st' faults)

def faultsOf (attempts : List (Nat × Option CancelFault)) (id : Nat) : List (Option CancelFault) :=
  (attempts.filter (fun p => p.1 = id)).map Prod.snd

end Abstract

/-- The data base shows an invoice as the attempts have left it. -/
structure Shows (db s : DepositDb) (id : Nat) (st : Standing) : Prop where
  row : s.invoices.find id = (db.invoices.find id).map
    (fun inv => if st.voided then inv.withStatus .void .none false else inv)
  applied : uncanceledApplies s.ledger.rows id = st.applied
  entries : ∃ added, invoiceEntries s.ledger.rows id = invoiceEntries db.ledger.rows id ++ added ∧
    added.length + st.applied.length = (uncanceledApplies db.ledger.rows id).length
  fewer : st.applied.Sublist (uncanceledApplies db.ledger.rows id)
  allowed : st.voided = true → (voidable db id).isSome

/-- An invoice before the first attempt. -/
def Standing.start (db : DepositDb) (id : Nat) : Standing := ⟨uncanceledApplies db.ledger.rows id, false⟩

lemma shows_start (db : DepositDb) (id : Nat) : Shows db db id (.start db id) where
  row := by
    rw [Standing.start]
    exact Option.map_id'.symm
  applied := rfl
  entries := ⟨[], (List.append_nil _).symm, Nat.zero_add _⟩
  fewer := List.Sublist.refl _
  allowed h := by cases h

section Steps

variable {U : UpperTable} {db s s' : DepositDb} {id : Nat} {inv : Invoice} {st : Standing}

lemma acceptsCancel_withStatus (billing : BillingStatus) (payment : PaymentStatus) (verified : Bool)
    (inv : Invoice) :
    acceptsCancel U (inv.withStatus billing payment verified) = acceptsCancel U inv := rfl

lemma release_withStatus (billing : BillingStatus) (payment : PaymentStatus) (verified : Bool)
    (inv : Invoice) : release U (inv.withStatus billing payment verified) = release U inv := by
  funext limit as
  induction as generalizing limit with
  | nil => rfl
  | cons a as ih =>
    rw [release, release, acceptsCancel_withStatus, ih, ih]

/-- The loop does to the ledger what `release` does to the applications. -/
lemma cancelUntil_spec (hfind : db.invoices.find id = some inv) (hcover : Covered U db id)
    {kept as : List LedgerEntry} (hlive : uncanceledApplies db.ledger.rows id = kept ++ as)
    (limit : Option Nat) :
    Cancelled db (cancelUntil U id limit db as).1 id ∧
      uncanceledApplies (cancelUntil U id limit db as).1.ledger.rows id =
        kept ++ (release U inv limit as).1 ∧
      (cancelUntil U id limit db as).2 = (release U inv limit as).2 := by
  induction as generalizing db kept limit with
  | nil => exact ⟨.refl db id, hlive, rfl⟩
  | cons a as ih =>
    have ha : a ∈ uncanceledApplies db.ledger.rows id := by
      rw [hlive]
      exact List.mem_append_right _ List.mem_cons_self
    rw [cancelUntil, release]
    cases hskip : skipsApply U a with
    | true =>
      have hlive' : uncanceledApplies db.ledger.rows id = (kept ++ [a]) ++ as := by
        rw [hlive, List.append_assoc, List.singleton_append]
      obtain ⟨hcancelled, hrest, hend⟩ := ih hfind hcover hlive' limit
      rw [List.append_assoc, List.singleton_append] at hrest
      exact ⟨hcancelled, hrest, hend⟩
    | false =>
      simp only [Bool.false_eq_true, if_false]
      by_cases hlimit : limit = some 0
      · rw [if_pos hlimit, if_pos hlimit]
        exact ⟨.refl db id, hlive, rfl⟩
      · rw [if_neg hlimit, if_neg hlimit]
        have hiff := insertEntry_cancelCall_iff hcover hfind ha hskip
        cases hins : insertEntry U db (cancelCall U id a) with
        | ok r =>
          obtain ⟨hcancelled, hfilter⟩ := cancelled_of_insertEntry ha hskip hins
          have hnodup : (uncanceledApplies db.ledger.rows id).Pairwise (fun p q => p.id ≠ q.id) :=
            db.ledger.unique.filter _
          have hlive' : uncanceledApplies r.1.ledger.rows id = kept ++ as := by
            rw [hlive, List.pairwise_append, List.pairwise_cons] at hnodup
            rw [hfilter, hlive, List.filter_append, List.filter_cons_of_neg (by simp)]
            congr 1
            · apply List.filter_eq_self.mpr
              intro q hq
              exact decide_eq_true (hnodup.2.2 q hq a List.mem_cons_self)
            · apply List.filter_eq_self.mpr
              intro q hq
              exact decide_eq_true (Ne.symm (hnodup.2.1.1 q hq))
          have hfind' : r.1.invoices.find id = some inv := by
            rw [hcancelled.invoices]
            exact hfind
          rw [if_pos (hiff.mp ⟨r, hins⟩)]
          obtain ⟨hrest, hleft, hend⟩ :=
            ih hfind' (hcover.cancelled hcancelled) hlive' (limit.map Nat.pred)
          exact ⟨hcancelled.trans hrest, hleft, hend⟩
        | error text =>
          have hnot : ¬acceptsCancel U inv a = true := by
            intro haccepts
            obtain ⟨r, hr⟩ := hiff.mpr haccepts
            rw [hins] at hr
            cases hr
          rw [if_neg hnot]
          exact ⟨.refl db id, hlive, rfl⟩

lemma Shows.cancelled (h : Shows db s id st) (hcancelled : Cancelled s s' id) {left : List LedgerEntry}
    (hleft : uncanceledApplies s'.ledger.rows id = left) : Shows db s' id ⟨left, st.voided⟩ := by
  obtain ⟨added, hadded, hlength⟩ := h.entries
  obtain ⟨added', hadded', hlength'⟩ := hcancelled.entries
  have hfewer := hcancelled.fewer
  rw [h.applied] at hlength' hfewer
  rw [hleft] at hlength' hfewer
  constructor
  · rw [hcancelled.invoices]
    exact h.row
  · exact hleft
  · refine ⟨added ++ added', ?_, ?_⟩
    · rw [hadded', hadded, List.append_assoc]
    · rw [List.length_append]
      dsimp only
      omega
  · exact hfewer.trans h.fewer
  · exact h.allowed

lemma Shows.apart (h : Shows db s id st) {k : Nat} (hcancelled : Cancelled s s' k) (hk : id ≠ k) :
    Shows db s' id st := by
  obtain ⟨happlied, hentries⟩ := hcancelled.apart id hk
  constructor
  · rw [hcancelled.invoices]
    exact h.row
  · rw [happlied]
    exact h.applied
  · rw [hentries]
    exact h.entries
  · exact h.fewer
  · exact h.allowed

lemma find_setStatus (db : DepositDb) (id k : Nat) (billing : BillingStatus) (payment : PaymentStatus)
    (verified : Bool) : (db.setStatus id billing payment verified).invoices.find k =
      if k = id then (db.invoices.find k).map (Invoice.withStatus billing payment verified)
      else db.invoices.find k :=
  find_updateInvoice _ _ _ _ _

lemma Shows.setStatus (h : Shows db s id st) (hinv : (voidable db id).isSome) :
    Shows db (s.setStatus id .void .none false) id ⟨st.applied, true⟩ where
  row := by
    rw [find_setStatus, if_pos rfl, h.row, Option.map_map]
    congr 1
    funext inv
    dsimp only [Function.comp]
    split
    · rfl
    · rfl
  applied := h.applied
  entries := h.entries
  fewer := h.fewer
  allowed _ := hinv

lemma Shows.setStatus_apart (h : Shows db s id st) {k : Nat} (hk : id ≠ k) :
    Shows db (s.setStatus k .void .none false) id st where
  row := by
    rw [find_setStatus, if_neg hk]
    exact h.row
  applied := h.applied
  entries := h.entries
  fewer := h.fewer
  allowed := h.allowed

/-- An invoice that may be voided may be voided again. -/
lemma Shows.voidable_row (h : Shows db s id st) (hinv : voidable db id = some inv) :
    ∃ row, s.invoices.find id = some row ∧ BillingStatus.void ∈ billingTransitions row.billingStatus ∧
      release U row = release U inv := by
  obtain ⟨hfind, hallowed⟩ := Option.filter_eq_some_iff.mp hinv
  have hrow := h.row
  rw [hfind, Option.map_some] at hrow
  refine ⟨_, hrow, ?_, ?_⟩
  · split
    · exact (by decide : BillingStatus.void ∈ billingTransitions .void)
    · exact of_decide_eq_true hallowed
  · split
    · exact release_withStatus _ _ _ inv
    · rfl

/-- What an attempt on an invoice does to the data base. -/
structure Attempted (U : UpperTable) (db s s' : DepositDb) (id : Nat) (st : Standing) : Prop where
  covered : ∀ j, Covered U s j → Covered U s' j
  shows : Shows db s' id st
  apart : ∀ j, j ≠ id → ∀ other, Shows db s j other → Shows db s' j other

lemma bulkVoidOne_spec (h : Shows db s id st) (hcover : Covered U s id) (hinv : voidable db id = some inv)
    (fault : Option CancelFault) :
    (bulkVoidOne U s id fault = none ∧ st.attempt U inv fault = none) ∨
      ∃ s' st', bulkVoidOne U s id fault = some s' ∧ st.attempt U inv fault = some st' ∧
        Attempted U db s s' id st' := by
  obtain ⟨row, hfind, hallowed, hrelease⟩ := h.voidable_row (U := U) hinv
  have hlive : uncanceledApplies s.ledger.rows id = [] ++ st.applied := by
    rw [List.nil_append]
    exact h.applied
  obtain ⟨hcancelled, hleft, hend⟩ :=
    cancelUntil_spec hfind hcover hlive (fault.map CancelFault.after).join
  rw [hrelease, List.nil_append] at hleft
  rw [hrelease] at hend
  have hkeep : Attempted U db s (cancelUntil U id (fault.map CancelFault.after).join s st.applied).1 id
      ⟨(release U inv (fault.map CancelFault.after).join st.applied).1, st.voided⟩ :=
    ⟨fun _ hj => hj.cancelled hcancelled, h.cancelled hcancelled hleft,
      fun j hj other hother => hother.apart hcancelled hj⟩
  unfold bulkVoidOne Standing.attempt
  rw [hfind]
  dsimp only
  rw [if_neg (not_not.mpr hallowed), h.applied]
  by_cases hselect : fault.map CancelFault.after = some none
  · rw [if_pos hselect, if_pos hselect]
    split
    · exact .inl ⟨rfl, rfl⟩
    · exact .inr ⟨s, st, rfl, rfl, fun _ hj => hj, h, fun j hj other hother => hother⟩
  · rw [if_neg hselect, if_neg hselect]
    generalize cancelUntil U id (fault.map CancelFault.after).join s st.applied = r at hkeep hend
    generalize release U inv (fault.map CancelFault.after).join st.applied = q at hkeep hend
    obtain ⟨s', cancelEnd⟩ := r
    obtain ⟨left, releaseEnd⟩ := q
    dsimp only at hkeep hend
    rw [hend]
    cases releaseEnd with
    | done =>
      refine .inr ⟨_, _, rfl, rfl, hkeep.covered, ?_, ?_⟩
      · exact hkeep.shows.setStatus (by rw [hinv]; rfl)
      · exact fun j hj other hother => (hkeep.apart j hj other hother).setStatus_apart hj
    | refused => exact .inr ⟨_, _, rfl, rfl, hkeep⟩
    | failed =>
      dsimp only
      split
      · exact .inl ⟨rfl, rfl⟩
      · exact .inr ⟨_, _, rfl, rfl, hkeep⟩

lemma bulkVoidOne_not_voidable (h : Shows db s id st) (hinv : voidable db id = none)
    (fault : Option CancelFault) : bulkVoidOne U s id fault = some s := by
  have hopen : st.voided = false := by
    by_contra hvoided
    have hsome := h.allowed (by simpa using hvoided)
    rw [hinv] at hsome
    cases hsome
  have hrow := h.row
  rw [hopen] at hrow
  unfold bulkVoidOne
  rw [hrow]
  cases hfind : db.invoices.find id with
  | none => rfl
  | some inv =>
    have hnot : BillingStatus.void ∉ billingTransitions inv.billingStatus := by
      intro hmem
      unfold voidable at hinv
      rw [hfind, Option.filter_some, if_pos (decide_eq_true hmem)] at hinv
      cases hinv
    exact if_pos hnot

lemma standingAfter_not_voidable (hinv : voidable db id = none) (faults : List (Option CancelFault)) :
    standingAfter U db id st faults = some st := by
  cases faults with
  | nil => rfl
  | cons fault faults =>
    rw [standingAfter]
    split
    · rfl
    · next inv hsome =>
      rw [hinv] at hsome
      cases hsome

/-- One attempt of the list, whatever the invoice. -/
lemma bulkVoidOne_shows (h : Shows db s id st) (hcover : Covered U s id) (fault : Option CancelFault)
    (faults : List (Option CancelFault)) :
    (bulkVoidOne U s id fault = none ∧ standingAfter U db id st (fault :: faults) = none) ∨
      ∃ s' st', bulkVoidOne U s id fault = some s' ∧
        standingAfter U db id st (fault :: faults) = standingAfter U db id st' faults ∧
        Attempted U db s s' id st' := by
  cases hinv : voidable db id with
  | none =>
    refine .inr ⟨s, st, bulkVoidOne_not_voidable h hinv fault, ?_, fun _ hj => hj, h, fun _ _ _ hother => hother⟩
    rw [standingAfter_not_voidable hinv, standingAfter_not_voidable hinv]
  | some inv =>
    have hstanding : standingAfter U db id st (fault :: faults) =
        (st.attempt U inv fault).bind (fun st' => standingAfter U db id st' faults) := by
      rw [standingAfter, hinv]
    rw [hstanding]
    obtain ⟨hcode, hattempt⟩ | ⟨s', st', hcode, hattempt, hattempted⟩ :=
      bulkVoidOne_spec h hcover hinv fault
    · exact .inl ⟨hcode, by rw [hattempt]; rfl⟩
    · exact .inr ⟨s', st', hcode, by rw [hattempt]; rfl, hattempted⟩

end Steps

section Runs

variable {U : UpperTable} {db s : DepositDb}

lemma faultsOf_cons (id : Nat) (fault : Option CancelFault) (attempts : List (Nat × Option CancelFault))
    (j : Nat) : faultsOf ((id, fault) :: attempts) j =
      if id = j then fault :: faultsOf attempts j else faultsOf attempts j := by
  unfold faultsOf
  by_cases h : id = j
  · rw [if_pos h, List.filter_cons_of_pos (by simpa using h)]
    rfl
  · rw [if_neg h, List.filter_cons_of_neg (by simpa using h)]

/-- In a run each invoice goes the way of its own attempts, or the transaction is lost. -/
theorem bulkVoid_shows {st : Nat → Standing} (hall : ∀ j, Shows db s j (st j))
    {attempts : List (Nat × Option CancelFault)} (hcover : ∀ p ∈ attempts, Covered U s p.1) :
    (bulkVoid U s attempts = none ∧ ∃ j, standingAfter U db j (st j) (faultsOf attempts j) = none) ∨
      ∃ s', bulkVoid U s attempts = some s' ∧
        ∀ j, ∃ st', standingAfter U db j (st j) (faultsOf attempts j) = some st' ∧ Shows db s' j st' := by
  induction attempts generalizing s st with
  | nil => exact .inr ⟨s, rfl, fun j => ⟨st j, rfl, hall j⟩⟩
  | cons attempt attempts ih =>
    obtain ⟨id, fault⟩ := attempt
    rw [bulkVoid]
    obtain ⟨hcode, hstanding⟩ | ⟨s', st', hcode, hstanding, hattempted⟩ :=
      bulkVoidOne_shows (hall id) (hcover _ List.mem_cons_self) fault (faultsOf attempts id)
    · rw [hcode]
      refine .inl ⟨rfl, id, ?_⟩
      rw [faultsOf_cons, if_pos rfl]
      exact hstanding
    · rw [hcode, Option.bind_some]
      have hall' : ∀ j, Shows db s' j (Function.update st id st' j) := by
        intro j
        by_cases hj : j = id
        · subst hj
          rw [Function.update_self]
          exact hattempted.shows
        · rw [Function.update_of_ne hj]
          exact hattempted.apart j hj _ (hall j)
      have hsame : ∀ j, standingAfter U db j (st j) (faultsOf ((id, fault) :: attempts) j) =
          standingAfter U db j (Function.update st id st' j) (faultsOf attempts j) := by
        intro j
        rw [faultsOf_cons]
        by_cases hj : id = j
        · subst hj
          rw [if_pos rfl, Function.update_self, hstanding]
        · rw [if_neg hj, Function.update_of_ne (Ne.symm hj)]
      simp only [hsame]
      exact ih hall' (fun p hp => hattempted.covered p.1 (hcover p (List.mem_cons_of_mem _ hp)))

end Runs

end IpDocket.Billing
