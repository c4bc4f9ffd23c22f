import IpDocket.Billing.DepositTransactions

/-!
# No overdraft without outdated balances

The balance is read before the `INSERT` and nothing is locked in between, so that it can be
outdated at the commit. A transaction whose balances are not outdated keeps every bucket
non-negative: with what the bucket held when the transaction last read it, its own entries
add up to something non-negative, and what others committed since then only adds to it.
-/

namespace IpDocket.Billing
open IpDocket.Lib

/-- How many entries had been committed at the last balance read of the transaction that was
followed by an entry in the bucket. -/
def checkedAt (own : List OwnEntry) (b : Bucket) : Nat :=
  ((own.filter (fun w => w.entry.bucket = b)).getLast?).elim 0 OwnEntry.seen

/-- No transaction commits a negative entry after another one has committed a negative entry
of the same bucket since the first one read the balance for its last entry there. -/
def commitsFreshBalances (s : LedgerState) : LedgerAction → Bool
  | .conn i .commit =>
    (s.conns[i]?).all (fun t =>
      t.aborted || t.own.all (fun w => w.entry.amountMinor < 0 →
        (s.committed.drop (checkedAt t.own w.entry.bucket)).all
          (fun e => e.bucket = w.entry.bucket → 0 ≤ e.amountMinor)))
  | _ => true

section Checked

variable {own : List OwnEntry} {w : OwnEntry} {b : Bucket}

lemma checkedAt_append_self : checkedAt (own ++ [w]) w.entry.bucket = w.seen := by
  simp [checkedAt, List.filter_append]

lemma checkedAt_append_of_ne (h : w.entry.bucket ≠ b) :
    checkedAt (own ++ [w]) b = checkedAt own b := by
  simp [checkedAt, List.filter_append, h]

end Checked

variable (U : UpperTable)

/-- The entries of the transaction, and the one it is about to insert, are covered by what
it has read. -/
structure TransactionOk (committed : List LedgerEntry) (t : Transaction) : Prop where
  own : ∀ w ∈ t.own, checkedAt t.own w.entry.bucket ≤ committed.length ∧
    0 ≤ bucketSum w.entry.bucket (committed.take (checkedAt t.own w.entry.bucket)) +
      bucketSum w.entry.bucket t.entries
  checked : ∀ c seen, t.phase = .balanceChecked c seen → seen ≤ committed.length ∧
    0 ≤ bucketSum (c.bucket U) (committed.take seen) + bucketSum (c.bucket U) t.entries +
      c.amountMinor

structure LedgerInvariant (s : LedgerState) : Prop where
  balances : ∀ b, 0 ≤ bucketSum b s.committed
  conns : ∀ t ∈ s.conns, TransactionOk U s.committed t

section Transactions

variable {U} {committed : List LedgerEntry} {t : Transaction}

lemma transactionOk_new : TransactionOk U committed {} := by
  constructor
  · intro w hw
    cases hw
  · intro c seen hphase
    cases hphase

/-- What was covered stays covered: the entries that were read are still there. -/
lemma TransactionOk.of_take {committed' : List LedgerEntry} (h : TransactionOk U committed t)
    (hlen : committed.length ≤ committed'.length)
    (hsum : ∀ b n, n ≤ committed.length →
      bucketSum b (committed'.take n) = bucketSum b (committed.take n)) :
    TransactionOk U committed' t := by
  constructor
  · intro w hw
    obtain ⟨hle, hnonneg⟩ := h.own w hw
    rw [hsum _ _ hle]
    exact ⟨hle.trans hlen, hnonneg⟩
  · intro c seen hphase
    obtain ⟨hle, hnonneg⟩ := h.checked c seen hphase
    rw [hsum _ _ hle]
    exact ⟨hle.trans hlen, hnonneg⟩

lemma TransactionOk.append (h : TransactionOk U committed t) (es : List LedgerEntry) :
    TransactionOk U (committed ++ es) t := by
  apply h.of_take
  · rw [List.length_append]
    omega
  · intro b n hn
    rw [List.take_append_of_le_length hn]

lemma after_eq_balanceChecked {next : CallPhase} {r : Except String Unit} {c : EntryCall}
    {seen : Nat} (h : next.after r = .balanceChecked c seen) :
    next = .balanceChecked c seen ∧ r = .ok () := by
  cases r with
  | ok u => exact ⟨h, rfl⟩
  | error text => cases h

/-- A statement of the call before the balance is read. -/
lemma TransactionOk.after (h : TransactionOk U committed t) {next phase : CallPhase}
    {r : Except String Unit} (hnext : ∀ c seen, next ≠ .balanceChecked c seen)
    (hphase : phase = next.after r) : TransactionOk U committed { t with phase := phase } := by
  refine ⟨h.own, ?_⟩
  intro c seen heq
  have hchecked := (after_eq_balanceChecked (hphase.symm.trans heq)).1
  exact absurd hchecked (hnext c seen)

/-- The check of the balance, with the rows that were visible to it. -/
lemma TransactionOk.selectBalance (h : TransactionOk U committed t) {c : EntryCall}
    {phase : CallPhase}
    (hphase : phase = (CallPhase.balanceChecked c committed.length).after
      (checkBalance c (bucketSum (c.bucket U) (visibleEntries committed t)))) :
    TransactionOk U committed { t with phase := phase } := by
  refine ⟨h.own, ?_⟩
  intro d seen heq
  obtain ⟨heq, hcheck⟩ := after_eq_balanceChecked (hphase.symm.trans heq)
  cases heq
  have hnonneg := check_eq_ok.mp hcheck
  rw [visibleEntries, bucketSum_append, decide_eq_true_eq] at hnonneg
  rw [List.take_length]
  exact ⟨Nat.le_refl _, hnonneg⟩

/-- The inserted entry is covered by the balance read for it; the entries of the other
buckets are covered as before. -/
lemma TransactionOk.insert (h : TransactionOk U committed t) {c : EntryCall} {seen id : Nat}
    (hphase : t.phase = .balanceChecked c seen) :
    TransactionOk U committed
      { t with own := t.own ++ [⟨c.toEntry U id, seen⟩], phase := .idle } := by
  obtain ⟨hle, hnonneg⟩ := h.checked c seen hphase
  refine ⟨?_, fun d n heq => by cases heq⟩
  intro w hw
  have hentries : ∀ b, bucketSum b
      ((t.own ++ [(⟨c.toEntry U id, seen⟩ : OwnEntry)]).map OwnEntry.entry) =
        bucketSum b t.entries + if c.bucket U = b then c.amountMinor else 0 := by
    intro b
    rw [List.map_append, bucketSum_append]
    exact congrArg _ (bucketSum_singleton b (c.toEntry U id))
  simp only [Transaction.entries] at hw ⊢
  rw [hentries]
  by_cases hb : c.bucket U = w.entry.bucket
  · have hseen : checkedAt (t.own ++ [⟨c.toEntry U id, seen⟩]) w.entry.bucket = seen := by
      rw [← hb]
      exact checkedAt_append_self
    rw [hseen, if_pos hb, ← hb]
    refine ⟨hle, ?_⟩
    omega
  · have hold : w ∈ t.own := by
      rcases List.mem_append.mp hw with hmem | hmem
      · exact hmem
      · rw [List.mem_singleton.mp hmem] at hb
        exact absurd rfl hb
    have hseen : checkedAt (t.own ++ [⟨c.toEntry U id, seen⟩]) w.entry.bucket =
        checkedAt t.own w.entry.bucket := checkedAt_append_of_ne hb
    rw [hseen, if_neg hb, Int.add_zero]
    exact h.own w hold

end Transactions

section Steps

variable {U} {s s' : LedgerState} {t t' : Transaction} {i : Nat}

/-- Every statement but the commit keeps the transaction covered and commits nothing. -/
lemma transactionStep_ok {a : TransactionAction} (h : TransactionOk U s.committed t)
    (ha : a ≠ .commit) (hstep : transactionStep U s t a = some (s', t')) :
    s'.committed = s.committed ∧ TransactionOk U s.committed t' := by
  cases a with
  | commit => exact absurd rfl ha
  | rollback =>
    cases hstep
    exact ⟨rfl, transactionOk_new⟩
  | call c =>
    rw [transactionStep] at hstep
    split at hstep
    · cases hstep
      refine ⟨rfl, h.after ?_ rfl⟩
      intro d seen heq
      cases heq
    · cases hstep
  | selectInvoice row =>
    rw [transactionStep] at hstep
    split at hstep
    · cases hstep
      refine ⟨rfl, h.after ?_ rfl⟩
      intro d seen heq
      cases heq
    · cases hstep
  | selectRelated =>
    rw [transactionStep] at hstep
    split at hstep
    · cases hstep
      refine ⟨rfl, h.after ?_ rfl⟩
      intro d seen heq
      cases heq
    · cases hstep
  | selectAlready =>
    rw [transactionStep] at hstep
    split at hstep
    · cases hstep
      refine ⟨rfl, h.after ?_ rfl⟩
      intro d seen heq
      cases heq
    · cases hstep
  | selectBalance =>
    rw [transactionStep] at hstep
    split at hstep
    · cases hstep
      exact ⟨rfl, h.selectBalance rfl⟩
    · cases hstep
  | insert =>
    rw [transactionStep] at hstep
    split at hstep
    · next hphase =>
      cases hstep
      exact ⟨rfl, h.insert hphase⟩
    · cases hstep
  | insertError =>
    rw [transactionStep] at hstep
    split at hstep
    · cases hstep
      exact ⟨rfl, h.own, fun c seen heq => by cases heq⟩
    · cases hstep

/-- A commit of a covered transaction keeps a bucket non-negative if nothing negative was
committed there since it was read. -/
lemma bucketSum_commit_nonneg {committed : List LedgerEntry} (h : TransactionOk U committed t)
    (hbal : ∀ b, 0 ≤ bucketSum b committed)
    (hfresh : ∀ w ∈ t.own, w.entry.amountMinor < 0 →
      ∀ e ∈ committed.drop (checkedAt t.own w.entry.bucket),
        e.bucket = w.entry.bucket → 0 ≤ e.amountMinor) (b : Bucket) :
    0 ≤ bucketSum b (committed ++ t.entries) := by
  rw [bucketSum_append]
  by_cases hneg : ∃ w ∈ t.own, w.entry.bucket = b ∧ w.entry.amountMinor < 0
  · obtain ⟨w, hw, rfl, hamount⟩ := hneg
    obtain ⟨-, hcovered⟩ := h.own w hw
    have hsince := bucketSum_nonneg (hfresh w hw hamount)
    have hsplit : bucketSum w.entry.bucket committed =
        bucketSum w.entry.bucket (committed.take (checkedAt t.own w.entry.bucket)) +
          bucketSum w.entry.bucket (committed.drop (checkedAt t.own w.entry.bucket)) := by
      rw [← bucketSum_append, List.take_append_drop]
    omega
  · have hown : 0 ≤ bucketSum b t.entries := by
      apply bucketSum_nonneg
      intro e he hb
      obtain ⟨w, hw, rfl⟩ := List.mem_map.mp he
      by_contra hlt
      exact hneg ⟨w, hw, hb, by omega⟩
    have := hbal b
    omega

/-- The ledger after transaction `i` has moved to `t'`. -/
lemma LedgerInvariant.set (hbal : ∀ b, 0 ≤ bucketSum b s'.committed)
    (hother : ∀ t ∈ s.conns, TransactionOk U s'.committed t)
    (hmoved : TransactionOk U s'.committed t') (i : Nat) :
    LedgerInvariant U { s' with conns := s.conns.set i t' } := by
  refine ⟨hbal, ?_⟩
  intro d hd
  rcases List.mem_or_eq_of_mem_set hd with hold | rfl
  · exact hother d hold
  · exact hmoved

lemma LedgerInvariant.commit (h : LedgerInvariant U s) (ht : s.conns[i]? = some t)
    (hfresh : commitsFreshBalances s (.conn i .commit) = true)
    (hstep : transactionStep U s t .commit = some (s', t')) :
    LedgerInvariant U { s' with conns := s.conns.set i t' } := by
  rw [transactionStep] at hstep
  split at hstep
  · split at hstep
    · cases hstep
      exact .set h.balances h.conns transactionOk_new i
    · next haborted =>
      cases hstep
      have hown : ∀ w ∈ t.own, w.entry.amountMinor < 0 →
          ∀ e ∈ s.committed.drop (checkedAt t.own w.entry.bucket),
            e.bucket = w.entry.bucket → 0 ≤ e.amountMinor := by
        intro w hw hneg e he hb
        simp only [commitsFreshBalances, ht, Option.all_some, haborted, Bool.false_or,
          List.all_eq_true, decide_eq_true_eq] at hfresh
        exact hfresh w hw hneg e he hb
      have htOk := h.conns t (List.mem_of_getElem? ht)
      exact .set (bucketSum_commit_nonneg htOk h.balances hown)
        (fun d hd => (h.conns d hd).append t.entries) transactionOk_new i
  · cases hstep

lemma LedgerInvariant.step (h : LedgerInvariant U s) (a : LedgerAction)
    (hfresh : commitsFreshBalances s a = true) (hstep : ledgerStep U s a = some s') :
    LedgerInvariant U s' := by
  cases a with
  | connect =>
    cases hstep
    refine ⟨h.balances, ?_⟩
    intro t ht
    rcases List.mem_append.mp ht with hold | hnew
    · exact h.conns t hold
    · rw [List.mem_singleton.mp hnew]
      exact transactionOk_new
  | detach invoiceId =>
    cases hstep
    constructor
    · intro b
      rw [bucketSum_detachInvoice]
      exact h.balances b
    · intro t ht
      apply (h.conns t ht).of_take
      · rw [List.length_map]
      · intro b n _
        rw [← List.map_take, bucketSum_detachInvoice]
  | conn i a =>
    rw [ledgerStep] at hstep
    split at hstep
    · cases hstep
    · next t ht =>
      split at hstep
      · cases hstep
      · next s₁ t₁ hs =>
        cases hstep
        by_cases ha : a = .commit
        · subst ha
          exact h.commit ht hfresh hs
        · have htOk := h.conns t (List.mem_of_getElem? ht)
          obtain ⟨hcommitted, hok⟩ := transactionStep_ok htOk ha hs
          rw [← hcommitted] at hok
          apply LedgerInvariant.set _ _ hok
          · rw [hcommitted]
            exact h.balances
          · rw [hcommitted]
            exact h.conns

end Steps

/-- In every run whose commits rely on no outdated balance, no balance is ever negative. -/
theorem deposit_balances_nonneg {as : List LedgerAction} {s : LedgerState}
    (h : GuardedRun (ledgerStep U) (fun s a => commitsFreshBalances s a = true)
      .initial as s) (b : Bucket) : 0 ≤ bucketSum b s.committed := by
  have hinv : LedgerInvariant U s := by
    apply h.invariant
    · refine ⟨fun _ => Int.le_refl 0, ?_⟩
      intro t ht
      cases ht
    · intro t a u ht hfresh hstep
      exact ht.step a hfresh hstep
  exact hinv.balances b

/-- The statements of one call, up to the `INSERT`. -/
def callActions (i : Nat) (c : EntryCall) (row : Option Invoice) : List LedgerAction :=
  [.call c, .selectInvoice row, .selectRelated, .selectAlready, .selectBalance, .insert].map
    (LedgerAction.conn i)

/-- A top-up of 100 for client 7 and business profile 1. -/
def topupActions (i : Nat) : List LedgerAction :=
  callActions i ⟨some 1, 7, "USD".toList, 100, .topup, none, none⟩ none ++ [LedgerAction.conn i .commit]

def invoiceOf (id : Nat) : Invoice :=
  ⟨id, 7, some 1, some "USD".toList, 80, .sent, .sent, .unpaid, false⟩

/-- The retainer is applied to the invoice with the amount 80. -/
def applyActions (i id : Nat) : List LedgerAction :=
  callActions i ⟨some 1, 7, "USD".toList, -80, .apply, some id, none⟩ (some (invoiceOf id))

/-- One application after the other: the second one sees the balance 20 and is aborted. -/
theorem deposit_balances_nonneg_in_turn :
    ∃ s, GuardedRun (ledgerStep asciiTable) (fun s a => commitsFreshBalances s a = true) .initial
      ([.connect, .connect] ++ topupActions 0 ++ applyActions 0 1 ++ [.conn 0 .commit] ++
        (applyActions 1 2).dropLast ++ [.conn 1 .commit]) s ∧
      bucketSum ⟨some 1, 7, "USD".toList⟩ s.committed = 20 ∧
      ∀ b, 0 ≤ bucketSum b s.committed :=
  exists_guardedRun rfl
    (fun hrun => ⟨by decide, fun b => deposit_balances_nonneg asciiTable hrun b⟩)

/-- Both transactions read the balance 100 and apply 80 of it. -/
theorem deposit_overdrawn_by_two_applications :
    ¬∀ (as : List LedgerAction) (s : LedgerState), Run (ledgerStep asciiTable) .initial as s →
      ∀ b, 0 ≤ bucketSum b s.committed := by
  intro h
  have hrun : Run (ledgerStep asciiTable) .initial
      ([.connect, .connect] ++ topupActions 0 ++ applyActions 0 1 ++ applyActions 1 2 ++
        [.conn 0 .commit, .conn 1 .commit]) _ := guardedRun_of_execute rfl
  have hnonneg := h _ _ hrun ⟨some 1, 7, "USD".toList⟩
  revert hnonneg
  decide

end IpDocket.Billing
