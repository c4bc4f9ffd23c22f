import Mathlib.Tactic.Ring
import IpDocket.Accounting.Periods
import IpDocket.Accounting.Reversals

/-!
# A reversal mirrors its original

While calls do not get into each other's way, the lines that a call has inserted and those it
still holds are together the lines of the original with debit and credit exchanged. When the
call ends, nothing is left to insert.
-/

namespace IpDocket.Accounting
open IpDocket.Lib

/-- What the lines add to an account in a currency. -/
def accountBalance (lines : List JournalLine) (accountId : Int) (currency : Option Text) : ℚ :=
  ((lines.filter (fun l => l.accountId = accountId ∧ l.currency = currency)).map
    (fun l => l.debit - l.credit)).sum

section Lines

variable {U : UpperTable} {b : Books}

lemma accountBalance_cons (l : JournalLine) (ls : List JournalLine) (accountId : Int)
    (currency : Option Text) : accountBalance (l :: ls) accountId currency =
      (if l.accountId = accountId ∧ l.currency = currency then l.debit - l.credit else 0) +
        accountBalance ls accountId currency := by
  unfold accountBalance
  by_cases h : l.accountId = accountId ∧ l.currency = currency
  · rw [List.filter_cons_of_pos (by simpa using h), if_pos h, List.map_cons, List.sum_cons]
  · rw [List.filter_cons_of_neg (by simpa using h), if_neg h, zero_add]

/-- Lines with debit and credit exchanged cancel out in every account. -/
lemma accountBalance_exchange {ls ms : List JournalLine}
    (h : ms.map JournalLine.values = ls.map (fun l => l.values.exchange)) (accountId : Int)
    (currency : Option Text) : accountBalance (ls ++ ms) accountId currency = 0 := by
  have hneg : accountBalance ms accountId currency = -accountBalance ls accountId currency := by
    induction ls generalizing ms with
    | nil =>
      rw [List.map_eq_nil_iff.mp h]
      rfl
    | cons l ls ih =>
      cases ms with
      | nil => cases h
      | cons m ms =>
        obtain ⟨hm, hms⟩ := List.cons.inj h
        have hacc : m.accountId = l.accountId := congrArg LineValues.accountId hm
        have hcur : m.currency = l.currency := congrArg LineValues.currency hm
        have hdebit : m.debit = l.credit := congrArg LineValues.debit hm
        have hcredit : m.credit = l.debit := congrArg LineValues.credit hm
        rw [accountBalance_cons, accountBalance_cons, ih hms, hacc, hcur, hdebit, hcredit]
        split <;> ring
  have happend : accountBalance (ls ++ ms) accountId currency =
      accountBalance ls accountId currency + accountBalance ms accountId currency := by
    simp [accountBalance]
  rw [happend, hneg, add_neg_cancel]

/-- What holds of the lines of the books. -/
structure LinesOk (U : UpperTable) (b : Books) : Prop where
  currency : ∀ l ∈ b.lines.rows, NormalCurrency U l.currency
  account : ∀ l ∈ b.lines.rows, (b.accounts.find l.accountId).isSome = true
  entry : ∀ l ∈ b.lines.rows, l.entryId < b.entries.next

lemma LinesOk.linesOf_eq_nil (h : LinesOk U b) {id : Nat} (hid : b.entries.next ≤ id) :
    linesOf b id = [] := by
  rw [linesOf, List.filter_eq_nil_iff]
  intro l hl heq
  have := h.entry l hl
  simp only [decide_eq_true_eq] at heq
  omega

end Lines

/-! ### What a step leaves alone -/

section Kept

variable {U : UpperTable} {b b' : Books}

def PostedEntry (b : Books) (id : Nat) : Prop := ∃ e, b.entries.find id = some e ∧ e.posted = true

/-- Posted entries stay, with their lines unless they are those of `changed`. -/
structure PostedKept (changed : Option Nat) (b b' : Books) : Prop where
  entries : ∀ id e, b.entries.find id = some e → e.posted = true →
    ∃ e', b'.entries.find id = some e' ∧ e'.posted = true ∧
      e'.reversalOfEntryId = e.reversalOfEntryId ∧ (e.reversed = true → e'.reversed = true)
  lines : ∀ id, PostedEntry b id → some id ≠ changed → linesOf b' id = linesOf b id

/-- And no reversal is added. -/
structure Kept (changed : Option Nat) (b b' : Books) : Prop extends
    PostedKept changed b b' where
  reversals : ∀ r' ∈ b'.entries.rows, ∀ id, r'.reversalOfEntryId = some id →
    ∃ r ∈ b.entries.rows, r.id = r'.id ∧ r.reversalOfEntryId = some id

lemma PostedKept.posted {changed : Option Nat} (h : PostedKept changed b b') {id : Nat}
    (hid : PostedEntry b id) : PostedEntry b' id := by
  obtain ⟨e, he, hposted⟩ := hid
  obtain ⟨e', he', hposted', -⟩ := h.entries id e he hposted
  exact ⟨e', he', hposted'⟩

lemma Kept.refl (b : Books) : Kept none b b where
  entries := fun _ e he hposted => ⟨e, he, hposted, rfl, fun h => h⟩
  lines := fun _ _ _ => rfl
  reversals := fun r hr _ hid => ⟨r, hr, rfl, hid⟩

lemma Kept.of_eq {b₁ : Books} (hentries : b₁.entries = b.entries) (hlines : b₁.lines = b.lines)
    (h : Kept none b₁ b') : Kept none b b' := by
  have hof : ∀ id, linesOf b₁ id = linesOf b id := by
    intro id
    rw [linesOf, linesOf, hlines]
  refine ⟨⟨?_, ?_⟩, ?_⟩
  · rw [← hentries]
    exact h.entries
  · intro id hid hne
    rw [← hof]
    apply h.lines id _ hne
    rw [PostedEntry, hentries]
    exact hid
  · rw [← hentries]
    exact h.reversals

lemma LinesOk.of_eq {b₁ : Books} (h : LinesOk U b) (haccounts : b₁.accounts = b.accounts)
    (hentries : b₁.entries = b.entries) (hlines : b₁.lines = b.lines) : LinesOk U b₁ := by
  constructor
  · rw [hlines]
    exact h.currency
  · rw [hlines, haccounts]
    exact h.account
  · rw [hlines, hentries]
    exact h.entry

/-- An `UPDATE` that takes no flag back. -/
lemma Kept.updateEntries {p : JournalEntry → Bool} {f : JournalEntry → JournalEntry}
    (hf : ∀ e, (f e).id = e.id) (hrev : ∀ e, (f e).reversalOfEntryId = e.reversalOfEntryId)
    (hposted : ∀ e, e.posted = true → (f e).posted = true)
    (hreversed : ∀ e, e.reversed = true → (f e).reversed = true) :
    Kept none b (updateEntries p f hf b) := by
  have hrow : ∀ e, (onRows p f e).reversalOfEntryId = e.reversalOfEntryId ∧
      (e.posted = true → (onRows p f e).posted = true) ∧
      (e.reversed = true → (onRows p f e).reversed = true) := by
    intro e
    unfold onRows
    split
    · exact ⟨hrev e, hposted e, hreversed e⟩
    · exact ⟨rfl, fun h => h, fun h => h⟩
  refine ⟨⟨?_, ?_⟩, ?_⟩
  · intro id e he hp
    refine ⟨onRows p f e, ?_, (hrow e).2.1 hp, (hrow e).1, (hrow e).2.2⟩
    rw [Accounting.updateEntries, Table.find_update, he]
    rfl
  · intro id _ _
    rfl
  · intro r' hr' id hid
    obtain ⟨r, hr, rfl⟩ := List.mem_map.mp hr'
    exact ⟨r, hr, (key_onRows hf r).symm, (hrow r).1.symm.trans hid⟩

/-- New lines of a posted entry. -/
lemma linesOf_append {lines : Table JournalLine.id} {new : List JournalLine} {k id : Nat}
    (hrows : lines.rows = b.lines.rows ++ new) (hnew : ∀ l ∈ new, l.entryId = k) (hne : id ≠ k) :
    linesOf { b with lines := lines } id = linesOf b id := by
  have hnil : new.filter (fun l => l.entryId = id) = [] := by
    rw [List.filter_eq_nil_iff]
    intro l hl heq
    rw [decide_eq_true_eq, hnew l hl] at heq
    exact hne heq.symm
  rw [linesOf, hrows, List.filter_append, hnil, List.append_nil]
  rfl

/-- A new entry that is no reversal. -/
lemma Kept.insert {e : JournalEntry} {values : List LineValues}
    (h : Inserted (fun id => { e with id := id }) (fun _ => rfl) values b b')
    (hrev : e.reversalOfEntryId = none) : Kept none b b' := by
  refine ⟨⟨?_, ?_⟩, ?_⟩
  · intro id q hq hp
    refine ⟨q, ?_, hp, rfl, fun h => h⟩
    rw [h.entries]
    exact Table.find_insert_some _ hq
  · rintro id ⟨q, hq, -⟩ _
    have hlt := Table.find_lt_next hq
    have hkept := linesOf_append h.lines (fun l hl => entryId_of_mem_numberLines hl)
      (Nat.ne_of_lt hlt)
    exact hkept
  · intro r' hr' id hid
    rw [h.entries] at hr'
    rcases List.mem_append.mp hr' with hold | hnew
    · exact ⟨r', hold, rfl, hid⟩
    · rw [List.mem_singleton.mp hnew, hrev] at hid
      cases hid

lemma Kept.delete {k : Nat} {e : JournalEntry} (he : b.entries.find k = some e)
    (hposted : e.posted = false) :
    Kept none b { b with lines := deleteLines k b.lines, entries := b.entries.delete k } := by
  have hne : ∀ id q, b.entries.find id = some q → q.posted = true → id ≠ k := by
    rintro id q hq hp rfl
    rw [he] at hq
    cases hq
    rw [hposted] at hp
    cases hp
  refine ⟨⟨?_, ?_⟩, ?_⟩
  · intro id q hq hp
    refine ⟨q, ?_, hp, rfl, fun h => h⟩
    rw [Table.find_delete_of_ne (hne id q hq hp)]
    exact hq
  · rintro id ⟨q, hq, hp⟩ _
    simp only [linesOf, deleteLines, List.filter_filter]
    apply List.filter_congr
    intro l _
    by_cases hl : l.entryId = id
    · simp [hl, hne id q hq hp]
    · simp [hl]
  · intro r hr id hid
    exact ⟨r, (List.mem_filter.mp hr).1, rfl, hid⟩

lemma LinesOk.insert {e : JournalEntry} {values : List LineValues} (hI : LinesOk U b)
    (h : Inserted (fun id => { e with id := id }) (fun _ => rfl) values b b')
    (hcur : ∀ v ∈ values, NormalCurrency U v.currency) : LinesOk U b' := by
  have hnew : ∀ {k id : Nat} {vs : List LineValues} {l : JournalLine},
      l ∈ numberLines k id vs → l.values ∈ vs := by
    intro k id vs l hl
    induction vs generalizing id with
    | nil => cases hl
    | cons v vs ih =>
      rcases List.mem_cons.mp hl with rfl | hl
      · exact List.mem_cons_self
      · exact List.mem_cons_of_mem _ (ih hl)
  have hnext : b'.entries.next = b.entries.next + 1 := by
    rw [h.entries]
    rfl
  constructor
  · intro l hl
    rw [h.lines] at hl
    rcases List.mem_append.mp hl with hold | hl
    · exact hI.currency l hold
    · exact hcur _ (hnew hl)
  · intro l hl
    rw [h.lines] at hl
    rw [h.accounts]
    rcases List.mem_append.mp hl with hold | hl
    · exact hI.account l hold
    · exact h.account _ (hnew hl)
  · intro l hl
    rw [h.lines] at hl
    rw [hnext]
    rcases List.mem_append.mp hl with hold | hl
    · exact Nat.lt_succ_of_lt (hI.entry l hold)
    · rw [entryId_of_mem_numberLines hl]
      exact Nat.lt_succ_self _

/-- The other requests on the books. -/
lemma kept_handle {r : LedgerRequest} {w : Written} (hI : LinesOk U b)
    (hr : ∀ k date today reason, r ≠ .journalReverse k date today reason)
    (h : handle U b r = .ok w) : Kept none b w.books ∧ LinesOk U w.books := by
  cases r with
  | journalNew f default today =>
    obtain ⟨e, t, done, hinserted, ht, hcur, -, -, -, -, -, hrev⟩ := journalNew_eq_ok h
    refine ⟨.insert hinserted hrev, hI.insert hinserted ?_⟩
    intro v hv
    rw [hcur v hv]
    exact normalCurrency_upper ht
  | journalApprove entryId =>
    obtain ⟨-, hb⟩ := journalApprove_eq_ok (written_eq_ok h)
    rw [hb]
    exact ⟨.updateEntries _ (fun _ => rfl) (fun _ hp => hp) (fun _ hp => hp),
      hI.currency, hI.account, hI.entry⟩
  | journalPost entryId =>
    obtain ⟨e, -, -, -, hb⟩ := journalPost_eq_ok (written_eq_ok h)
    rw [hb]
    exact ⟨.updateEntries _ (fun _ => rfl) (fun _ _ => rfl) (fun _ hp => hp),
      hI.currency, hI.account, hI.entry⟩
  | journalReverse k date today reason => exact absurd rfl (hr k date today reason)
  | journalDelete entryId =>
    obtain ⟨e, he, hposted, hb⟩ := journalDelete_eq_ok (written_eq_ok h)
    rw [hb]
    refine ⟨.delete he hposted, ?_, ?_, ?_⟩
    · intro l hl
      exact hI.currency l (List.mem_filter.mp hl).1
    · intro l hl
      exact hI.account l (List.mem_filter.mp hl).1
    · intro l hl
      exact hI.entry l (List.mem_filter.mp hl).1
  | closeAccountingPeriod f =>
    obtain ⟨p, b₁, hstored, -, -, -, -, hb⟩ := closeAccountingPeriod_eq_ok (written_eq_ok h)
    rw [hb]
    have hlines := hI.of_eq hstored.accounts hstored.entries hstored.lines
    have hkept : Kept none b₁ (lockEntries p.id p.businessProfileId p.startDate p.endDate b₁) :=
      .updateEntries _ (fun _ => rfl) (fun _ hp => hp) (fun _ hp => hp)
    exact ⟨hkept.of_eq hstored.entries hstored.lines, hlines.currency, hlines.account,
      hlines.entry⟩
  | reopenAccountingPeriod periodId =>
    rw [reopenAccountingPeriod_eq_ok (written_eq_ok h)]
    have hkept : ∀ b₁, Kept none b₁ (unlockEntries periodId b₁) := fun b₁ =>
      .updateEntries _ (fun _ => rfl) (fun _ hp => hp) (fun _ hp => hp)
    refine ⟨Kept.of_eq ?_ ?_ (hkept _), hI.currency, hI.account, hI.entry⟩
    · rfl
    · rfl

end Kept

section Calls

variable {U : UpperTable} {b b' : Books} {busy busy' : Nat → Prop} {c d : ReverseCall}
  {values : List LineValues} {newId : Nat}

/-- The lines inserted so far and those to come are the lines of the original, reversed. -/
structure WritingOk (U : UpperTable) (b : Books) (busy : Nat → Prop) (entryId newId : Nat)
    (values : List LineValues) : Prop where
  original : PostedEntry b entryId
  quiet : ¬busy entryId
  entry : ∃ r, b.entries.find newId = some r ∧ r.posted = true ∧ r.reversalOfEntryId = some entryId
  lines : (linesOf b newId).map JournalLine.values ++ values =
    (linesOf b entryId).map (JournalLine.reverse U)

/-- What a call knows; `busy` are the entries whose lines are not complete. -/
def CallOk (U : UpperTable) (b : Books) (busy : Nat → Prop) (c : ReverseCall) : Prop :=
  match c.phase with
  | .selectEntry => True
  | .selectPeriod _ => PostedEntry b c.entryId
  | .selectLines _ => PostedEntry b c.entryId
  | .insertEntry _ values => PostedEntry b c.entryId ∧ ¬busy c.entryId ∧
      values = (linesOf b c.entryId).map (JournalLine.reverse U)
  | .selectMax newId values => WritingOk U b busy c.entryId newId values
  | .insertLine newId reversalId values =>
    reversalId = newId ∧ WritingOk U b busy c.entryId newId values
  | .done => True

lemma WritingOk.kept {changed : Option Nat} {entryId : Nat}
    (h : WritingOk U b busy entryId newId values) (hkept : PostedKept changed b b')
    (hbusy : PostedEntry b entryId → busy' entryId → busy entryId)
    (hnew : some newId ≠ changed) (hentry : some entryId ≠ changed) :
    WritingOk U b' busy' entryId newId values := by
  obtain ⟨r, hr, hposted, hrev⟩ := h.entry
  obtain ⟨r', hr', hposted', hrev', -⟩ := hkept.entries newId r hr hposted
  refine ⟨hkept.posted h.original, fun hb => h.quiet (hbusy h.original hb),
    ⟨r', hr', hposted', hrev'.trans hrev⟩, ?_⟩
  rw [hkept.lines newId ⟨r, hr, hposted⟩ hnew, hkept.lines entryId h.original hentry]
  exact h.lines

/-- A call that did not move. -/
lemma CallOk.kept {changed : Option Nat} (h : CallOk U b busy c) (hkept : PostedKept changed b b')
    (hbusy : ∀ id, PostedEntry b id → busy' id → busy id)
    (hnew : ∀ id, c.phase.writing = some id → some id ≠ changed)
    (hquiet : ∀ id, ¬busy id → some id ≠ changed) : CallOk U b' busy' c := by
  unfold CallOk at h ⊢
  cases hphase : c.phase with
  | selectEntry => trivial
  | selectPeriod e =>
    rw [hphase] at h
    exact hkept.posted h
  | selectLines e =>
    rw [hphase] at h
    exact hkept.posted h
  | insertEntry e values =>
    rw [hphase] at h
    obtain ⟨hposted, hfree, hvalues⟩ := h
    refine ⟨hkept.posted hposted, fun hb => hfree (hbusy _ hposted hb), ?_⟩
    rw [hkept.lines _ hposted (hquiet _ hfree)]
    exact hvalues
  | selectMax newId values =>
    rw [hphase] at h hnew
    exact WritingOk.kept h hkept (hbusy _) (hnew newId rfl) (hquiet _ h.quiet)
  | insertLine newId reversalId values =>
    rw [hphase] at h hnew
    exact ⟨h.1, h.2.kept hkept (hbusy _) (hnew newId rfl) (hquiet _ h.2.quiet)⟩
  | done => trivial

lemma CallOk.writing (h : CallOk U b busy c) (hw : c.phase.writing = some newId) :
    ∃ values, WritingOk U b busy c.entryId newId values := by
  unfold CallOk at h
  cases hphase : c.phase with
  | selectMax id values =>
    rw [hphase] at h hw
    cases hw
    exact ⟨values, h⟩
  | insertLine id reversalId values =>
    rw [hphase] at h hw
    cases hw
    exact ⟨values, h.2⟩
  | _ =>
    rw [hphase] at hw
    cases hw

end Calls

/-! ### The invariant -/

/-- The reversal `r` of the entry `id` is complete. -/
structure Complete (U : UpperTable) (s : ReversalState) (r : JournalEntry) (id : Nat) : Prop where
  reversed : ∃ o, s.books.entries.find id = some o ∧ o.reversed = true
  written : ¬s.beingWritten r.id
  quiet : ¬s.beingWritten id
  lines : (linesOf s.books r.id).map JournalLine.values =
    (linesOf s.books id).map (JournalLine.reverse U)

structure ReversalInvariant (U : UpperTable) (s : ReversalState) : Prop where
  lines : LinesOk U s.books
  original : ∀ r ∈ s.books.entries.rows, ∀ id, r.reversalOfEntryId = some id →
    r.posted = true ∧ PostedEntry s.books id
  status : ∀ r ∈ s.books.entries.rows, ∀ id, r.reversalOfEntryId = some id →
    Complete U s r id ∨ ∃ c ∈ s.calls, c.entryId = id ∧ c.phase.writing = some r.id
  once : ∀ r ∈ s.books.entries.rows, ∀ q ∈ s.books.entries.rows, ∀ id,
    r.reversalOfEntryId = some id → q.reversalOfEntryId = some id → r = q
  calls : ∀ c ∈ s.calls, CallOk U s.books s.beingWritten c
  apart : ∀ (i j : Nat) c d, s.calls[i]? = some c → s.calls[j]? = some d → i ≠ j →
    c.phase.writing.isSome = true → d.phase.writing.isSome = true → c.entryId ≠ d.entryId

section Steps

variable {U : UpperTable} {s : ReversalState} {b : Books} {calls : List ReverseCall}
  {changed : Option Nat}

lemma Complete.kept {r r' : JournalEntry} {id : Nat} (h : Complete U s r id)
    (hkept : PostedKept changed s.books b) (hr : PostedEntry s.books r.id)
    (hid : PostedEntry s.books id) (hrid : r'.id = r.id)
    (hbusy : ∀ k, PostedEntry s.books k → (⟨b, calls⟩ : ReversalState).beingWritten k →
      s.beingWritten k)
    (hchanged : ∀ k, changed = some k → s.beingWritten k) : Complete U ⟨b, calls⟩ r' id := by
  have hne : ∀ k, ¬s.beingWritten k → some k ≠ changed := by
    intro k hk heq
    exact hk (hchanged k heq.symm)
  refine ⟨?_, ?_, fun hb => h.quiet (hbusy id hid hb), ?_⟩
  · obtain ⟨o, ho, hposted⟩ := hid
    obtain ⟨q, hq, hreversed⟩ := h.reversed
    obtain ⟨o', ho', -, -, hmono⟩ := hkept.entries id o ho hposted
    rw [ho] at hq
    cases hq
    exact ⟨o', ho', hmono hreversed⟩
  · rw [hrid]
    exact fun hb => h.written (hbusy r.id hr hb)
  · simp only [hrid]
    rw [hkept.lines r.id hr (hne _ h.written), hkept.lines id hid (hne _ h.quiet)]
    exact h.lines

/-- A step that inserts no entry. -/
lemma ReversalInvariant.kept (h : ReversalInvariant U s) (hkept : Kept changed s.books b)
    (hlines : LinesOk U b) (hchanged : ∀ id, changed = some id → s.beingWritten id)
    (hbusy : ∀ id, (⟨b, calls⟩ : ReversalState).beingWritten id → s.beingWritten id)
    (hstill : ∀ c ∈ s.calls, ∀ r ∈ b.entries.rows, c.phase.writing = some r.id →
      r.reversalOfEntryId = some c.entryId → Complete U ⟨b, calls⟩ r c.entryId ∨
        ∃ d ∈ calls, d.entryId = c.entryId ∧ d.phase.writing = some r.id)
    (hcalls : ∀ c ∈ calls, CallOk U b (⟨b, calls⟩ : ReversalState).beingWritten c)
    (hapart : ∀ (i j : Nat) c d, calls[i]? = some c → calls[j]? = some d → i ≠ j →
      c.phase.writing.isSome = true → d.phase.writing.isSome = true → c.entryId ≠ d.entryId) :
    ReversalInvariant U ⟨b, calls⟩ := by
  have hposted : ∀ r ∈ s.books.entries.rows, ∀ id, r.reversalOfEntryId = some id →
      PostedEntry s.books r.id := by
    intro r hr id hid
    exact ⟨r, Table.find_of_mem hr, (h.original r hr id hid).1⟩
  refine ⟨hlines, ?_, ?_, ?_, hcalls, hapart⟩
  · intro r' hr' id hid
    obtain ⟨r, hr, hrid, hrev⟩ := hkept.reversals r' hr' id hid
    obtain ⟨e, he, hp, -⟩ := hkept.entries r.id r (Table.find_of_mem hr) (h.original r hr id hrev).1
    rw [hrid, Table.find_of_mem hr'] at he
    cases he
    exact ⟨hp, hkept.posted (h.original r hr id hrev).2⟩
  · intro r' hr' id hid
    obtain ⟨r, hr, hrid, hrev⟩ := hkept.reversals r' hr' id hid
    rcases h.status r hr id hrev with hcomplete | ⟨c, hc, rfl, hw⟩
    · exact .inl (hcomplete.kept hkept.toPostedKept (hposted r hr id hrev)
        (h.original r hr id hrev).2 hrid.symm (fun k _ => hbusy k) hchanged)
    · rw [hrid] at hw
      exact hstill c hc r' hr' hw hid
  · intro r' hr' q' hq' id hr hq
    obtain ⟨r, hrmem, hrid, hrrev⟩ := hkept.reversals r' hr' id hr
    obtain ⟨q, hqmem, hqid, hqrev⟩ := hkept.reversals q' hq' id hq
    have heq := h.once r hrmem q hqmem id hrrev hqrev
    apply Table.eq_of_key_eq hr' hq'
    rw [← hrid, ← hqid, heq]

/-- Two calls write different entries. -/
lemma ReversalInvariant.writing_ne (h : ReversalInvariant U s) {i j : Nat} {c d : ReverseCall}
    (hc : s.calls[i]? = some c) (hd : s.calls[j]? = some d) (hij : i ≠ j) {m n : Nat}
    (hcw : c.phase.writing = some m) (hdw : d.phase.writing = some n) : m ≠ n := by
  rintro rfl
  obtain ⟨_, hcok⟩ := (h.calls c (List.mem_of_getElem? hc)).writing hcw
  obtain ⟨_, hdok⟩ := (h.calls d (List.mem_of_getElem? hd)).writing hdw
  obtain ⟨r, hr, -, hrev⟩ := hcok.entry
  obtain ⟨q, hq, -, hqrev⟩ := hdok.entry
  rw [hr] at hq
  cases hq
  rw [hrev] at hqrev
  refine h.apart i j c d hc hd hij ?_ ?_ (Option.some.inj hqrev)
  · rw [hcw]
    rfl
  · rw [hdw]
    rfl

/-- Call `i` moves to `c'`, and may change the lines of the entry it writes. -/
lemma ReversalInvariant.move (h : ReversalInvariant U s) {i : Nat} {c c' : ReverseCall}
    (hc : s.calls[i]? = some c) (hentry : c'.entryId = c.entryId)
    (hkept : Kept changed s.books b) (hlines : LinesOk U b)
    (hchanged : ∀ id, changed = some id → c.phase.writing = some id)
    (hwriting : ∀ id, c'.phase.writing = some id → c.phase.writing = some id)
    (hown : CallOk U b (⟨b, s.calls.set i c'⟩ : ReversalState).beingWritten c')
    (hfinish : ∀ r ∈ b.entries.rows, c.phase.writing = some r.id →
      r.reversalOfEntryId = some c.entryId → Complete U ⟨b, s.calls.set i c'⟩ r c.entryId ∨
        c'.phase.writing = some r.id) :
    ReversalInvariant U ⟨b, s.calls.set i c'⟩ := by
  have hmem := List.mem_of_getElem? hc
  have hbusy : ∀ id, (⟨b, s.calls.set i c'⟩ : ReversalState).beingWritten id →
      s.beingWritten id := by
    rintro id ⟨d, hd, hw⟩
    rcases List.mem_or_eq_of_mem_set hd with hold | rfl
    · exact ⟨d, hold, hw⟩
    · exact ⟨c, hmem, hwriting id hw⟩
  have hchanged' : ∀ id, changed = some id → s.beingWritten id :=
    fun id hid => ⟨c, hmem, hchanged id hid⟩
  have hset : (s.calls.set i c')[i]? = some c' :=
    List.getElem?_set_self (List.getElem?_eq_some_iff.mp hc).1
  apply h.kept hkept hlines hchanged' hbusy
  · intro d hd r hr hw hrev
    obtain ⟨j, hj⟩ := List.mem_iff_getElem?.mp hd
    by_cases hij : j = i
    · subst hij
      rw [hc] at hj
      cases hj
      rcases hfinish r hr hw hrev with hcomplete | hw'
      · exact .inl hcomplete
      · exact .inr ⟨c', List.mem_of_getElem? hset, hentry, hw'⟩
    · refine .inr ⟨d, ?_, rfl, hw⟩
      have hj' : (s.calls.set i c')[j]? = some d :=
        (List.getElem?_set_ne (Ne.symm hij)).trans hj
      exact List.mem_of_getElem? hj'
  · refine (forall_mem_set hc).mpr ⟨hown, ?_⟩
    intro j d hij hd
    apply (h.calls d (List.mem_of_getElem? hd)).kept hkept.toPostedKept (fun id _ => hbusy id)
    · intro id hw heq
      exact h.writing_ne hd hc hij hw (hchanged id heq.symm) rfl
    · intro id hfree heq
      exact hfree (hchanged' id heq.symm)
  · intro j k d e hd he hjk hdw hew
    have hown_writing : c'.phase.writing.isSome = true → c.phase.writing.isSome = true := by
      intro hsome
      obtain ⟨id, hid⟩ := Option.isSome_iff_exists.mp hsome
      rw [hwriting id hid]
      rfl
    rcases getElem?_set_cases hd with ⟨rfl, rfl⟩ | ⟨-, hd'⟩
    · rcases getElem?_set_cases he with ⟨rfl, rfl⟩ | ⟨-, he'⟩
      · exact absurd rfl hjk
      · rw [hentry]
        exact h.apart j k c e hc he' hjk (hown_writing hdw) hew
    · rcases getElem?_set_cases he with ⟨rfl, rfl⟩ | ⟨-, he'⟩
      · rw [hentry]
        exact h.apart j k d c hd' hc hjk hdw (hown_writing hew)
      · exact h.apart j k d e hd' he' hjk hdw hew

/-- Call `i` inserts the entry of its reversal. -/
lemma ReversalInvariant.insertEntry (h : ReversalInvariant U s) {i : Nat} {c : ReverseCall}
    {e : JournalEntry} {values : List LineValues} (hc : s.calls[i]? = some c)
    (hphase : c.phase = .insertEntry e values)
    (hopen : ∀ o, s.books.entries.find c.entryId = some o → o.reversed = false)
    (halone : ¬s.beingReversed c.entryId) :
    ReversalInvariant U
      ⟨{ s.books with
          entries := s.books.entries.insert (reversalEntry c e) (id_reversalEntry c e) },
        s.calls.set i { c with phase := .selectMax s.books.entries.next values }⟩ := by
  set b : Books := { s.books with
    entries := s.books.entries.insert (reversalEntry c e) (id_reversalEntry c e) } with hb
  set c' : ReverseCall := { c with phase := .selectMax s.books.entries.next values } with hc'
  have hrows : b.entries.rows =
      s.books.entries.rows ++ [reversalEntry c e s.books.entries.next] := rfl
  have hkept : PostedKept none s.books b := by
    refine ⟨?_, fun _ _ _ => rfl⟩
    intro id q hq hp
    exact ⟨q, Table.find_insert_some (id_reversalEntry c e) hq, hp, rfl, fun h => h⟩
  have hlt : ∀ id, PostedEntry s.books id → id < s.books.entries.next := by
    rintro id ⟨q, hq, -⟩
    exact Table.find_lt_next hq
  have hbusy : ∀ id, PostedEntry s.books id →
      (⟨b, s.calls.set i c'⟩ : ReversalState).beingWritten id → s.beingWritten id := by
    rintro id hid ⟨d, hd, hw⟩
    rcases List.mem_or_eq_of_mem_set hd with hold | rfl
    · exact ⟨d, hold, hw⟩
    · have hnext : s.books.entries.next = id := Option.some.inj hw
      have := hlt id hid
      omega
  have hset : (s.calls.set i c')[i]? = some c' :=
    List.getElem?_set_self (List.getElem?_eq_some_iff.mp hc).1
  have hposted : ∀ r ∈ s.books.entries.rows, ∀ id, r.reversalOfEntryId = some id →
      PostedEntry s.books r.id := by
    intro r hr id hid
    exact ⟨r, Table.find_of_mem hr, (h.original r hr id hid).1⟩
  -- nothing has reversed the original yet
  have hnone : ∀ r ∈ s.books.entries.rows, r.reversalOfEntryId ≠ some c.entryId := by
    intro r hr hrev
    rcases h.status r hr c.entryId hrev with hcomplete | ⟨d, hd, hid, hw⟩
    · obtain ⟨o, ho, hreversed⟩ := hcomplete.reversed
      rw [hopen o ho] at hreversed
      cases hreversed
    · exact halone ⟨d, hd, hid, by rw [hw]; rfl⟩
  have hown := h.calls c (List.mem_of_getElem? hc)
  simp only [CallOk, hphase] at hown
  obtain ⟨horiginal, hfree, hvalues⟩ := hown
  refine ⟨⟨h.lines.currency, h.lines.account, ?_⟩, ?_, ?_, ?_, ?_, ?_⟩
  · intro l hl
    exact Nat.lt_succ_of_lt (h.lines.entry l hl)
  · intro r hr id hid
    rcases List.mem_append.mp (hrows ▸ hr) with hold | hnew
    · exact ⟨(h.original r hold id hid).1, hkept.posted (h.original r hold id hid).2⟩
    · rw [List.mem_singleton.mp hnew] at hid ⊢
      cases hid
      exact ⟨rfl, hkept.posted horiginal⟩
  · intro r hr id hid
    rcases List.mem_append.mp (hrows ▸ hr) with hold | hnew
    · rcases h.status r hold id hid with hcomplete | ⟨d, hd, hdid, hw⟩
      · exact .inl (hcomplete.kept hkept (hposted r hold id hid) (h.original r hold id hid).2 rfl
          hbusy (fun k hk => by cases hk))
      · obtain ⟨j, hj⟩ := List.mem_iff_getElem?.mp hd
        have hij : j ≠ i := by
          rintro rfl
          rw [hc] at hj
          cases hj
          rw [hphase] at hw
          cases hw
        have hj' : (s.calls.set i c')[j]? = some d :=
          (List.getElem?_set_ne (Ne.symm hij)).trans hj
        exact .inr ⟨d, List.mem_of_getElem? hj', hdid, hw⟩
    · rw [List.mem_singleton.mp hnew] at hid ⊢
      cases hid
      exact .inr ⟨c', List.mem_of_getElem? hset, rfl, rfl⟩
  · intro r hr q hq id hrid hqid
    rcases List.mem_append.mp (hrows ▸ hr) with hrold | hrnew
    · rcases List.mem_append.mp (hrows ▸ hq) with hqold | hqnew
      · exact h.once r hrold q hqold id hrid hqid
      · rw [List.mem_singleton.mp hqnew] at hqid
        cases hqid
        exact absurd hrid (hnone r hrold)
    · rw [List.mem_singleton.mp hrnew] at hrid ⊢
      cases hrid
      rcases List.mem_append.mp (hrows ▸ hq) with hqold | hqnew
      · exact absurd hqid (hnone q hqold)
      · rw [List.mem_singleton.mp hqnew]
  · refine (forall_mem_set hc).mpr ⟨?_, ?_⟩
    · refine ⟨hkept.posted horiginal, fun hw => hfree (hbusy _ horiginal hw),
        ⟨_, Table.find_insert_next (id_reversalEntry c e), rfl, rfl⟩, ?_⟩
      have hnil : linesOf b s.books.entries.next = [] := h.lines.linesOf_eq_nil (Nat.le_refl _)
      rw [hnil]
      exact hvalues
    · intro j d _ hd
      exact (h.calls d (List.mem_of_getElem? hd)).kept hkept hbusy (fun _ _ hne => by cases hne)
        (fun _ _ hne => by cases hne)
  · intro j k d q hd hq hjk hdw hqw heq
    rcases getElem?_set_cases hd with ⟨rfl, rfl⟩ | ⟨-, hd'⟩
    · rcases getElem?_set_cases hq with ⟨rfl, rfl⟩ | ⟨-, hq'⟩
      · exact hjk rfl
      · exact halone ⟨q, List.mem_of_getElem? hq', heq.symm, hqw⟩
    · rcases getElem?_set_cases hq with ⟨rfl, rfl⟩ | ⟨-, hq'⟩
      · exact halone ⟨d, List.mem_of_getElem? hd', heq, hdw⟩
      · exact h.apart j k d q hd' hq' hjk hdw hqw heq

/-- A statement that changes nothing in the books. -/
lemma ReversalInvariant.phase (h : ReversalInvariant U s) {i : Nat} {c : ReverseCall}
    (hc : s.calls[i]? = some c) {phase : ReversePhase} (hsame : phase.writing = c.phase.writing)
    (hown : CallOk U s.books s.beingWritten { c with phase := phase }) :
    ReversalInvariant U ⟨s.books, s.calls.set i { c with phase := phase }⟩ := by
  have hbusy : ∀ id, (⟨s.books, s.calls.set i { c with phase := phase }⟩ :
      ReversalState).beingWritten id → s.beingWritten id := by
    rintro id ⟨d, hd, hw⟩
    rcases List.mem_or_eq_of_mem_set hd with hold | rfl
    · exact ⟨d, hold, hw⟩
    · exact ⟨c, List.mem_of_getElem? hc, hsame.symm.trans hw⟩
  refine h.move hc rfl (.refl _) h.lines (fun _ hid => by cases hid) ?_ ?_ ?_
  · intro id hw
    exact hsame.symm.trans hw
  · exact hown.kept (Kept.refl _).toPostedKept (fun id _ => hbusy id) (fun _ _ hne => by cases hne)
      (fun _ _ hne => by cases hne)
  · intro r _ hw _
    exact .inr (hsame.trans hw)

/-- Call `i` inserts a line of its reversal. -/
lemma ReversalInvariant.insertLine (h : ReversalInvariant U s) {i : Nat} {c : ReverseCall}
    {newId : Nat} {v : LineValues} {values : List LineValues} (hc : s.calls[i]? = some c)
    (hphase : c.phase = .insertLine newId newId (v :: values)) :
    (s.books.accounts.find v.accountId).isSome = true ∧
      (s.books.entries.find newId).isSome = true ∧
      ReversalInvariant U
        ⟨{ s.books with lines := s.books.lines.insert (v.line newId) (id_line v newId) },
          s.calls.set i { c with phase := .insertLine newId newId values }⟩ := by
  have hown := h.calls c (List.mem_of_getElem? hc)
  simp only [CallOk, hphase] at hown
  obtain ⟨-, hwriting⟩ := hown
  obtain ⟨r, hr, hposted, hrev⟩ := hwriting.entry
  -- the line is that of the original, whose account exists
  have hv : ∃ l ∈ linesOf s.books c.entryId, l.reverse U = v := by
    have hmem : v ∈ (linesOf s.books c.entryId).map (JournalLine.reverse U) := by
      rw [← hwriting.lines]
      exact List.mem_append_right _ List.mem_cons_self
    exact List.mem_map.mp hmem
  obtain ⟨l, hl, rfl⟩ := hv
  have haccount : (s.books.accounts.find (l.reverse U).accountId).isSome = true :=
    h.lines.account l (List.mem_filter.mp hl).1
  have hne : c.entryId ≠ newId := by
    intro heq
    exact hwriting.quiet ⟨c, List.mem_of_getElem? hc, by rw [hphase, heq]; rfl⟩
  refine ⟨haccount, by rw [hr]; rfl, ?_⟩
  set b : Books := { s.books with
    lines := s.books.lines.insert ((l.reverse U).line newId) (id_line (l.reverse U) newId) } with hb
  have hrows : b.lines.rows =
      s.books.lines.rows ++ [(l.reverse U).line newId s.books.lines.next] := rfl
  have hothers : ∀ id, id ≠ newId → linesOf b id = linesOf s.books id := by
    intro id hid
    exact linesOf_append hrows (fun m hm => by rw [List.mem_singleton.mp hm]; rfl) hid
  have hkept : Kept (some newId) s.books b := by
    refine ⟨⟨(Kept.refl _).entries, ?_⟩, (Kept.refl _).reversals⟩
    intro id _ hid
    exact hothers id (fun heq => hid (congrArg some heq))
  have hlines : LinesOk U b := by
    have hnew : ∀ m ∈ b.lines.rows, m ∈ s.books.lines.rows ∨
        m = (l.reverse U).line newId s.books.lines.next := by
      intro m hm
      rcases List.mem_append.mp (hrows ▸ hm) with hold | hm
      · exact .inl hold
      · exact .inr (List.mem_singleton.mp hm)
    refine ⟨?_, ?_, ?_⟩
    · intro m hm
      rcases hnew m hm with hold | rfl
      · exact h.lines.currency m hold
      · exact normalCurrency_reverse l
    · intro m hm
      rcases hnew m hm with hold | rfl
      · exact h.lines.account m hold
      · exact haccount
    · intro m hm
      rcases hnew m hm with hold | rfl
      · exact h.lines.entry m hold
      · exact Table.find_lt_next hr
  have hbusy : ∀ id, (⟨b, s.calls.set i { c with phase := .insertLine newId newId values }⟩ :
      ReversalState).beingWritten id → s.beingWritten id := by
    rintro id ⟨d, hd, hw⟩
    rcases List.mem_or_eq_of_mem_set hd with hold | rfl
    · exact ⟨d, hold, hw⟩
    · exact ⟨c, List.mem_of_getElem? hc, by rw [hphase]; exact hw⟩
  refine h.move hc rfl hkept hlines ?_ ?_ ?_ ?_
  · intro id hid
    rw [hphase]
    exact hid
  · intro id hw
    rw [hphase]
    exact hw
  · refine ⟨rfl, hwriting.original, fun hw => hwriting.quiet (hbusy _ hw), ⟨r, hr, hposted, hrev⟩, ?_⟩
    have hmine : linesOf b newId =
        linesOf s.books newId ++ [(l.reverse U).line newId s.books.lines.next] := by
      rw [linesOf, hrows, List.filter_append, List.filter_singleton]
      simp [linesOf, LineValues.line]
    rw [hothers _ hne, hmine, ← hwriting.lines, List.map_append, List.append_assoc]
    rfl
  · intro q _ hw _
    rw [hphase] at hw
    exact .inr hw

/-- Call `i` marks the original, when no lines are left. -/
lemma ReversalInvariant.markReversed (h : ReversalInvariant U s) {i : Nat} {c : ReverseCall}
    {newId : Nat} (hc : s.calls[i]? = some c) (hphase : c.phase = .insertLine newId newId []) :
    ReversalInvariant U
      ⟨updateEntries (fun q => q.id = c.entryId) (markReversed newId) (id_markReversed newId) s.books,
        s.calls.set i { c with phase := .done }⟩ := by
  have hown := h.calls c (List.mem_of_getElem? hc)
  simp only [CallOk, hphase] at hown
  obtain ⟨-, hwriting⟩ := hown
  have hw : c.phase.writing = some newId := by rw [hphase]; rfl
  set b := updateEntries (fun q => q.id = c.entryId) (Accounting.markReversed newId)
    (id_markReversed newId) s.books with hb
  have hkept : Kept none s.books b :=
    .updateEntries _ (fun _ => rfl) (fun _ hp => hp) (fun _ _ => rfl)
  have hidle : ∀ id, (⟨b, s.calls.set i { c with phase := .done }⟩ :
      ReversalState).beingWritten id → s.beingWritten id ∧ id ≠ newId := by
    rintro id ⟨d, hd, hdw⟩
    obtain ⟨j, hj⟩ := List.mem_iff_getElem?.mp hd
    rcases getElem?_set_cases hj with ⟨-, rfl⟩ | ⟨hij, hj⟩
    · cases hdw
    · exact ⟨⟨d, List.mem_of_getElem? hj, hdw⟩, h.writing_ne hj hc hij hdw hw⟩
  refine h.move hc rfl hkept ⟨h.lines.currency, h.lines.account, h.lines.entry⟩
    (fun _ hid => by cases hid) ?_ ?_ ?_
  · intro id hid
    cases hid
  · trivial
  · intro r _ hrw _
    rw [hw] at hrw
    have hrid : r.id = newId := (Option.some.inj hrw).symm
    refine .inl ⟨?_, ?_, fun hb => hwriting.quiet (hidle _ hb).1, ?_⟩
    · obtain ⟨o, ho, -⟩ := hwriting.original
      have hfind : b.entries.find c.entryId =
          (s.books.entries.find c.entryId).map (Accounting.markReversed newId) :=
        (find_updateEntries (id_markReversed newId) s.books).trans (if_pos rfl)
      rw [ho] at hfind
      exact ⟨Accounting.markReversed newId o, hfind, rfl⟩
    · rw [hrid]
      exact fun hb => (hidle _ hb).2 rfl
    · rw [hrid]
      have hlines := hwriting.lines
      rw [List.append_nil] at hlines
      exact hlines

lemma ReversalInvariant.next (h : ReversalInvariant U s) {i : Nat} {c : ReverseCall}
    (hc : s.calls[i]? = some c) (halone : reversesAlone s (.next i) = true) :
    ReversalInvariant U ⟨(reverseNext U s.books c).1,
      s.calls.set i { c with phase := (reverseNext U s.books c).2 }⟩ := by
  have hown := h.calls c (List.mem_of_getElem? hc)
  simp only [reversesAlone, hc, Option.all_some] at halone
  unfold CallOk at hown
  cases hphase : c.phase with
  | selectEntry =>
    have hnone : none = c.phase.writing := by rw [hphase]; rfl
    simp only [reverseNext, hphase]
    split
    · exact h.phase hc hnone trivial
    · next e he =>
      split
      · next hstatus => exact h.phase hc hnone ⟨e, he, posted_of_status hstatus⟩
      · exact h.phase hc hnone trivial
  | selectPeriod e =>
    have hnone : none = c.phase.writing := by rw [hphase]; rfl
    rw [hphase] at hown
    simp only [reverseNext, hphase]
    split
    · exact h.phase hc hnone trivial
    · exact h.phase hc hnone hown
  | selectLines e =>
    have hnone : none = c.phase.writing := by rw [hphase]; rfl
    simp only [hphase, decide_eq_true_eq] at halone
    rw [hphase] at hown
    simp only [reverseNext, hphase]
    split
    · exact h.phase hc hnone trivial
    · exact h.phase hc hnone ⟨hown, halone, rfl⟩
  | insertEntry e values =>
    have hnone : none = c.phase.writing := by rw [hphase]; rfl
    simp only [hphase, decide_eq_true_eq] at halone
    obtain ⟨hopen, hfree⟩ := halone
    simp only [reverseNext, hphase]
    split
    · apply h.insertEntry hc hphase _ hfree
      intro o ho
      rw [ho, Option.all_some, decide_eq_true_eq] at hopen
      exact hopen
    · exact h.phase hc hnone trivial
  | selectMax newId values =>
    simp only [hphase, decide_eq_true_eq] at halone
    rw [hphase] at hown
    simp only [reverseNext, hphase, halone]
    exact h.phase hc (by rw [hphase]; rfl) ⟨rfl, hown⟩
  | insertLine newId reversalId values =>
    rw [hphase] at hown
    obtain ⟨rfl, hwriting⟩ := hown
    cases values with
    | nil =>
      simp only [reverseNext, hphase]
      exact h.markReversed hc hphase
    | cons v values =>
      obtain ⟨haccount, hentry, hinv⟩ := h.insertLine hc hphase
      simp only [reverseNext, hphase, haccount, hentry, and_self, if_true]
      exact hinv
  | done =>
    have hnone : none = c.phase.writing := by rw [hphase]; rfl
    simp only [reverseNext, hphase]
    exact h.phase hc hnone trivial

lemma ReversalInvariant.step (h : ReversalInvariant U s) {s' : ReversalState}
    (a : ReversalAction) (halone : reversesAlone s a = true)
    (hstep : reversalStep U s a = some s') : ReversalInvariant U s' := by
  cases a with
  | reverse entryId date today reason =>
    cases hstep
    have hbusy : ∀ id, (⟨s.books, s.calls ++ [⟨entryId, date, today, reason, .selectEntry⟩]⟩ :
        ReversalState).beingWritten id → s.beingWritten id := by
      rintro id ⟨d, hd, hw⟩
      rcases List.mem_append.mp hd with hold | hnew
      · exact ⟨d, hold, hw⟩
      · rw [List.mem_singleton.mp hnew] at hw
        cases hw
    refine h.kept (.refl _) h.lines (fun _ hid => by cases hid) hbusy ?_ ?_ ?_
    · intro c hc r _ hw _
      exact .inr ⟨c, List.mem_append_left _ hc, rfl, hw⟩
    · intro c hc
      rcases List.mem_append.mp hc with hold | hnew
      · exact (h.calls c hold).kept (Kept.refl _).toPostedKept (fun id _ => hbusy id)
          (fun _ _ hne => by cases hne) (fun _ _ hne => by cases hne)
      · rw [List.mem_singleton.mp hnew]
        trivial
    · intro i j c d hc hd hij hcw hdw
      rcases getElem?_concat_cases hc with ⟨-, rfl⟩ | hc'
      · cases hcw
      · rcases getElem?_concat_cases hd with ⟨-, rfl⟩ | hd'
        · cases hdw
        · exact h.apart i j c d hc' hd' hij hcw hdw
  | next i =>
    rw [reversalStep] at hstep
    split at hstep
    · cases hstep
    · next c hc =>
      cases hstep
      exact h.next hc halone
  | fail i =>
    rw [reversalStep] at hstep
    split at hstep
    · cases hstep
    · next c hc =>
      cases hstep
      simp only [reversesAlone, hc, Option.all_some, decide_eq_true_eq] at halone
      exact h.phase hc halone.symm trivial
  | request r =>
    have hr : ∀ k date today reason, r ≠ .journalReverse k date today reason := by
      rintro k date today reason rfl
      cases hstep
    have hmap : (ledgerStep U s.books r).map (fun b => { s with books := b }) = some s' := by
      cases r with
      | journalReverse k date today reason => exact absurd rfl (hr k date today reason)
      | _ => exact hstep
    obtain ⟨b, hb, rfl⟩ := Option.map_eq_some_iff.mp hmap
    obtain ⟨w, hw, rfl⟩ := ledgerStep_eq_some.mp hb
    obtain ⟨hkept, hlines⟩ := kept_handle h.lines hr hw
    refine h.kept hkept hlines (fun _ hid => by cases hid) (fun _ hid => hid) ?_ ?_ h.apart
    · intro c hc r _ hw _
      exact .inr ⟨c, hc, rfl, hw⟩
    · intro c hc
      exact (h.calls c hc).kept hkept.toPostedKept (fun _ _ hb => hb)
        (fun _ _ hne => by cases hne) (fun _ _ hne => by cases hne)

end Steps

/-- In every run in which calls do not get into each other's way, an entry has one reversal
at most, and a reversal that no call is writing has the lines of its original with debit and
credit exchanged; together they add nothing to any account. -/
theorem reversal_mirrors_original {U : UpperTable} (profiles : Keyed BusinessProfile.id)
    (accounts : Keyed Account.id) {as : List ReversalAction} {s : ReversalState}
    (h : GuardedRun (reversalStep U) (fun s a => reversesAlone s a = true)
      (.fresh profiles accounts) as s) :
    (∀ r ∈ s.books.entries.rows, ∀ q ∈ s.books.entries.rows, ∀ id,
      r.reversalOfEntryId = some id → q.reversalOfEntryId = some id → r = q) ∧
    ∀ r ∈ s.books.entries.rows, ∀ id, r.reversalOfEntryId = some id → ¬s.beingWritten r.id →
      (∃ o, s.books.entries.find id = some o ∧ o.posted = true) ∧
      (linesOf s.books r.id).map JournalLine.values =
        (linesOf s.books id).map (fun l => l.values.exchange) ∧
      ∀ accountId currency,
        accountBalance (linesOf s.books id ++ linesOf s.books r.id) accountId currency = 0 := by
  have hinv : ReversalInvariant U s := by
    apply h.invariant
    · constructor <;> simp [ReversalState.fresh, Books.fresh, Table.empty]
      exact ⟨by simp, by simp, by simp⟩
    · intro t a u ht halone hstep
      exact ht.step a halone hstep
  refine ⟨hinv.once, ?_⟩
  intro r hr id hid hfree
  have hcomplete : Complete U s r id := by
    rcases hinv.status r hr id hid with hcomplete | ⟨c, hc, -, hw⟩
    · exact hcomplete
    · exact absurd ⟨c, hc, hw⟩ hfree
  have hlines : (linesOf s.books r.id).map JournalLine.values =
      (linesOf s.books id).map (fun l => l.values.exchange) := by
    rw [hcomplete.lines]
    apply List.map_congr_left
    intro l hl
    exact reverse_eq_exchange (hinv.lines.currency l (List.mem_filter.mp hl).1)
  exact ⟨(hinv.original r hr id hid).2, hlines,
    fun accountId currency => accountBalance_exchange hlines accountId currency⟩

/-- A sale of 100 that is posted. -/
def postedSale : List ReversalAction :=
  [.request (.journalNew (saleForm 10 100 100) none 10), .request (.journalApprove 1),
    .request (.journalPost 1)]

def reverseSale : ReversalAction := .reverse 1 none 40 []

/-- The next statements of a call. -/
def nextStatements (i n : Nat) : List ReversalAction := List.replicate n (.next i)

theorem reversal_mirrors_original_sale :
    ∃ s, GuardedRun (reversalStep asciiTable) (fun s a => reversesAlone s a = true)
        (.fresh oneProfile cashAndRevenue) (postedSale ++ [reverseSale] ++ nextStatements 0 8) s ∧
      ∃ r ∈ s.books.entries.rows, r.reversalOfEntryId = some 1 ∧
        (linesOf s.books r.id).map JournalLine.values =
          (linesOf s.books 1).map (fun l => l.values.exchange) ∧
        ∀ accountId currency,
          accountBalance (linesOf s.books 1 ++ linesOf s.books r.id) accountId currency = 0 := by
  obtain ⟨s, hrun, hs⟩ := exists_guardedRun_of_any (reversalStep asciiTable)
    (fun s a => reversesAlone s a = true) (.fresh oneProfile cashAndRevenue)
    (postedSale ++ [reverseSale] ++ nextStatements 0 8)
    (fun s => ∃ r ∈ s.books.entries.rows, r.reversalOfEntryId = some 1 ∧ ¬s.beingWritten r.id)
    (by decide +kernel)
  obtain ⟨r, hr, hrev, hfree⟩ := of_decide_eq_true hs
  obtain ⟨-, hlines, hbalance⟩ := (reversal_mirrors_original _ _ hrun).2 r hr 1 hrev hfree
  exact ⟨s, hrun, r, hr, hrev, hlines, hbalance⟩

/-- Two calls read the sale as posted before either has marked it. -/
def reversedTwice : List ReversalAction :=
  postedSale ++ [reverseSale, reverseSale] ++ nextStatements 0 3 ++ nextStatements 1 3 ++
    nextStatements 0 5 ++ nextStatements 1 5

/-- The call fails after it has inserted the first line. -/
def reversedInPart : List ReversalAction :=
  postedSale ++ [reverseSale] ++ nextStatements 0 6 ++ [ReversalAction.fail 0]

theorem reversal_twice_or_in_part :
    (¬∀ (as : List ReversalAction) (s : ReversalState),
      Run (reversalStep asciiTable) (.fresh oneProfile cashAndRevenue) as s →
        ∀ r ∈ s.books.entries.rows, ∀ q ∈ s.books.entries.rows, ∀ id,
          r.reversalOfEntryId = some id → q.reversalOfEntryId = some id → r = q) ∧
    ¬∀ (as : List ReversalAction) (s : ReversalState),
      Run (reversalStep asciiTable) (.fresh oneProfile cashAndRevenue) as s →
        ∀ r ∈ s.books.entries.rows, ∀ id, r.reversalOfEntryId = some id →
          ¬s.beingWritten r.id → (linesOf s.books r.id).map JournalLine.values =
            (linesOf s.books id).map (fun l => l.values.exchange) := by
  constructor
  · intro h
    obtain ⟨s, hrun, hs⟩ := exists_guardedRun_of_any (reversalStep asciiTable) (fun _ _ => True)
      (.fresh oneProfile cashAndRevenue) reversedTwice
      (fun s => ∃ r ∈ s.books.entries.rows, ∃ q ∈ s.books.entries.rows,
        r.reversalOfEntryId = some 1 ∧ q.reversalOfEntryId = some 1 ∧ r.id ≠ q.id)
      (by decide +kernel)
    obtain ⟨r, hr, q, hq, hrev, hqrev, hne⟩ := of_decide_eq_true hs
    exact hne (congrArg JournalEntry.id (h _ s hrun r hr q hq 1 hrev hqrev))
  · intro h
    obtain ⟨s, hrun, hs⟩ := exists_guardedRun_of_any (reversalStep asciiTable) (fun _ _ => True)
      (.fresh oneProfile cashAndRevenue) reversedInPart
      (fun s => ∃ r ∈ s.books.entries.rows, r.reversalOfEntryId = some 1 ∧ ¬s.beingWritten r.id ∧
        (linesOf s.books r.id).length ≠ (linesOf s.books 1).length)
      (by decide +kernel)
    obtain ⟨r, hr, hrev, hfree, hne⟩ := of_decide_eq_true hs
    have hlines := congrArg List.length (h _ s hrun r hr 1 hrev hfree)
    rw [List.length_map, List.length_map] at hlines
    exact hne hlines

end IpDocket.Accounting
