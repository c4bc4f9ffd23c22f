import IpDocket.Accounting.Journal
import IpDocket.Accounting.Periods
import IpDocket.Lib.Sums

/-!
# Trial balance and balance sheet

`fetch_trial_balance_rows` and `build_balance_sheet` of `accounting.py`. The journal takes an
entry whose debits and credits differ by up to a cent, and the statements leave out amounts
below a hundredth of a cent. The debits and credits of the posted entries differ by what the
entries leave open, and the columns and totals of the statements by no more than that and
what they leave out.
-/

namespace IpDocket.Accounting
open IpDocket.Lib

variable (U : UpperTable)

/-- The filters of a statement: a profile, and a currency unless it is missing or `ALL`. -/
structure Scope where
  businessProfileId : Option Int
  currency : Option Text

/-- `_journal_scope_sql`. -/
def inScope (scope : Scope) (e : JournalEntry) (l : JournalLine) : Prop :=
  e.posted = true ∧
    (∀ bpId ∈ scope.businessProfileId, bpId ≠ 0 → e.businessProfileId = bpId) ∧
    (∀ c ∈ nonempty scope.currency, pyUpper U c ≠ "ALL".toList →
      l.currency.getD "USD".toList = pyUpper U c)
  deriving Decidable

/-- The lines of the posted entries in the scope with a date in `dates`. -/
def scopeLines (b : Books) (scope : Scope) (dates : Date → Bool) : List JournalLine :=
  b.lines.rows.filter (fun l =>
    (b.entries.find l.entryId).any (fun e => inScope U scope e l ∧ dates e.entryDate))

def accountLines (a : Account) (lines : List JournalLine) : List JournalLine :=
  lines.filter (fun l => l.accountId = a.id)

def splitSignedAmount (amount : ℚ) : ℚ × ℚ := if 0 ≤ amount then (amount, 0) else (0, |amount|)

structure TrialBalanceRow where
  account : Account
  openingBalance : ℚ
  openingDebit : ℚ
  openingCredit : ℚ
  periodDebit : ℚ
  periodCredit : ℚ
  endingBalance : ℚ
  endingDebit : ℚ
  endingCredit : ℚ

def trialBalanceRow (opening period : List JournalLine) (a : Account) : TrialBalanceRow :=
  let openingBalance := ((accountLines a opening).map (fun l => l.debit - l.credit)).sum
  let periodDebit := debitTotal (accountLines a period)
  let periodCredit := creditTotal (accountLines a period)
  let endingBalance := openingBalance + periodDebit - periodCredit
  { account := a
    openingBalance := openingBalance
    openingDebit := (splitSignedAmount openingBalance).1
    openingCredit := (splitSignedAmount openingBalance).2
    periodDebit := periodDebit
    periodCredit := periodCredit
    endingBalance := endingBalance
    endingDebit := (splitSignedAmount endingBalance).1
    endingCredit := (splitSignedAmount endingBalance).2 }

/-- Without `include_zero` a row with nothing but small amounts is left out. -/
def TrialBalanceRow.shown (includeZero : Bool) (row : TrialBalanceRow) : Bool :=
  includeZero ∨ ¬(|row.openingBalance| < 1 / 10000 ∧ |row.periodDebit| < 1 / 10000 ∧
    |row.periodCredit| < 1 / 10000 ∧ |row.endingBalance| < 1 / 10000)

/-- The rows come in the order of the types and codes of the accounts, which nothing below
depends on. -/
def fetchTrialBalanceRows (b : Books) (startDate endDate : Option Date) (scope : Scope)
    (includeZero : Bool) : Except LedgerError (List TrialBalanceRow) :=
  match startDate, endDate with
  | some first, some last =>
    let start := min first last
    let stop := max first last
    let opening := scopeLines U b scope (fun d => d < start)
    let period := scopeLines U b scope (fun d => start ≤ d ∧ d ≤ stop)
    .ok ((b.accounts.rows.map (trialBalanceRow opening period)).filter
      (TrialBalanceRow.shown includeZero))
  | _, _ => .error (.refused "times Period confirm.")

/-- A line of the balance sheet; the current income is not an account. -/
structure SheetLine where
  account : Option Account
  amount : ℚ

structure BalanceSheet where
  assets : List SheetLine
  liabilities : List SheetLine
  equities : List SheetLine
  totalAssets : ℚ
  totalLiabilities : ℚ
  totalEquity : ℚ
  totalLiabilitiesAndEquity : ℚ
  currentIncome : ℚ

def rawBalance (lines : List JournalLine) (a : Account) : ℚ :=
  debitTotal (accountLines a lines) - creditTotal (accountLines a lines)

def SheetLine.listed (line : SheetLine) : Bool := 1 / 10000 ≤ |line.amount|

/-- What the loop over the accounts has collected so far. -/
structure SheetParts where
  assets : List SheetLine := []
  liabilities : List SheetLine := []
  equities : List SheetLine := []
  currentIncome : ℚ := 0

/-- Append a line unless its amount is too small. -/
def listLine (lines : List SheetLine) (line : SheetLine) : List SheetLine :=
  if line.listed then lines ++ [line] else lines

def sheetStep (lines : List JournalLine) (parts : SheetParts) (a : Account) : SheetParts :=
  match a.type with
  | .asset =>
    { parts with assets := listLine parts.assets ⟨some a, rawBalance lines a⟩ }
  | .liability =>
    { parts with liabilities := listLine parts.liabilities ⟨some a, -rawBalance lines a⟩ }
  | .equity =>
    { parts with equities := listLine parts.equities ⟨some a, -rawBalance lines a⟩ }
  | .revenue => { parts with currentIncome := parts.currentIncome - rawBalance lines a }
  | .expense => { parts with currentIncome := parts.currentIncome - rawBalance lines a }

def sheetTotal (lines : List SheetLine) : ℚ := (lines.map SheetLine.amount).sum

def buildBalanceSheet (b : Books) (asOfDate : Option Date) (scope : Scope) :
    Except LedgerError BalanceSheet :=
  match asOfDate with
  | none => .error (.refused "reference date confirm.")
  | some asOf =>
    let lines := scopeLines U b scope (fun d => d ≤ asOf)
    let parts := b.accounts.rows.foldl (sheetStep lines) {}
    let equities := listLine parts.equities ⟨none, parts.currentIncome⟩
    .ok
      { assets := parts.assets
        liabilities := parts.liabilities
        equities := equities
        totalAssets := sheetTotal parts.assets
        totalLiabilities := sheetTotal parts.liabilities
        totalEquity := sheetTotal equities
        totalLiabilitiesAndEquity := sheetTotal parts.liabilities + sheetTotal equities
        currentIncome := parts.currentIncome }

variable {U}

/-- What an entry leaves open. -/
def residue (lines : List JournalLine) : ℚ := debitTotal lines - creditTotal lines

lemma residue_eq_sum (lines : List JournalLine) :
    residue lines = (lines.map (fun l => l.debit - l.credit)).sum := by
  induction lines with
  | nil => simp [residue, debitTotal, creditTotal]
  | cons l lines ih =>
    rw [List.map_cons, List.sum_cons, ← ih]
    simp only [residue, debitTotal, creditTotal, List.map_cons, List.sum_cons]
    ring

/-- Drafts may be open by any amount: one that could not be written to its end keeps the lines
that it has. -/
structure JournalInvariant (U : UpperTable) (b : Books) : Prop where
  entry : ∀ l ∈ b.lines.rows, (b.entries.find l.entryId).isSome = true
  stored : ∀ l ∈ b.lines.rows, l.values.refusal b.accounts = none
  normal : ∀ l ∈ b.lines.rows, NormalCurrency U l.currency
  tolerance : ∀ e ∈ b.entries.rows, e.approved = true ∨ e.posted = true →
    |residue (linesOf b e.id)| ≤ 1 / 100
  currency : ∀ l ∈ b.lines.rows, ∀ m ∈ b.lines.rows, l.entryId = m.entryId →
    l.currency = m.currency

lemma JournalInvariant.account {b : Books} (hI : JournalInvariant U b) :
    ∀ l ∈ b.lines.rows, (b.accounts.find l.accountId).isSome = true :=
  fun l hl => (refusal_eq_none.mp (hI.stored l hl)).2

lemma journalInvariant_fresh (profiles : Keyed BusinessProfile.id)
    (accounts : Keyed Account.id) : JournalInvariant U (Books.fresh profiles accounts) := by
  constructor <;> simp [Books.fresh, Table.empty]

lemma map_numberLines {β : Type} {entryId id : Nat} {vs : List LineValues}
    {f : JournalLine → β} {g : LineValues → β} (hfg : ∀ v id, f (v.line entryId id) = g v) :
    (numberLines entryId id vs).map f = vs.map g := by
  induction vs generalizing id with
  | nil => rfl
  | cons v vs ih => rw [numberLines, List.map_cons, List.map_cons, hfg, ih]

lemma values_of_mem_numberLines {entryId id : Nat} {vs : List LineValues} {l : JournalLine}
    (h : l ∈ numberLines entryId id vs) : l.values ∈ vs := by
  have hmem := List.mem_map_of_mem (f := JournalLine.values) h
  rwa [map_numberLines (g := fun v => v) (fun _ _ => rfl), List.map_id'] at hmem

/-- What an insertion does to the lines of an entry: the new one has those inserted. -/
lemma linesOf_insert {b b' : Books} {e : JournalEntry} {done : List LineValues}
    (hI : JournalInvariant U b)
    (h : Inserted (fun id => { e with id := id }) (fun _ => rfl) done b b') (k : Nat) :
    linesOf b' k = if k = b.entries.next then numberLines k b.lines.next done
      else linesOf b k := by
  unfold linesOf
  rw [h.lines, List.filter_append]
  split
  · next hk =>
    subst hk
    have hnone : b.lines.rows.filter (fun l => l.entryId = b.entries.next) = [] := by
      refine List.filter_eq_nil_iff.mpr ?_
      intro l hl
      obtain ⟨q, hq⟩ := Option.isSome_iff_exists.mp (hI.entry l hl)
      simpa using Nat.ne_of_lt (Table.find_lt_next hq)
    have hall : ∀ l ∈ numberLines b.entries.next b.lines.next done,
        decide (l.entryId = b.entries.next) = true :=
      fun l hl => decide_eq_true (entryId_of_mem_numberLines hl)
    rw [hnone, List.nil_append, List.filter_eq_self.mpr hall]
  · next hk =>
    have hnone : (numberLines b.entries.next b.lines.next done).filter
        (fun l => l.entryId = k) = [] := by
      refine List.filter_eq_nil_iff.mpr ?_
      intro l hl
      rw [entryId_of_mem_numberLines hl]
      simpa using Ne.symm hk
    rw [hnone, List.append_nil]

lemma JournalInvariant.insert {b b' : Books} (hI : JournalInvariant U b) {e : JournalEntry}
    {done : List LineValues}
    (h : Inserted (fun id => { e with id := id }) (fun _ => rfl) done b b')
    (hsum : e.approved = true ∨ e.posted = true →
      |(done.map LineValues.debit).sum - (done.map LineValues.credit).sum| ≤ 1 / 100)
    (hnormal : ∀ v ∈ done, NormalCurrency U v.currency)
    (hcur : ∀ v ∈ done, ∀ w ∈ done, v.currency = w.currency) : JournalInvariant U b' := by
  have hold : ∀ l ∈ b.lines.rows, l.entryId ≠ b.entries.next := by
    intro l hl
    obtain ⟨q, hq⟩ := Option.isSome_iff_exists.mp (hI.entry l hl)
    exact Nat.ne_of_lt (Table.find_lt_next hq)
  refine ⟨?_, ?_, ?_, ?_, ?_⟩
  · intro l hl
    rw [h.entries]
    rw [h.lines] at hl
    rcases List.mem_append.mp hl with hl | hl
    · rw [Table.find_insert_of_ne _ (hold l hl)]
      exact hI.entry l hl
    · rw [entryId_of_mem_numberLines hl, Table.find_insert_next]
      rfl
  · intro l hl
    rw [h.accounts]
    rw [h.lines] at hl
    rcases List.mem_append.mp hl with hl | hl
    · exact hI.stored l hl
    · exact h.stored _ (values_of_mem_numberLines hl)
  · intro l hl
    rw [h.lines] at hl
    rcases List.mem_append.mp hl with hl | hl
    · exact hI.normal l hl
    · exact hnormal _ (values_of_mem_numberLines hl)
  · intro q hq hdone
    rw [h.entries] at hq
    rw [linesOf_insert hI h]
    rcases List.mem_append.mp hq with hq | hq
    · rw [if_neg (Nat.ne_of_lt (b.entries.fresh q hq))]
      exact hI.tolerance q hq hdone
    · rw [List.mem_singleton] at hq
      subst hq
      rw [if_pos rfl, residue, debitTotal, creditTotal,
        map_numberLines (g := LineValues.debit) (fun _ _ => rfl),
        map_numberLines (g := LineValues.credit) (fun _ _ => rfl)]
      exact hsum hdone
  · intro l hl m hm hlm
    rw [h.lines] at hl hm
    rcases List.mem_append.mp hl with hl | hl
    · rcases List.mem_append.mp hm with hm | hm
      · exact hI.currency l hl m hm hlm
      · exact absurd (hlm.trans (entryId_of_mem_numberLines hm)) (hold l hl)
    · rcases List.mem_append.mp hm with hm | hm
      · exact absurd (hlm.symm.trans (entryId_of_mem_numberLines hl)) (hold m hm)
      · exact hcur _ (values_of_mem_numberLines hl) _ (values_of_mem_numberLines hm)

/-- An `UPDATE` of entries. Where it approves or posts, the lines of the entry are balanced. -/
lemma JournalInvariant.updateEntries {b : Books} (hI : JournalInvariant U b)
    {p : JournalEntry → Bool} {f : JournalEntry → JournalEntry} (hf : ∀ e, (f e).id = e.id)
    (hflags : ∀ e, p e = true → (f e).approved = true ∨ (f e).posted = true →
      (e.approved = true ∨ e.posted = true) ∨ balanced (linesOf b e.id)) :
    JournalInvariant U (updateEntries p f hf b) := by
  refine ⟨?_, hI.stored, hI.normal, ?_, hI.currency⟩
  · intro l hl
    rw [isSome_find_updateEntries]
    exact hI.entry l hl
  · intro q hq hdone
    obtain ⟨e, he, rfl⟩ := List.mem_map.mp hq
    change |residue (linesOf b _)| ≤ _
    rw [key_onRows hf]
    unfold onRows at hdone
    split at hdone
    · next hp =>
      rcases hflags e hp hdone with hbefore | hbalanced
      · exact hI.tolerance e he hbefore
      · exact hbalanced.2
    · exact hI.tolerance e he hdone

lemma JournalInvariant.of_eq {b b' : Books} (hI : JournalInvariant U b)
    (haccounts : b'.accounts = b.accounts) (hentries : b'.entries = b.entries)
    (hlines : b'.lines = b.lines) : JournalInvariant U b' := by
  refine ⟨?_, ?_, ?_, ?_, ?_⟩
  · rw [hlines, hentries]
    exact hI.entry
  · rw [hlines, haccounts]
    exact hI.stored
  · rw [hlines]
    exact hI.normal
  · unfold linesOf
    rw [hlines, hentries]
    exact hI.tolerance
  · rw [hlines]
    exact hI.currency

lemma JournalInvariant.delete {b : Books} (hI : JournalInvariant U b) (entryId : Nat) :
    JournalInvariant U { b with
      lines := deleteLines entryId b.lines
      entries := b.entries.delete entryId } := by
  have hmem : ∀ l ∈ (deleteLines entryId b.lines).rows, l ∈ b.lines.rows ∧ l.entryId ≠ entryId := by
    intro l hl
    obtain ⟨hl, hne⟩ := List.mem_filter.mp hl
    exact ⟨hl, of_decide_eq_true hne⟩
  refine ⟨?_, fun l hl => hI.stored l (hmem l hl).1, fun l hl => hI.normal l (hmem l hl).1, ?_,
    fun l hl m hm => hI.currency l (hmem l hl).1 m (hmem m hm).1⟩
  · intro l hl
    change ((b.entries.delete entryId).find l.entryId).isSome = true
    rw [Table.find_delete_of_ne (hmem l hl).2]
    exact hI.entry l (hmem l hl).1
  · intro e he hdone
    obtain ⟨he, hne⟩ := List.mem_filter.mp he
    have hid : e.id ≠ entryId := by simpa using hne
    have hsame : (deleteLines entryId b.lines).rows.filter (fun l => l.entryId = e.id) =
        linesOf b e.id := by
      rw [deleteLines, List.filter_filter]
      refine List.filter_congr ?_
      intro l _
      by_cases hl : l.entryId = e.id
      · simp [hl, hid]
      · simp [hl]
    unfold linesOf
    rw [hsame]
    exact hI.tolerance e he hdone

/-- The lines of a posted entry can be reversed, so that no reversal stops half way. -/
lemma JournalInvariant.reverse {b : Books} (hI : JournalInvariant U b) {entryId : Nat}
    {l : JournalLine} (hl : l ∈ linesOf b entryId) : (l.reverse U).refusal b.accounts = none :=
  have hmem := (List.mem_filter.mp hl).1
  refusal_reverse (hI.normal l hmem) (hI.stored l hmem)

lemma journalInvariant_handle {b : Books} {w : Written} {r : LedgerRequest}
    (hI : JournalInvariant U b) (h : handle U b r = .ok w) : JournalInvariant U w.books := by
  cases r with
  | journalNew f default today =>
    obtain ⟨e, t, done, hinserted, ht, hcur, _, happroved, hposted, _⟩ := journalNew_eq_ok h
    refine hI.insert hinserted ?_ ?_ ?_
    · rintro (hdone | hdone)
      · exact absurd (happroved.symm.trans hdone) (by decide)
      · exact absurd (hposted.symm.trans hdone) (by decide)
    · intro v hv
      rw [hcur v hv]
      exact normalCurrency_upper ht
    · intro v hv w hw
      rw [hcur v hv, hcur w hw]
  | journalApprove entryId =>
    obtain ⟨hbalanced, hb⟩ := journalApprove_eq_ok (written_eq_ok h)
    rw [hb]
    refine hI.updateEntries _ ?_
    intro e he _
    rw [of_decide_eq_true he]
    exact .inr hbalanced
  | journalPost entryId =>
    obtain ⟨e, _, _, hbalanced, hb⟩ := journalPost_eq_ok (written_eq_ok h)
    rw [hb]
    refine hI.updateEntries _ ?_
    intro e he _
    rw [of_decide_eq_true he]
    exact .inr hbalanced
  | journalReverse entryId date today reason =>
    obtain ⟨e, new, b₁, done, he, hposted, hinserted, _, _, _, _, hend⟩ := journalReverse_eq_ok h
    rcases hend with ⟨rfl, hb⟩ | ⟨_, l, hl, hrefused⟩
    · have hI₁ : JournalInvariant U b₁ := by
        refine hI.insert hinserted ?_ ?_ ?_
        · intro _
          rw [List.map_map, List.map_map]
          change |creditTotal (linesOf b entryId) - debitTotal (linesOf b entryId)| ≤ 1 / 100
          rw [abs_sub_comm, ← Table.key_of_find he]
          exact hI.tolerance e (Table.mem_of_find he) (.inr hposted)
        · intro v hv
          obtain ⟨l, _, rfl⟩ := List.mem_map.mp hv
          exact normalCurrency_reverse l
        · intro v hv w hw
          obtain ⟨l, hl, rfl⟩ := List.mem_map.mp hv
          obtain ⟨m, hm, rfl⟩ := List.mem_map.mp hw
          obtain ⟨hl, hle⟩ := List.mem_filter.mp hl
          obtain ⟨hm, hme⟩ := List.mem_filter.mp hm
          have hlm : l.entryId = m.entryId :=
            (of_decide_eq_true hle).trans (of_decide_eq_true hme).symm
          simp only [JournalLine.reverse, hI.currency l hl m hm hlm]
      rw [hb]
      exact hI₁.updateEntries _ (fun _ _ hdone => .inl hdone)
    · exact absurd (hI.reverse hl) hrefused
  | journalDelete entryId =>
    obtain ⟨e, _, _, hb⟩ := journalDelete_eq_ok (written_eq_ok h)
    rw [hb]
    exact hI.delete entryId
  | closeAccountingPeriod f =>
    obtain ⟨p, b₁, hstored, _, _, _, _, hb⟩ := closeAccountingPeriod_eq_ok (written_eq_ok h)
    rw [hb]
    have hI₁ := hI.of_eq hstored.accounts hstored.entries hstored.lines
    exact hI₁.updateEntries _ (fun _ _ hdone => .inl hdone)
  | reopenAccountingPeriod periodId =>
    rw [reopenAccountingPeriod_eq_ok (written_eq_ok h)]
    refine JournalInvariant.updateEntries ?_ _ (fun _ _ hdone => .inl hdone)
    exact hI.of_eq rfl rfl rfl

lemma journalInvariant_run {profiles : Keyed BusinessProfile.id} {accounts : Keyed Account.id}
    {rs : List LedgerRequest} {b : Books}
    (h : Run (ledgerStep U) (Books.fresh profiles accounts) rs b) : JournalInvariant U b := by
  refine h.invariant (journalInvariant_fresh profiles accounts) ?_
  intro b r b' hI _ hstep
  obtain ⟨w, hw, rfl⟩ := ledgerStep_eq_some.mp hstep
  exact journalInvariant_handle hI hw

section Scope

variable {b : Books} {scope : Scope} {dates : Date → Bool}

/-- The posted entries with a line in the scope. -/
def scopeEntries (U : UpperTable) (b : Books) (scope : Scope) (dates : Date → Bool) :
    List JournalEntry :=
  b.entries.rows.filter (fun e => (scopeLines U b scope dates).any (fun l => l.entryId = e.id))

/-- The lines of an entry have one currency, so that a scope has all of them or none. -/
lemma scopeLines_of_entry (hI : JournalInvariant U b) {e : JournalEntry}
    (he : e ∈ scopeEntries U b scope dates) :
    (scopeLines U b scope dates).filter (fun l => l.entryId = e.id) = linesOf b e.id := by
  obtain ⟨hmem, hany⟩ := List.mem_filter.mp he
  obtain ⟨m, hm, hme⟩ := List.any_eq_true.mp hany
  obtain ⟨hm, hscope⟩ := List.mem_filter.mp hm
  have hfind := Table.find_of_mem hmem
  rw [of_decide_eq_true hme, hfind, Option.any_some, decide_eq_true_eq] at hscope
  unfold scopeLines linesOf
  rw [List.filter_filter]
  refine List.filter_congr ?_
  intro l hl
  by_cases hle : l.entryId = e.id
  · have hcur := hI.currency l hl m hm (hle.trans (of_decide_eq_true hme).symm)
    have hin : inScope U scope e l ∧ dates e.entryDate = true := by
      unfold inScope at hscope ⊢
      rw [hcur]
      exact hscope
    simp [hle, hfind, hin]
  · simp [hle]

lemma residue_scopeLines (hI : JournalInvariant U b) :
    residue (scopeLines U b scope dates) =
      ((scopeEntries U b scope dates).map (fun e => residue (linesOf b e.id))).sum := by
  have href : ∀ l ∈ scopeLines U b scope dates, ∃ e ∈ b.entries.rows, e.id = l.entryId := by
    intro l hl
    obtain ⟨e, he⟩ := Option.isSome_iff_exists.mp (hI.entry l (List.mem_filter.mp hl).1)
    exact ⟨e, Table.find_eq_some.mp he⟩
  have hzero : ∀ e ∈ b.entries.rows,
      (scopeLines U b scope dates).any (fun l => l.entryId = e.id) = false →
      residue ((scopeLines U b scope dates).filter (fun l => l.entryId = e.id)) = 0 := by
    intro e _ hany
    have hnone : (scopeLines U b scope dates).filter (fun l => l.entryId = e.id) = [] := by
      refine List.filter_eq_nil_iff.mpr ?_
      intro l hl
      have := List.any_eq_false.mp hany l hl
      simpa using this
    rw [hnone]
    simp [residue, debitTotal, creditTotal]
  calc residue (scopeLines U b scope dates)
      = (b.entries.rows.map (fun e =>
          residue ((scopeLines U b scope dates).filter (fun l => l.entryId = e.id)))).sum := by
        simp only [residue_eq_sum]
        exact sum_map_eq_sum_groups b.entries.unique _ href
    _ = ((scopeEntries U b scope dates).map (fun e =>
          residue ((scopeLines U b scope dates).filter (fun l => l.entryId = e.id)))).sum :=
        (sum_map_filter_of_zero hzero).symm
    _ = ((scopeEntries U b scope dates).map (fun e => residue (linesOf b e.id))).sum := by
        rw [List.map_congr_left (fun e he => congrArg residue (scopeLines_of_entry hI he))]

lemma JournalInvariant.tolerance_scopeEntries (hI : JournalInvariant U b) {e : JournalEntry}
    (he : e ∈ scopeEntries U b scope dates) : |residue (linesOf b e.id)| ≤ 1 / 100 := by
  obtain ⟨hmem, hany⟩ := List.mem_filter.mp he
  obtain ⟨m, hm, hme⟩ := List.any_eq_true.mp hany
  have hscope := (List.mem_filter.mp hm).2
  rw [of_decide_eq_true hme, Table.find_of_mem hmem, Option.any_some, decide_eq_true_eq] at hscope
  exact hI.tolerance e hmem (.inr hscope.1.1)

lemma abs_residue_scopeLines_le (hI : JournalInvariant U b) (scope : Scope)
    (dates : Date → Bool) :
    |residue (scopeLines U b scope dates)| ≤ (scopeEntries U b scope dates).length / 100 := by
  have hsmall : ∀ x ∈ (scopeEntries U b scope dates).map (fun e => residue (linesOf b e.id)),
      |x| ≤ 1 / 100 := by
    intro x hx
    obtain ⟨e, he, rfl⟩ := List.mem_map.mp hx
    exact hI.tolerance_scopeEntries he
  have hle := abs_sum_le_of_forall hsmall
  rw [List.length_map] at hle
  rw [residue_scopeLines hI]
  linarith

/-- Every line is in the row of its account. -/
lemma sum_rawBalance (hI : JournalInvariant U b) :
    (b.accounts.rows.map (rawBalance (scopeLines U b scope dates))).sum =
      residue (scopeLines U b scope dates) := by
  have href : ∀ l ∈ scopeLines U b scope dates, ∃ a ∈ b.accounts.rows, a.id = l.accountId := by
    intro l hl
    obtain ⟨a, ha⟩ := Option.isSome_iff_exists.mp (hI.account l (List.mem_filter.mp hl).1)
    exact ⟨a, Keyed.find_eq_some.mp ha⟩
  rw [residue_eq_sum, sum_map_eq_sum_groups b.accounts.unique _ href]
  refine congrArg List.sum (List.map_congr_left ?_)
  intro a _
  exact residue_eq_sum (accountLines a (scopeLines U b scope dates))

end Scope

lemma splitSignedAmount_sub (x : ℚ) : (splitSignedAmount x).1 - (splitSignedAmount x).2 = x := by
  unfold splitSignedAmount
  split
  · exact sub_zero x
  · next hx =>
    rw [abs_of_neg (not_le.mp hx)]
    ring

lemma sum_map_sub_rows (f g : TrialBalanceRow → ℚ) (rows : List TrialBalanceRow) :
    (rows.map f).sum - (rows.map g).sum = (rows.map (fun r => f r - g r)).sum := by
  induction rows with
  | nil => simp
  | cons r rows ih =>
    simp only [List.map_cons, List.sum_cons]
    rw [← ih]
    ring

/-- Two columns whose difference is small in a hidden row, and `x` over all rows. -/
lemma columns_le {rows : List TrialBalanceRow} {includeZero : Bool} {f g : TrialBalanceRow → ℚ}
    (hhidden : ∀ r ∈ rows, r.shown includeZero = false → |f r - g r| ≤ 1 / 5000)
    {x c : ℚ} (hsum : (rows.map (fun r => f r - g r)).sum = x) (hx : |x| ≤ c) :
    |((rows.filter (TrialBalanceRow.shown includeZero)).map f).sum -
        ((rows.filter (TrialBalanceRow.shown includeZero)).map g).sum| ≤
      c + (rows.length - (rows.filter (TrialBalanceRow.shown includeZero)).length) * (1 / 5000) := by
  have hleft := abs_sum_filter_sub_sum_le (f := fun r => f r - g r) hhidden
  rw [sum_map_sub_rows]
  rw [hsum] at hleft
  rw [abs_le] at hleft hx ⊢
  constructor <;> linarith [hleft.1, hleft.2, hx.1, hx.2]

lemma hidden_row {row : TrialBalanceRow} {includeZero : Bool}
    (h : row.shown includeZero = false) :
    |row.openingBalance| < 1 / 10000 ∧ |row.periodDebit| < 1 / 10000 ∧
      |row.periodCredit| < 1 / 10000 ∧ |row.endingBalance| < 1 / 10000 := by
  unfold TrialBalanceRow.shown at h
  have hnot := of_decide_eq_false h
  rw [not_or, not_not] at hnot
  exact hnot.2

/-! ### The balance sheet -/

def SheetParts.net (parts : SheetParts) : ℚ :=
  sheetTotal parts.assets - sheetTotal parts.liabilities - sheetTotal parts.equities -
    parts.currentIncome

def SheetParts.count (parts : SheetParts) : ℚ :=
  parts.assets.length + parts.liabilities.length + parts.equities.length

/-- The accounts that have a line of their own on the sheet. -/
def sheetAccounts (accounts : List Account) : List Account :=
  accounts.filter (fun a => a.type ≠ .revenue ∧ a.type ≠ .expense)

/-- A line is listed with its amount, or it is left out and its amount is small. -/
lemma listLine_cases (lines : List SheetLine) (line : SheetLine) :
    (sheetTotal (listLine lines line) = sheetTotal lines + line.amount ∧
      ((listLine lines line).length : ℚ) = lines.length + 1) ∨
    (sheetTotal (listLine lines line) = sheetTotal lines ∧
      ((listLine lines line).length : ℚ) = lines.length ∧ |line.amount| ≤ 1 / 10000) := by
  unfold listLine
  split
  · refine .inl ⟨?_, ?_⟩
    · simp [sheetTotal]
    · rw [List.length_append]
      push_cast
      rfl
  · next hsmall =>
    refine .inr ⟨rfl, rfl, ?_⟩
    rw [SheetLine.listed, decide_eq_true_eq, not_le] at hsmall
    exact hsmall.le

/-- One account: it has a line of its own or goes into the current income, and the net moves by
its balance. Otherwise it is not listed, and its balance is small. -/
lemma sheetStep_cases (lines : List JournalLine) (parts : SheetParts) (a : Account) :
    ((sheetStep lines parts a).net = parts.net + rawBalance lines a ∧
      (sheetStep lines parts a).count = parts.count + (sheetAccounts [a]).length) ∨
    ((sheetStep lines parts a).net = parts.net ∧ |rawBalance lines a| ≤ 1 / 10000 ∧
      (sheetStep lines parts a).count = parts.count + (sheetAccounts [a]).length - 1) := by
  cases htype : a.type with
  | asset =>
    have hown : (sheetAccounts [a]).length = 1 := by simp [sheetAccounts, htype]
    simp only [sheetStep, htype, SheetParts.net, SheetParts.count, hown]
    rcases listLine_cases parts.assets ⟨some a, rawBalance lines a⟩ with
      ⟨htotal, hlen⟩ | ⟨htotal, hlen, hsmall⟩
    · refine .inl ⟨?_, ?_⟩
      · rw [htotal]
        ring
      · rw [hlen]
        push_cast
        ring
    · exact .inr ⟨by rw [htotal], hsmall, by rw [hlen]; push_cast; ring⟩
  | liability =>
    have hown : (sheetAccounts [a]).length = 1 := by simp [sheetAccounts, htype]
    simp only [sheetStep, htype, SheetParts.net, SheetParts.count, hown]
    rcases listLine_cases parts.liabilities ⟨some a, -rawBalance lines a⟩ with
      ⟨htotal, hlen⟩ | ⟨htotal, hlen, hsmall⟩
    · refine .inl ⟨?_, ?_⟩
      · rw [htotal]
        ring
      · rw [hlen]
        push_cast
        ring
    · rw [abs_neg] at hsmall
      exact .inr ⟨by rw [htotal], hsmall, by rw [hlen]; push_cast; ring⟩
  | equity =>
    have hown : (sheetAccounts [a]).length = 1 := by simp [sheetAccounts, htype]
    simp only [sheetStep, htype, SheetParts.net, SheetParts.count, hown]
    rcases listLine_cases parts.equities ⟨some a, -rawBalance lines a⟩ with
      ⟨htotal, hlen⟩ | ⟨htotal, hlen, hsmall⟩
    · refine .inl ⟨?_, ?_⟩
      · rw [htotal]
        ring
      · rw [hlen]
        push_cast
        ring
    · rw [abs_neg] at hsmall
      exact .inr ⟨by rw [htotal], hsmall, by rw [hlen]; push_cast; ring⟩
  | revenue =>
    have hown : (sheetAccounts [a]).length = 0 := by simp [sheetAccounts, htype]
    simp only [sheetStep, htype, SheetParts.net, SheetParts.count, hown]
    refine .inl ⟨by ring, by simp⟩
  | expense =>
    have hown : (sheetAccounts [a]).length = 0 := by simp [sheetAccounts, htype]
    simp only [sheetStep, htype, SheetParts.net, SheetParts.count, hown]
    refine .inl ⟨by ring, by simp⟩

/-- Along the loop the net of the parts follows the balances, up to what is not listed. -/
lemma foldl_sheetStep (lines : List JournalLine) (accounts : List Account) (parts : SheetParts) :
    |(accounts.foldl (sheetStep lines) parts).net - parts.net -
        (accounts.map (rawBalance lines)).sum| ≤
      ((sheetAccounts accounts).length -
        ((accounts.foldl (sheetStep lines) parts).count - parts.count)) * (1 / 10000) := by
  induction accounts generalizing parts with
  | nil => simp [sheetAccounts]
  | cons a accounts ih =>
    have htail := ih (sheetStep lines parts a)
    have hlen : ((sheetAccounts (a :: accounts)).length : ℚ) =
        (sheetAccounts [a]).length + (sheetAccounts accounts).length := by
      rw [← Nat.cast_add, ← List.length_append, sheetAccounts, sheetAccounts, sheetAccounts,
        ← List.filter_append, List.singleton_append]
    rw [List.foldl_cons, List.map_cons, List.sum_cons, hlen]
    rw [abs_le] at htail ⊢
    rcases sheetStep_cases lines parts a with ⟨hnet, hcount⟩ | ⟨hnet, hsmall, hcount⟩
    · rw [hnet, hcount] at htail
      constructor <;> linarith [htail.1, htail.2]
    · have hs := abs_le.mp hsmall
      rw [hnet, hcount] at htail
      constructor <;> linarith [htail.1, htail.2, hs.1, hs.2]

lemma sheet_totals_le {b : Books} {scope : Scope} (hI : JournalInvariant U b) {asOf : Date}
    {sheet : BalanceSheet} (h : buildBalanceSheet U b (some asOf) scope = .ok sheet) :
    |sheet.totalAssets - sheet.totalLiabilitiesAndEquity| ≤
      (scopeEntries U b scope (fun d => d ≤ asOf)).length / 100 +
        ((sheetAccounts b.accounts.rows).length + 1 - (sheet.assets.length +
          sheet.liabilities.length + sheet.equities.length)) * (1 / 10000) := by
  cases h
  dsimp only
  set lines := scopeLines U b scope (fun d => d ≤ asOf)
  set parts := b.accounts.rows.foldl (sheetStep lines) {}
  have hloop := foldl_sheetStep lines b.accounts.rows {}
  rw [sum_rawBalance hI] at hloop
  change |parts.net - _ - _| ≤ (_ - (parts.count - _)) * _ at hloop
  have hnet : SheetParts.net {} = 0 := by simp [SheetParts.net, sheetTotal]
  have hcount : SheetParts.count {} = 0 := by simp [SheetParts.count]
  rw [hnet, hcount, SheetParts.net, SheetParts.count] at hloop
  have hres := abs_residue_scopeLines_le (U := U) hI scope (fun d => d ≤ asOf)
  rw [abs_le] at hloop hres ⊢
  rcases listLine_cases parts.equities ⟨none, parts.currentIncome⟩ with
    ⟨htotal, hlen⟩ | ⟨htotal, hlen, hsmall⟩
  · rw [htotal, hlen]
    constructor <;> linarith [hloop.1, hloop.2, hres.1, hres.2]
  · have hs := abs_le.mp hsmall
    rw [htotal, hlen]
    constructor <;> linarith [hloop.1, hloop.2, hres.1, hres.2, hs.1, hs.2]

lemma openingSplit_row (opening period : List JournalLine) (a : Account) :
    (trialBalanceRow opening period a).openingDebit -
      (trialBalanceRow opening period a).openingCredit =
        (trialBalanceRow opening period a).openingBalance :=
  splitSignedAmount_sub _

lemma endingSplit_row (opening period : List JournalLine) (a : Account) :
    (trialBalanceRow opening period a).endingDebit -
      (trialBalanceRow opening period a).endingCredit =
        (trialBalanceRow opening period a).endingBalance :=
  splitSignedAmount_sub _

lemma openingBalance_row (opening period : List JournalLine) (a : Account) :
    (trialBalanceRow opening period a).openingBalance = rawBalance opening a :=
  (residue_eq_sum (accountLines a opening)).symm

lemma endingBalance_row (opening period : List JournalLine) (a : Account) :
    (trialBalanceRow opening period a).endingBalance =
      rawBalance opening a + rawBalance period a := by
  have hopening := openingBalance_row opening period a
  simp only [trialBalanceRow, rawBalance] at hopening ⊢
  rw [hopening]
  ring

lemma trialBalance_columns_le {b : Books} {scope : Scope} (hI : JournalInvariant U b)
    {first last : Date} {includeZero : Bool} {rows : List TrialBalanceRow}
    (h : fetchTrialBalanceRows U b (some first) (some last) scope includeZero = .ok rows) :
    let opening := (scopeEntries U b scope (fun d => d < min first last)).length
    let period :=
      (scopeEntries U b scope (fun d => min first last ≤ d ∧ d ≤ max first last)).length
    let hidden : ℚ := b.accounts.rows.length - rows.length
    |(rows.map TrialBalanceRow.openingDebit).sum - (rows.map TrialBalanceRow.openingCredit).sum| ≤
        opening / 100 + hidden * (1 / 5000) ∧
      |(rows.map TrialBalanceRow.periodDebit).sum - (rows.map TrialBalanceRow.periodCredit).sum| ≤
        period / 100 + hidden * (1 / 5000) ∧
      |(rows.map TrialBalanceRow.endingDebit).sum - (rows.map TrialBalanceRow.endingCredit).sum| ≤
        (opening + period) / 100 + hidden * (1 / 5000) := by
  cases h
  dsimp only
  set start := min first last
  set stop := max first last
  set before := scopeLines U b scope (fun d => d < start)
  set during := scopeLines U b scope (fun d => start ≤ d ∧ d ≤ stop)
  have hbefore := abs_residue_scopeLines_le (U := U) hI scope (fun d => d < start)
  have hduring := abs_residue_scopeLines_le (U := U) hI scope (fun d => start ≤ d ∧ d ≤ stop)
  have hending : |residue before + residue during| ≤
      ((scopeEntries U b scope (fun d => d < start)).length +
        (scopeEntries U b scope (fun d => start ≤ d ∧ d ≤ stop)).length) / 100 := by
    refine (abs_add_le (residue before) (residue during)).trans ?_
    rw [add_div]
    exact add_le_add hbefore hduring
  have hrows : ∀ r ∈ b.accounts.rows.map (trialBalanceRow before during),
      ∃ a, r = trialBalanceRow before during a := by
    intro r hr
    obtain ⟨a, _, rfl⟩ := List.mem_map.mp hr
    exact ⟨a, rfl⟩
  have hlen : (b.accounts.rows.length : ℚ) =
      (b.accounts.rows.map (trialBalanceRow before during)).length := by
    rw [List.length_map]
  rw [hlen]
  refine ⟨columns_le ?_ ?_ hbefore, columns_le ?_ ?_ hduring, columns_le ?_ ?_ hending⟩
  · intro r hr hhidden
    obtain ⟨a, rfl⟩ := hrows r hr
    have hsmall := (hidden_row hhidden).1
    rw [openingSplit_row]
    linarith
  · rw [List.map_map, ← sum_rawBalance hI]
    refine congrArg List.sum (List.map_congr_left ?_)
    intro a _
    exact (openingSplit_row before during a).trans (openingBalance_row before during a)
  · intro r _ hhidden
    obtain ⟨_, hdebit, hcredit, _⟩ := hidden_row hhidden
    have htriangle := abs_sub r.periodDebit r.periodCredit
    linarith
  · rw [List.map_map, ← sum_rawBalance hI]
    rfl
  · intro r hr hhidden
    obtain ⟨a, rfl⟩ := hrows r hr
    have hsmall := (hidden_row hhidden).2.2.2
    rw [endingSplit_row]
    linarith
  · have hsum : (b.accounts.rows.map (fun a => rawBalance before a + rawBalance during a)).sum =
        residue before + residue during := by
      rw [List.sum_map_add, sum_rawBalance hI, sum_rawBalance hI]
    rw [List.map_map, ← hsum]
    refine congrArg List.sum (List.map_congr_left ?_)
    intro a _
    exact (endingSplit_row before during a).trans (endingBalance_row before during a)

/-- The debits and credits of the posted entries of a scope differ by what the entries leave
open, at most a cent each. The columns of the trial balance and the totals of the balance sheet
differ by no more than that, and by the small amounts the statements leave out. -/
theorem posted_entries_balance_within_tolerance (profiles : Keyed BusinessProfile.id)
    (accounts : Keyed Account.id) {rs : List LedgerRequest} {b : Books}
    (h : Run (ledgerStep U) (Books.fresh profiles accounts) rs b) (scope : Scope) :
    (∀ dates, debitTotal (scopeLines U b scope dates) - creditTotal (scopeLines U b scope dates) =
        ((scopeEntries U b scope dates).map
          (fun e => debitTotal (linesOf b e.id) - creditTotal (linesOf b e.id))).sum ∧
      ∀ e ∈ scopeEntries U b scope dates,
        |debitTotal (linesOf b e.id) - creditTotal (linesOf b e.id)| ≤ 1 / 100) ∧
    (∀ first last includeZero rows,
      fetchTrialBalanceRows U b (some first) (some last) scope includeZero = .ok rows →
      let opening := (scopeEntries U b scope (fun d => d < min first last)).length
      let period :=
        (scopeEntries U b scope (fun d => min first last ≤ d ∧ d ≤ max first last)).length
      let hidden : ℚ := b.accounts.rows.length - rows.length
      |(rows.map TrialBalanceRow.openingDebit).sum - (rows.map TrialBalanceRow.openingCredit).sum| ≤
          opening / 100 + hidden * (1 / 5000) ∧
        |(rows.map TrialBalanceRow.periodDebit).sum - (rows.map TrialBalanceRow.periodCredit).sum| ≤
          period / 100 + hidden * (1 / 5000) ∧
        |(rows.map TrialBalanceRow.endingDebit).sum - (rows.map TrialBalanceRow.endingCredit).sum| ≤
          (opening + period) / 100 + hidden * (1 / 5000)) ∧
    ∀ asOf sheet, buildBalanceSheet U b (some asOf) scope = .ok sheet →
      |sheet.totalAssets - sheet.totalLiabilitiesAndEquity| ≤
        (scopeEntries U b scope (fun d => d ≤ asOf)).length / 100 +
          ((sheetAccounts b.accounts.rows).length + 1 - (sheet.assets.length +
            sheet.liabilities.length + sheet.equities.length)) * (1 / 10000) := by
  have hI := journalInvariant_run h
  refine ⟨?_, ?_, ?_⟩
  · intro dates
    exact ⟨residue_scopeLines hI, fun e he => hI.tolerance_scopeEntries he⟩
  · intro first last includeZero rows hrows
    exact trialBalance_columns_le hI hrows
  · intro asOf sheet hsheet
    exact sheet_totals_le hI hsheet

/-- The debit of this sale is half a cent above its credit. -/
def unevenSale : List LedgerRequest :=
  [.journalNew (saleForm 10 (100005 / 1000) 100) none 10, .journalApprove 1, .journalPost 1]

def everything : Scope := ⟨none, none⟩

theorem posted_entries_leave_half_a_cent :
    ∃ b, Run (ledgerStep asciiTable) (Books.fresh oneProfile cashAndRevenue) unevenSale b ∧
      debitTotal (scopeLines asciiTable b everything (fun d => d ≤ 31)) ≠
        creditTotal (scopeLines asciiTable b everything (fun d => d ≤ 31)) ∧
      (∃ rows, fetchTrialBalanceRows asciiTable b (some 1) (some 31) everything true = .ok rows ∧
        (rows.map TrialBalanceRow.endingDebit).sum ≠
          (rows.map TrialBalanceRow.endingCredit).sum) ∧
      ∃ sheet, buildBalanceSheet asciiTable b (some 31) everything = .ok sheet ∧
        sheet.totalAssets ≠ sheet.totalLiabilitiesAndEquity := by
  obtain ⟨b, hrun, hb⟩ := exists_guardedRun_of_any (ledgerStep asciiTable) (fun _ _ => True)
    (Books.fresh oneProfile cashAndRevenue) unevenSale
    (fun b => debitTotal (scopeLines asciiTable b everything (fun d => d ≤ 31)) ≠
        creditTotal (scopeLines asciiTable b everything (fun d => d ≤ 31)) ∧
      (fetchTrialBalanceRows asciiTable b (some 1) (some 31) everything true).toOption.any
        (fun rows => (rows.map TrialBalanceRow.endingDebit).sum ≠
          (rows.map TrialBalanceRow.endingCredit).sum) ∧
      (buildBalanceSheet asciiTable b (some 31) everything).toOption.any
        (fun sheet => sheet.totalAssets ≠ sheet.totalLiabilitiesAndEquity))
    (by decide +kernel)
  obtain ⟨hsums, hrows, hsheet⟩ := of_decide_eq_true hb
  exact ⟨b, hrun, hsums, ⟨_, rfl, of_decide_eq_true hrows⟩, _, rfl, of_decide_eq_true hsheet⟩

/-- The balance sheet after the same sale: half a cent is within the tolerance. -/
theorem posted_entries_balance_within_tolerance_uneven :
    ∃ b sheet, Run (ledgerStep asciiTable) (Books.fresh oneProfile cashAndRevenue) unevenSale b ∧
      buildBalanceSheet asciiTable b (some 31) everything = .ok sheet ∧
      |sheet.totalAssets - sheet.totalLiabilitiesAndEquity| ≤ 1 / 100 := by
  obtain ⟨b, hrun, hb⟩ := exists_guardedRun_of_any (ledgerStep asciiTable) (fun _ _ => True)
    (Books.fresh oneProfile cashAndRevenue) unevenSale
    (fun b => (scopeEntries asciiTable b everything (fun d => d ≤ 31)).length = 1 ∧
      (buildBalanceSheet asciiTable b (some 31) everything).toOption.any (fun sheet =>
        (sheetAccounts b.accounts.rows).length + 1 =
          sheet.assets.length + sheet.liabilities.length + sheet.equities.length))
    (by decide +kernel)
  obtain ⟨hone, hlisted⟩ := of_decide_eq_true hb
  refine ⟨b, _, hrun, rfl, ?_⟩
  have hle := (posted_entries_balance_within_tolerance _ _ hrun everything).2.2 31 _ rfl
  rw [hone] at hle
  have hcount := of_decide_eq_true hlisted
  have hzero := congrArg (fun n : ℕ => (n : ℚ)) hcount
  push_cast at hzero
  rw [hzero] at hle
  simpa using hle

end IpDocket.Accounting
