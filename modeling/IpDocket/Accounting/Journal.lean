import Mathlib.Algebra.Order.Ring.Rat
import Mathlib.Algebra.Order.Group.Unbundled.Abs
import Mathlib.Data.List.Sort
import IpDocket.Lib.Run
import IpDocket.Lib.Table
import IpDocket.Lib.Text

/-!
# The general journal and its accounting periods

The requests of `routes/ledger.py` that write to the journal, and `close_accounting_period`
and `reopen_accounting_period` of `accounting.py`. Requests come one after another, but the
billing connection is in autocommit mode and no request begins a transaction: when a line of
an entry is refused, the entry and the lines before it stay. Amounts are exact, and dates are
day numbers: the stored ISO texts compare as their days do. A form holds what `safe_int`,
`safe_float` and `parse_date` made of its fields. Who made a change and when is stored and
never read, and so are the codes and names of the accounts.
-/

namespace IpDocket.Accounting
open IpDocket.Lib

abbrev Date := Int

structure BusinessProfile where
  id : Int
  currency : Option Text
  id_pos : 0 < id

inductive AccountType
  | asset
  | liability
  | equity
  | revenue
  | expense
  deriving DecidableEq

structure Account where
  id : Int
  type : AccountType
  deriving DecidableEq

inductive SourceType
  | manual
  | reversal
  deriving DecidableEq

structure JournalEntry where
  id : Nat
  entryDate : Date
  memo : Text
  businessProfileId : Int
  sourceType : SourceType := .manual
  sourceId : Option Nat := none
  approved : Bool := false
  posted : Bool := false
  reversed : Bool := false
  reversalOfEntryId : Option Nat := none
  reversedByEntryId : Option Nat := none
  lockedPeriod : Bool := false
  lockedPeriodId : Option Nat := none
  deriving DecidableEq

structure JournalLine where
  id : Nat
  entryId : Nat
  accountId : Int
  debit : ℚ
  credit : ℚ
  currency : Option Text
  description : Text
  deriving DecidableEq

inductive PeriodStatus
  | opened
  | closed
  deriving DecidableEq

structure AccountingPeriod where
  id : Nat
  businessProfileId : Int
  periodType : String
  startDate : Date
  endDate : Date
  status : PeriodStatus
  notes : Option String
  deriving DecidableEq

structure Books where
  profiles : Keyed BusinessProfile.id
  accounts : Keyed Account.id
  entries : Table JournalEntry.id
  lines : Table JournalLine.id
  periods : Table AccountingPeriod.id

/-- Profiles and accounts are there before the first entry is. -/
def Books.fresh (profiles : Keyed BusinessProfile.id) (accounts : Keyed Account.id) : Books :=
  ⟨profiles, accounts, .empty _, .empty _, .empty _⟩

inductive LedgerError
  | notFound
  | integrityError
  | valueError
  | alreadyClosed (start stop : Date)
  | refused (text : String)
  deriving DecidableEq

inductive JournalStatus
  | draft
  | approved
  | posted
  | reversed
  deriving DecidableEq

def journalStatus (e : JournalEntry) : JournalStatus :=
  if e.reversed then .reversed
  else if e.posted then .posted
  else if e.approved then .approved
  else .draft

def AccountingPeriod.contains (p : AccountingPeriod) (bpId : Int) (date : Date) : Prop :=
  p.businessProfileId = bpId ∧ p.startDate ≤ date ∧ date ≤ p.endDate
  deriving Decidable

/-- `ORDER BY end_date DESC, id DESC`. -/
def AccountingPeriod.before (p q : AccountingPeriod) : Prop :=
  q.endDate < p.endDate ∨ (p.endDate = q.endDate ∧ q.id ≤ p.id)
  deriving Decidable

def getClosedPeriod (b : Books) (entryDate : Date) (bpId : Int) : Option AccountingPeriod :=
  if bpId = 0 then none
  else ((b.periods.rows.filter (fun p => p.status = .closed ∧ p.contains bpId entryDate)).insertionSort
    AccountingPeriod.before).head?

def linesOf (b : Books) (entryId : Nat) : List JournalLine :=
  b.lines.rows.filter (fun l => l.entryId = entryId)

def debitTotal (lines : List JournalLine) : ℚ := (lines.map JournalLine.debit).sum

def creditTotal (lines : List JournalLine) : ℚ := (lines.map JournalLine.credit).sum

/-- The test of `_entry_sums` in front of an approval or a posting. -/
def balanced (lines : List JournalLine) : Prop :=
  2 ≤ lines.length ∧ |debitTotal lines - creditTotal lines| ≤ 1 / 100
  deriving Decidable

/-- The values of an `INSERT INTO journal_lines`. -/
structure LineValues where
  accountId : Int
  debit : ℚ
  credit : ℚ
  currency : Option Text
  description : Text
  deriving DecidableEq

def LineValues.line (v : LineValues) (entryId id : Nat) : JournalLine :=
  ⟨id, entryId, v.accountId, v.debit, v.credit, v.currency, v.description⟩

lemma id_line (v : LineValues) (entryId id : Nat) : (v.line entryId id).id = id := rfl

/-- The driver sends no text with a NUL. -/
def sendable (t : Text) : Bool := '\x00' ∉ t

/-- The error of the `INSERT` of a line, if it has one. -/
def LineValues.refusal (accounts : Keyed Account.id) (v : LineValues) : Option LedgerError :=
  if ¬(sendable v.description ∧ v.currency.all sendable) then some .valueError
  else if (accounts.find v.accountId).isNone then some .integrityError
  else none

/-- The loop of `INSERT`s, each committed by itself. It ends at the first that is refused. -/
def insertLines (accounts : Keyed Account.id) (entryId : Nat) :
    List LineValues → Table JournalLine.id → Table JournalLine.id × Option LedgerError
  | [], lines => (lines, none)
  | v :: vs, lines =>
    match v.refusal accounts with
    | some err => (lines, some err)
    | none => insertLines accounts entryId vs (lines.insert (v.line entryId) (id_line v entryId))

/-- The books that a request leaves behind when it has come to write. With an error in
`failed` it has stopped in between. -/
structure Written where
  books : Books
  failed : Option LedgerError := none

def updateEntries (p : JournalEntry → Bool) (f : JournalEntry → JournalEntry)
    (hf : ∀ e, (f e).id = e.id) (b : Books) : Books :=
  { b with entries := b.entries.update (onRows p f) (key_onRows hf) }

def updatePeriods (p : AccountingPeriod → Bool) (f : AccountingPeriod → AccountingPeriod)
    (hf : ∀ q, (f q).id = q.id) (b : Books) : Books :=
  { b with periods := b.periods.update (onRows p f) (key_onRows hf) }

@[simp] lemma periods_updateEntries {p : JournalEntry → Bool} {f : JournalEntry → JournalEntry}
    (hf : ∀ e, (f e).id = e.id) (b : Books) : (updateEntries p f hf b).periods = b.periods := rfl

lemma find_updateEntries {k k' : Nat} {f : JournalEntry → JournalEntry}
    (hf : ∀ e, (f e).id = e.id) (b : Books) :
    (updateEntries (fun e => e.id = k') f hf b).entries.find k =
      if k = k' then (b.entries.find k).map f else b.entries.find k :=
  Table.find_update_key hf

lemma isSome_find_updateEntries {k : Nat} {p : JournalEntry → Bool}
    {f : JournalEntry → JournalEntry} (hf : ∀ e, (f e).id = e.id) (b : Books) :
    ((updateEntries p f hf b).entries.find k).isSome = (b.entries.find k).isSome := by
  rw [updateEntries, Table.find_update, Option.isSome_map]

lemma find_updatePeriods {k k' : Nat} {f : AccountingPeriod → AccountingPeriod}
    (hf : ∀ q, (f q).id = q.id) (b : Books) :
    (updatePeriods (fun q => q.id = k') f hf b).periods.find k =
      if k = k' then (b.periods.find k).map f else b.periods.find k :=
  Table.find_update_key hf

/-- An entry, and then its lines. -/
def insertEntry (make : Nat → JournalEntry) (hm : ∀ id, (make id).id = id)
    (values : List LineValues) (b : Books) : Except LedgerError Written := do
  require (sendable (make b.entries.next).memo) .valueError
  require (b.profiles.find (make b.entries.next).businessProfileId).isSome .integrityError
  let (lines, failed) := insertLines b.accounts b.entries.next values b.lines
  return { books := { b with entries := b.entries.insert make hm, lines := lines }, failed := failed }

structure JournalForm where
  entryDate : Option Date
  memo : Text
  businessProfileId : Option Int
  currency : Option Text
  accountIds : List (Option Int)
  debits : List ℚ
  credits : List ℚ
  descriptions : List Text

/-- One row of the form, or nothing when it has no account or no amount. -/
def formLine (f : JournalForm) (currency : Text) (idx : Nat) (acc : Option Int) :
    Except LedgerError (Option LineValues) :=
  match acc.filter (fun k => k ≠ 0) with
  | none => .ok none
  | some accId =>
    let debit := f.debits.getD idx 0
    let credit := f.credits.getD idx 0
    if 0 < debit ∧ 0 < credit then .error (.refused "/  enter.")
    else if debit ≤ 0 ∧ credit ≤ 0 then .ok none
    else .ok (some ⟨accId, debit, credit, some currency, pyStrip (f.descriptions.getD idx [])⟩)

def formLines (f : JournalForm) (currency : Text) :
    Nat → List (Option Int) → Except LedgerError (List LineValues)
  | _, [] => .ok []
  | idx, acc :: accs => do
    let line ← formLine f currency idx acc
    let rest ← formLines f currency (idx + 1) accs
    return line.toList ++ rest

variable (U : UpperTable)

/-- A missing or empty text counts as missing. -/
def nonempty (t : Option Text) : Option Text := t.filter (fun s => s ≠ [])

lemma getD_nonempty_ne_nil {t : Option Text} {s : Text} (hs : s ≠ []) :
    (nonempty t).getD s ≠ [] := by
  cases t with
  | none => exact hs
  | some t =>
    by_cases h : t = [] <;> simp [nonempty, Option.filter, h, hs]

/-- `default` is the first business profile, if there is one. -/
def journalNew (f : JournalForm) (default : Option BusinessProfile) (today : Date) (b : Books) :
    Except LedgerError Written := do
  let entryDate := f.entryDate.getD today
  let bpId := (f.businessProfileId.filter (fun k => k ≠ 0)).getD
    ((default.map BusinessProfile.id).getD 1)
  let currency := pyUpper U ((nonempty f.currency).getD
    ((nonempty (default.bind BusinessProfile.currency)).getD "USD".toList))
  let values ← formLines f currency 0 f.accountIds
  require (2 ≤ values.length) (.refused " 2 table required.")
  let debitSum := (values.map LineValues.debit).sum
  let creditSum := (values.map LineValues.credit).sum
  require (|debitSum - creditSum| ≤ 1 / 100) (.refused " Total does not match.")
  require (getClosedPeriod b entryDate bpId).isNone
    (.refused "Cannot save journal entry in a closed accounting period.")
  insertEntry
    (fun id => { id := id, entryDate := entryDate, memo := pyStrip f.memo, businessProfileId := bpId })
    (fun _ => rfl) values b

def journalApprove (entryId : Nat) (b : Books) : Except LedgerError Books :=
  match b.entries.find entryId with
  | none => .error .notFound
  | some e => do
    require (journalStatus e = .draft) (.refused "Draft Status table  exists.")
    require (getClosedPeriod b e.entryDate e.businessProfileId).isNone
      (.refused "Cannot approve a journal entry in a closed accounting period.")
    require (balanced (linesOf b entryId)) (.refused " table  not available.")
    return updateEntries (fun q => q.id = entryId) (fun q => { q with approved := true })
      (fun _ => rfl) b

def journalPost (entryId : Nat) (b : Books) : Except LedgerError Books :=
  match b.entries.find entryId with
  | none => .error .notFound
  | some e => do
    require (journalStatus e = .approved) (.refused " table  exists.")
    require (getClosedPeriod b e.entryDate e.businessProfileId).isNone
      (.refused "Cannot post a journal entry in a closed accounting period.")
    require (balanced (linesOf b entryId)) (.refused " table  not available.")
    return updateEntries (fun q => q.id = entryId) (fun q => { q with posted := true })
      (fun _ => rfl) b

/-- The line of a reversal: debit and credit change places. -/
def JournalLine.reverse (l : JournalLine) : LineValues where
  accountId := l.accountId
  debit := l.credit
  credit := l.debit
  currency := some (pyUpper U ((nonempty l.currency).getD "USD".toList))
  description := l.description

def reversalMemo (entryId : Nat) (reason base : Text) : Text :=
  let reason := pyStrip reason
  let base := pyStrip base
  let memo := if reason = [] then "items #".toList ++ pyDigits entryId else reason
  if base = [] then memo else memo ++ " | ".toList ++ base

/-- The new entry is approved and posted at once. The two readings of a missing profile
differ in their default. -/
def journalReverse (entryId : Nat) (reversalDate : Option Date) (today : Date) (reason : Text)
    (b : Books) : Except LedgerError Written :=
  match b.entries.find entryId with
  | none => .error .notFound
  | some e => do
    require (journalStatus e = .posted) (.refused " table items exists.")
    let date := reversalDate.getD today
    require (getClosedPeriod b date e.businessProfileId).isNone
      (.refused "Cannot reverse into a closed accounting period.")
    let lines := linesOf b entryId
    require (2 ≤ lines.length) (.refused " table items not available.")
    let reversalId := b.entries.next
    let w ← insertEntry
      (fun id =>
        { id := id
          entryDate := date
          memo := reversalMemo entryId reason e.memo
          businessProfileId := if e.businessProfileId = 0 then 1 else e.businessProfileId
          sourceType := .reversal
          sourceId := some entryId
          approved := true
          posted := true
          reversalOfEntryId := some entryId })
      (fun _ => rfl) (lines.map (JournalLine.reverse U)) b
    match w.failed with
    | some _ => return w
    | none =>
      return {
        books := updateEntries (fun q => q.id = entryId)
          (fun q => { q with reversed := true, reversedByEntryId := some reversalId })
          (fun _ => rfl) w.books }

def deleteLines (entryId : Nat) (lines : Table JournalLine.id) : Table JournalLine.id where
  rows := lines.rows.filter (fun l => l.entryId ≠ entryId)
  next := lines.next
  ordered := lines.ordered.filter _
  fresh := fun l hl => lines.fresh l (List.mem_filter.mp hl).1

def journalDelete (entryId : Nat) (b : Books) : Except LedgerError Books :=
  match b.entries.find entryId with
  | none => .error .notFound
  | some e => do
    require (journalStatus e = .draft)
      (.refused "Draft Status table Delete exists. table items .")
    return { b with lines := deleteLines entryId b.lines, entries := b.entries.delete entryId }

structure PeriodForm where
  businessProfileId : Option Int
  startDate : Option Date
  endDate : Option Date
  notes : String
  periodType : String

def PeriodForm.storedNotes (f : PeriodForm) : Option String :=
  if f.notes = "" then none else some f.notes

def AccountingPeriod.overlaps (p : AccountingPeriod) (bpId : Int) (start stop : Date) : Prop :=
  p.businessProfileId = bpId ∧ p.status = .closed ∧ p.startDate ≤ stop ∧ start ≤ p.endDate
  deriving Decidable

/-- `ORDER BY start_date ASC LIMIT 1`. -/
def firstOverlap (bpId : Int) (start stop : Date) (b : Books) : Option AccountingPeriod :=
  ((b.periods.rows.filter (fun p => p.overlaps bpId start stop)).insertionSort
    (fun p q => p.startDate ≤ q.startDate)).head?

def checkOverlap : Option AccountingPeriod → Except LedgerError Unit
  | some p => .error (.alreadyClosed p.startDate p.endDate)
  | none => .ok ()

/-- The entry keeps the period from being closed. -/
def JournalEntry.pending (e : JournalEntry) (bpId : Int) (start stop : Date) : Prop :=
  e.businessProfileId = bpId ∧ start ≤ e.entryDate ∧ e.entryDate ≤ stop ∧
    e.posted = false ∧ e.reversed = false
  deriving Decidable

def lockEntries (periodId : Nat) (bpId : Int) (start stop : Date) (b : Books) : Books :=
  updateEntries
    (fun e => e.businessProfileId = bpId ∧ start ≤ e.entryDate ∧ e.entryDate ≤ stop)
    (fun e => { e with lockedPeriod := true, lockedPeriodId := some periodId }) (fun _ => rfl) b

/-- The row of the period, closed: the one with these dates if there is one, else a new one. -/
def storeClosedPeriod (f : PeriodForm) (bpId : Int) (start stop : Date) (b : Books) :
    Except LedgerError (Nat × Books) :=
  match b.periods.rows.find? (fun p =>
      p.businessProfileId = bpId ∧ p.startDate = start ∧ p.endDate = stop) with
  | some existing => .ok (existing.id,
      updatePeriods (fun p => p.id = existing.id)
        (fun p => { p with periodType := f.periodType, status := .closed, notes := f.storedNotes })
        (fun _ => rfl) b)
  | none => do
    require (b.profiles.find bpId).isSome .integrityError
    return (b.periods.next,
      { b with
        periods := b.periods.insert
          (fun id => ⟨id, bpId, f.periodType, start, stop, .closed, f.storedNotes⟩) (fun _ => rfl) })

def closeAccountingPeriod (f : PeriodForm) (b : Books) : Except LedgerError Books :=
  match f.startDate, f.endDate with
  | some first, some last => do
    let start := min first last
    let stop := max first last
    let bpId := f.businessProfileId.getD 0
    require (bpId ≠ 0) (.refused "Business profile select.")
    checkOverlap (firstOverlap bpId start stop b)
    require (b.entries.rows.all (fun e => ¬e.pending bpId start stop))
      (.refused "Cannot close period while unposted journal entries exist.")
    require (sendable f.notes.toList ∧ sendable f.periodType.toList) .valueError
    let (periodId, b) ← storeClosedPeriod f bpId start stop b
    return lockEntries periodId bpId start stop b
  | _, _ => .error (.refused "deadline Period confirm.")

def unlockEntries (periodId : Nat) (b : Books) : Books :=
  updateEntries (fun e => e.lockedPeriodId = some periodId)
    (fun e => { e with lockedPeriod := false, lockedPeriodId := none }) (fun _ => rfl) b

def reopenAccountingPeriod (periodId : Nat) (b : Books) : Except LedgerError Books :=
  match b.periods.find periodId with
  | none => .error (.refused "timesPeriod not found.")
  | some _ => .ok (unlockEntries periodId
      (updatePeriods (fun p => p.id = periodId) (fun p => { p with status := .opened })
        (fun _ => rfl) b))

inductive LedgerRequest
  | journalNew (f : JournalForm) (default : Option BusinessProfile) (today : Date)
  | journalApprove (entryId : Nat)
  | journalPost (entryId : Nat)
  | journalReverse (entryId : Nat) (reversalDate : Option Date) (today : Date) (reason : Text)
  | journalDelete (entryId : Nat)
  | closeAccountingPeriod (f : PeriodForm)
  | reopenAccountingPeriod (periodId : Nat)

def handle (b : Books) : LedgerRequest → Except LedgerError Written
  | .journalNew f default today => journalNew U f default today b
  | .journalApprove entryId => (journalApprove entryId b).map (fun b => { books := b })
  | .journalPost entryId => (journalPost entryId b).map (fun b => { books := b })
  | .journalReverse entryId date today reason => journalReverse U entryId date today reason b
  | .journalDelete entryId => (journalDelete entryId b).map (fun b => { books := b })
  | .closeAccountingPeriod f => (closeAccountingPeriod f b).map (fun b => { books := b })
  | .reopenAccountingPeriod periodId =>
    (reopenAccountingPeriod periodId b).map (fun b => { books := b })

/-- A request that is refused before it writes is no step; one that fails later is. -/
def ledgerStep (b : Books) (r : LedgerRequest) : Option Books :=
  (handle U b r).toOption.map Written.books

/-! ### What a request has done -/

variable {U}

lemma ledgerStep_eq_some {b b' : Books} {r : LedgerRequest} :
    ledgerStep U b r = some b' ↔ ∃ w, handle U b r = .ok w ∧ w.books = b' := by
  unfold ledgerStep
  cases handle U b r <;> simp [Except.toOption]

/-- A request that does all its writing or nothing. -/
lemma written_eq_ok {x : Except LedgerError Books} {w : Written}
    (h : x.map (fun b => ({ books := b } : Written)) = .ok w) : x = .ok w.books := by
  cases x with
  | error e => cases h
  | ok b =>
    cases h
    rfl

lemma getClosedPeriod_eq_none {b : Books} {date : Date} {bpId : Int} (hbp : bpId ≠ 0)
    (h : (getClosedPeriod b date bpId).isNone = true) {p : AccountingPeriod}
    (hp : p ∈ b.periods.rows) (hclosed : p.status = .closed) : ¬p.contains bpId date := by
  intro hcontains
  rw [getClosedPeriod, if_neg hbp, Option.isNone_iff_eq_none, List.head?_eq_none_iff] at h
  have hmem : p ∈ b.periods.rows.filter
      (fun q => q.status = .closed ∧ q.contains bpId date) :=
    List.mem_filter.mpr ⟨hp, decide_eq_true ⟨hclosed, hcontains⟩⟩
  rw [← List.mem_insertionSort AccountingPeriod.before, h] at hmem
  cases hmem

lemma checkOverlap_eq_ok {b : Books} {bpId : Int} {start stop : Date} {u : Unit}
    (h : checkOverlap (firstOverlap bpId start stop b) = .ok u) {p : AccountingPeriod}
    (hp : p ∈ b.periods.rows) : ¬p.overlaps bpId start stop := by
  intro hoverlaps
  cases hfirst : firstOverlap bpId start stop b with
  | some q =>
    rw [hfirst] at h
    cases h
  | none =>
    rw [firstOverlap, List.head?_eq_none_iff] at hfirst
    have hmem : p ∈ b.periods.rows.filter (fun q => q.overlaps bpId start stop) :=
      List.mem_filter.mpr ⟨hp, decide_eq_true hoverlaps⟩
    rw [← List.mem_insertionSort (fun p q : AccountingPeriod => p.startDate ≤ q.startDate),
      hfirst] at hmem
    cases hmem

/-- The lines that a loop of `INSERT`s adds. -/
def numberLines (entryId : Nat) : Nat → List LineValues → List JournalLine
  | _, [] => []
  | id, v :: vs => v.line entryId id :: numberLines entryId (id + 1) vs

lemma entryId_of_mem_numberLines {entryId id : Nat} {vs : List LineValues} {l : JournalLine}
    (h : l ∈ numberLines entryId id vs) : l.entryId = entryId := by
  induction vs generalizing id with
  | nil => cases h
  | cons v vs ih =>
    rcases List.mem_cons.mp h with rfl | h
    · rfl
    · exact ih h

/-- The loop gets through a part of the lines, and to the end unless one is refused. -/
lemma insertLines_spec (accounts : Keyed Account.id) (entryId : Nat) (vs : List LineValues)
    (lines : Table JournalLine.id) :
    ∃ done, (insertLines accounts entryId vs lines).1.rows =
        lines.rows ++ numberLines entryId lines.next done ∧
      done ⊆ vs ∧ (∀ v ∈ done, v.refusal accounts = none) ∧
      ((done = vs ∧ (insertLines accounts entryId vs lines).2 = none) ∨
        ∃ v ∈ vs, v.refusal accounts ≠ none ∧
          (insertLines accounts entryId vs lines).2 = v.refusal accounts) := by
  induction vs generalizing lines with
  | nil => exact ⟨[], by simp [insertLines, numberLines]⟩
  | cons v vs ih =>
    unfold insertLines
    cases hv : v.refusal accounts with
    | some err =>
      refine ⟨[], by simp [numberLines], List.nil_subset _, by simp, .inr ?_⟩
      exact ⟨v, List.mem_cons_self, by simp [hv], hv.symm⟩
    | none =>
      obtain ⟨done, hrows, hsub, hdone, hend⟩ :=
        ih (lines.insert (v.line entryId) (id_line v entryId))
      refine ⟨v :: done, ?_, List.cons_subset_cons v hsub, ?_, ?_⟩
      · dsimp only
        rw [hrows, numberLines]
        exact List.append_assoc _ [_] _
      · exact List.forall_mem_cons.mpr ⟨hv, hdone⟩
      · rcases hend with ⟨rfl, hnone⟩ | ⟨w, hw, hrefused⟩
        · exact .inl ⟨rfl, hnone⟩
        · exact .inr ⟨w, List.mem_cons_of_mem _ hw, hrefused⟩

lemma refusal_eq_none {accounts : Keyed Account.id} {v : LineValues} :
    v.refusal accounts = none ↔ (sendable v.description = true ∧ v.currency.all sendable = true) ∧
      (accounts.find v.accountId).isSome = true := by
  unfold LineValues.refusal
  split
  · next h => simp only [reduceCtorEq, false_iff, not_and, h, false_implies]
  · next h =>
    rw [not_not] at h
    split
    · next hnone => simp_all
    · next hsome => simp_all [Option.isNone_iff_eq_none, Option.isSome_iff_ne_none]

/-- What `insertEntry` adds to the books when it gets through the lines `done`. -/
structure Inserted (make : Nat → JournalEntry) (hm : ∀ id, (make id).id = id)
    (done : List LineValues) (b b' : Books) : Prop where
  profiles : b'.profiles = b.profiles
  accounts : b'.accounts = b.accounts
  periods : b'.periods = b.periods
  entries : b'.entries = b.entries.insert make hm
  lines : b'.lines.rows = b.lines.rows ++ numberLines b.entries.next b.lines.next done
  profile : (b.profiles.find (make b.entries.next).businessProfileId).isSome = true
  stored : ∀ v ∈ done, v.refusal b.accounts = none

lemma Inserted.account {make : Nat → JournalEntry} {hm : ∀ id, (make id).id = id}
    {done : List LineValues} {b b' : Books} (h : Inserted make hm done b b') :
    ∀ v ∈ done, (b.accounts.find v.accountId).isSome = true :=
  fun v hv => (refusal_eq_none.mp (h.stored v hv)).2

lemma insertEntry_eq_ok {make : Nat → JournalEntry} {hm : ∀ id, (make id).id = id}
    {values : List LineValues} {b : Books} {w : Written}
    (h : insertEntry make hm values b = .ok w) :
    ∃ done, Inserted make hm done b w.books ∧ done ⊆ values ∧
      ((done = values ∧ w.failed = none) ∨
        ∃ v ∈ values, v.refusal b.accounts ≠ none ∧ w.failed = v.refusal b.accounts) := by
  simp only [insertEntry, except_bind_eq_ok, require_eq_ok, exists_const] at h
  obtain ⟨-, hprofile, hw⟩ := h
  cases hw
  obtain ⟨done, hrows, hsub, hstored, hend⟩ :=
    insertLines_spec b.accounts b.entries.next values b.lines
  exact ⟨done, ⟨rfl, rfl, rfl, rfl, hrows, hprofile, hstored⟩, hsub, hend⟩

lemma profile_ne_zero {t : Keyed BusinessProfile.id} {bpId : Int}
    (h : (t.find bpId).isSome = true) : bpId ≠ 0 := by
  obtain ⟨p, hp⟩ := Option.isSome_iff_exists.mp h
  have hpos := p.id_pos
  rw [Keyed.key_of_find hp] at hpos
  omega

/-- No closed period of the profile contains the date. -/
def NotClosed (b : Books) (bpId : Int) (date : Date) : Prop :=
  ∀ p ∈ b.periods.rows, p.status = .closed → ¬p.contains bpId date

lemma currency_formLines {f : JournalForm} {currency : Text} {idx : Nat}
    {accs : List (Option Int)} {values : List LineValues}
    (h : formLines f currency idx accs = .ok values) : ∀ v ∈ values, v.currency = some currency := by
  induction accs generalizing idx values with
  | nil =>
    cases h
    simp
  | cons acc accs ih =>
    simp only [formLines, except_bind_eq_ok] at h
    obtain ⟨line, hline, rest, hrest, hvalues⟩ := h
    cases hvalues
    intro v hv
    rcases List.mem_append.mp hv with hv | hv
    · rw [Option.mem_toList] at hv
      subst hv
      unfold formLine at hline
      split at hline
      · cases hline
      · dsimp only at hline
        split at hline
        · cases hline
        · split at hline
          · cases hline
          · cases hline
            rfl
    · exact ih hrest v hv

lemma journalNew_eq_ok {f : JournalForm} {default : Option BusinessProfile} {today : Date}
    {b : Books} {w : Written} (h : journalNew U f default today b = .ok w) :
    ∃ (e : JournalEntry) (t : Text) (done : List LineValues),
      Inserted (fun id => { e with id := id }) (fun _ => rfl) done b w.books ∧
      t ≠ [] ∧ (∀ v ∈ done, v.currency = some (pyUpper U t)) ∧
      NotClosed b e.businessProfileId e.entryDate ∧
      e.approved = false ∧ e.posted = false ∧ e.lockedPeriod = false ∧ e.reversed = false ∧
      e.reversalOfEntryId = none := by
  simp only [journalNew, except_bind_eq_ok, require_eq_ok, exists_const, decide_eq_true_eq] at h
  obtain ⟨values, hvalues, -, -, hclosed, hinsert⟩ := h
  obtain ⟨done, hinserted, hsub, -⟩ := insertEntry_eq_ok hinsert
  refine ⟨{ id := 0, entryDate := _, memo := _, businessProfileId := _ }, _, done, hinserted,
    ?_, fun v hv => currency_formLines hvalues v (hsub hv), ?_, rfl, rfl, rfl, rfl, rfl⟩
  · exact getD_nonempty_ne_nil (getD_nonempty_ne_nil (by decide))
  · intro p hp hpc
    exact getClosedPeriod_eq_none (profile_ne_zero hinserted.profile) hclosed hp hpc

lemma journalApprove_eq_ok {entryId : Nat} {b b' : Books}
    (h : journalApprove entryId b = .ok b') :
    balanced (linesOf b entryId) ∧
      b' = updateEntries (fun q => q.id = entryId) (fun q => { q with approved := true })
        (fun _ => rfl) b := by
  unfold journalApprove at h
  split at h
  · cases h
  · next e he =>
    simp only [except_bind_eq_ok, require_eq_ok, exists_const, decide_eq_true_eq] at h
    obtain ⟨-, -, hbalanced, hb⟩ := h
    cases hb
    exact ⟨hbalanced, rfl⟩

lemma journalPost_eq_ok {entryId : Nat} {b b' : Books} (h : journalPost entryId b = .ok b') :
    ∃ e, b.entries.find entryId = some e ∧
      (getClosedPeriod b e.entryDate e.businessProfileId).isNone = true ∧
      balanced (linesOf b entryId) ∧
      b' = updateEntries (fun q => q.id = entryId) (fun q => { q with posted := true })
        (fun _ => rfl) b := by
  unfold journalPost at h
  split at h
  · cases h
  · next e he =>
    simp only [except_bind_eq_ok, require_eq_ok, exists_const, decide_eq_true_eq] at h
    obtain ⟨-, hclosed, hbalanced, hb⟩ := h
    cases hb
    exact ⟨e, he, hclosed, hbalanced, rfl⟩

lemma posted_of_status {e : JournalEntry} (h : journalStatus e = .posted) : e.posted = true := by
  unfold journalStatus at h
  split at h
  · cases h
  · split at h
    · assumption
    · split at h <;> cases h

lemma not_posted_of_draft {e : JournalEntry} (h : journalStatus e = .draft) : e.posted = false := by
  unfold journalStatus at h
  split at h
  · cases h
  · split at h
    · cases h
    · simpa using ‹¬e.posted = true›

/-- The reversal is there, with all its lines unless one of them is refused; then the original
is not marked. -/
lemma journalReverse_eq_ok {entryId : Nat} {date : Option Date} {today : Date} {reason : Text}
    {b : Books} {w : Written} (h : journalReverse U entryId date today reason b = .ok w) :
    ∃ (e new : JournalEntry) (b₁ : Books) (done : List LineValues),
      b.entries.find entryId = some e ∧ e.posted = true ∧
      Inserted (fun id => { new with id := id }) (fun _ => rfl) done b b₁ ∧
      (e.businessProfileId ≠ 0 → NotClosed b new.businessProfileId new.entryDate) ∧
      new.posted = true ∧ new.lockedPeriod = false ∧ new.reversed = false ∧
      ((done = (linesOf b entryId).map (JournalLine.reverse U) ∧
          w.books = updateEntries (fun q => q.id = entryId)
            (fun q => { q with reversed := true, reversedByEntryId := some b.entries.next })
            (fun _ => rfl) b₁) ∨
        (w.books = b₁ ∧ ∃ l ∈ linesOf b entryId, (l.reverse U).refusal b.accounts ≠ none)) := by
  unfold journalReverse at h
  split at h
  · cases h
  · next e he =>
    simp only [except_bind_eq_ok, require_eq_ok, exists_const, decide_eq_true_eq] at h
    obtain ⟨hstatus, hclosed, -, w₁, hinsert, hw⟩ := h
    obtain ⟨done, hinserted, -, hend⟩ := insertEntry_eq_ok hinsert
    refine ⟨e,
      { id := 0, entryDate := date.getD today, memo := reversalMemo entryId reason e.memo
        businessProfileId := if e.businessProfileId = 0 then 1 else e.businessProfileId
        sourceType := .reversal, sourceId := some entryId, approved := true, posted := true
        reversalOfEntryId := some entryId },
      w₁.books, done, he, posted_of_status hstatus, hinserted, ?_, rfl, rfl, rfl, ?_⟩
    · intro hbp p hp hpc
      rw [if_neg hbp]
      exact getClosedPeriod_eq_none hbp hclosed hp hpc
    · rcases hend with ⟨hall, hnone⟩ | ⟨v, hv, hrefused, hfailed⟩
      · rw [hnone] at hw
        cases hw
        exact .inl ⟨hall, rfl⟩
      · obtain ⟨err, herr⟩ := Option.ne_none_iff_exists'.mp hrefused
        rw [hfailed, herr] at hw
        cases hw
        obtain ⟨l, hl, rfl⟩ := List.mem_map.mp hv
        exact .inr ⟨rfl, l, hl, hrefused⟩

lemma journalDelete_eq_ok {entryId : Nat} {b b' : Books} (h : journalDelete entryId b = .ok b') :
    ∃ e, b.entries.find entryId = some e ∧ e.posted = false ∧
      b' = { b with
        lines := deleteLines entryId b.lines
        entries := b.entries.delete entryId } := by
  unfold journalDelete at h
  split at h
  · cases h
  · next e he =>
    simp only [except_bind_eq_ok, require_eq_ok, exists_const, decide_eq_true_eq] at h
    obtain ⟨hstatus, hb⟩ := h
    cases hb
    exact ⟨e, he, not_posted_of_draft hstatus, rfl⟩

/-- The row of a period that has just been closed. It is a new one, or one that was open. -/
structure StoredClosed (p : AccountingPeriod) (b b' : Books) : Prop where
  profiles : b'.profiles = b.profiles
  accounts : b'.accounts = b.accounts
  entries : b'.entries = b.entries
  lines : b'.lines = b.lines
  found : b'.periods.find p.id = some p
  closed : p.status = .closed
  others : ∀ k ≠ p.id, b'.periods.find k = b.periods.find k
  before : ∀ q, b.periods.find p.id = some q →
    q.businessProfileId = p.businessProfileId ∧ q.startDate = p.startDate ∧ q.endDate = p.endDate

lemma storeClosedPeriod_eq_ok {f : PeriodForm} {bpId : Int} {start stop : Date} {b b' : Books}
    {periodId : Nat} (h : storeClosedPeriod f bpId start stop b = .ok (periodId, b')) :
    ∃ p, StoredClosed p b b' ∧ p.id = periodId ∧ p.businessProfileId = bpId ∧
      p.startDate = start ∧ p.endDate = stop := by
  unfold storeClosedPeriod at h
  split at h
  · next existing hfind =>
    cases h
    have hmem := List.mem_of_find?_eq_some hfind
    have hrow := List.find?_some hfind
    obtain ⟨hbp, hstart, hstop⟩ := of_decide_eq_true hrow
    have hkey := Table.find_of_mem hmem
    refine ⟨{ existing with periodType := f.periodType, status := .closed, notes := f.storedNotes },
      ⟨rfl, rfl, rfl, rfl, ?_, rfl, ?_, ?_⟩, rfl, hbp, hstart, hstop⟩
    · rw [find_updatePeriods, if_pos rfl, hkey]
      rfl
    · intro k hk
      rw [find_updatePeriods, if_neg hk]
    · intro q hq
      rw [hkey] at hq
      cases hq
      exact ⟨rfl, rfl, rfl⟩
  · simp only [except_bind_eq_ok, require_eq_ok, exists_const] at h
    obtain ⟨-, hb⟩ := h
    cases hb
    refine ⟨⟨b.periods.next, bpId, f.periodType, start, stop, .closed, f.storedNotes⟩,
      ⟨rfl, rfl, rfl, rfl, Table.find_insert_next _, rfl, ?_, ?_⟩, rfl, rfl, rfl, rfl⟩
    · intro k hk
      exact Table.find_insert_of_ne _ hk
    · intro q hq
      rw [Table.find_next] at hq
      cases hq

lemma closeAccountingPeriod_eq_ok {f : PeriodForm} {b b' : Books}
    (h : closeAccountingPeriod f b = .ok b') :
    ∃ (p : AccountingPeriod) (b₁ : Books), StoredClosed p b b₁ ∧ p.startDate ≤ p.endDate ∧
      p.businessProfileId ≠ 0 ∧
      (∀ q ∈ b.periods.rows, ¬q.overlaps p.businessProfileId p.startDate p.endDate) ∧
      (∀ e ∈ b.entries.rows, ¬e.pending p.businessProfileId p.startDate p.endDate) ∧
      b' = lockEntries p.id p.businessProfileId p.startDate p.endDate b₁ := by
  unfold closeAccountingPeriod at h
  split at h
  · next first last _ _ =>
    simp only [except_bind_eq_ok, require_eq_ok, exists_const, decide_eq_true_eq,
      List.all_eq_true] at h
    obtain ⟨hbp, _, hoverlap, hpending, _, ⟨periodId, b₁⟩, hstore, hb⟩ := h
    obtain ⟨p, hp, rfl, hpbp, hstart, hstop⟩ := storeClosedPeriod_eq_ok hstore
    cases hb
    refine ⟨p, b₁, hp, ?_, ?_, ?_, ?_, ?_⟩
    · rw [hstart, hstop]
      exact min_le_max
    · rw [hpbp]
      exact hbp
    · intro q hq
      rw [hpbp, hstart, hstop]
      exact checkOverlap_eq_ok hoverlap hq
    · rw [hpbp, hstart, hstop]
      exact hpending
    · rw [hpbp, hstart, hstop]
  · cases h

lemma reopenAccountingPeriod_eq_ok {periodId : Nat} {b b' : Books}
    (h : reopenAccountingPeriod periodId b = .ok b') :
    b' = unlockEntries periodId
      (updatePeriods (fun p => p.id = periodId) (fun p => { p with status := .opened })
        (fun _ => rfl) b) := by
  unfold reopenAccountingPeriod at h
  split at h
  · cases h
  · cases h
    rfl

def JournalLine.values (l : JournalLine) : LineValues :=
  ⟨l.accountId, l.debit, l.credit, l.currency, l.description⟩

/-- Debit and credit change places, and nothing else does. -/
def LineValues.exchange (v : LineValues) : LineValues :=
  { v with debit := v.credit, credit := v.debit }

/-- The currency of a reversal is that of the line. -/
def NormalCurrency (U : UpperTable) (currency : Option Text) : Prop :=
  some (pyUpper U ((nonempty currency).getD "USD".toList)) = currency

lemma normalCurrency_upper {t : Text} (ht : t ≠ []) : NormalCurrency U (some (pyUpper U t)) := by
  have hne : pyUpper U t ≠ [] := by
    cases t with
    | nil => exact absurd rfl ht
    | cons c t =>
      intro hnil
      rw [pyUpper, List.flatMap_cons] at hnil
      exact U.up_ne_nil c (List.append_eq_nil_iff.mp hnil).1
  have hsome : nonempty (some (pyUpper U t)) = some (pyUpper U t) := by
    simp [nonempty, hne]
  rw [NormalCurrency, hsome, Option.getD_some, pyUpper_pyUpper]

lemma normalCurrency_reverse (l : JournalLine) : NormalCurrency U (l.reverse U).currency :=
  normalCurrency_upper (getD_nonempty_ne_nil (by decide))

lemma reverse_eq_exchange {l : JournalLine} (h : NormalCurrency U l.currency) :
    l.reverse U = l.values.exchange := by
  rw [JournalLine.reverse, h]
  rfl

/-- A line that has been stored can be reversed. -/
lemma refusal_reverse {accounts : Keyed Account.id} {l : JournalLine}
    (h : NormalCurrency U l.currency) (hl : l.values.refusal accounts = none) :
    (l.reverse U).refusal accounts = none := by
  rw [reverse_eq_exchange h, refusal_eq_none]
  exact refusal_eq_none.mp hl

end IpDocket.Accounting
