import IpDocket.Lib.Run
import IpDocket.Lib.Text

/-!
# Invoice numbers

`next_invoice_number` counts the invoices of a day in `invoice_number_counters`. Its statements
are steps of sessions that run at the same time, next to the statements that store numbers on
invoices. `SELECT ... FOR UPDATE` waits for a session that has selected the row and not yet
committed; the first `INSERT` of a key wins and the others wait for it, fail and try again.

`returned` and `rejected` are history variables: the numbers that were handed out, each with the
numbers stored at that moment, and the automatic numbers that the constraint
`UNIQUE (business_profile_id, number)` rejected.
-/

namespace IpDocket.Billing
open IpDocket.Lib

/-- `f"{prefix}{n:04d}"`. -/
def renderNumber (pre : Text) (n : Nat) : Text := pre ++ padLeft '0' 4 (pyDigits n)

/-- The largest value of a column `INTEGER`. -/
def maxInteger : Nat := 2147483647

section Numbers

variable (T : DigitTables)

/-- `_extract_invoice_date_key`: the date of a prefix `INV-YYYYMMDD-`, or the prefix itself. -/
def extractInvoiceDateKey (pre : Text) : Text :=
  let p := pyStrip pre
  let digits := (p.drop 4).take 8
  if p = "INV-".toList ++ digits ++ "-".toList ∧ digits.length = 8 ∧
    digits.all (fun c => (T.decimal c).isSome) then digits else p

/-- `int(suffix)` if `suffix.isdigit()`. A digit that is not decimal and a text of more than
4300 digits raise, and the number is passed over. -/
def suffixSeq (suffix : Text) : Option Nat :=
  if suffix ≠ [] ∧ suffix.all (fun c => (T.decimal c).isSome) ∧ suffix.length ≤ 4300 then
    some (decimalValue T.toUnicodeTables suffix)
  else none

/-- `_max_existing_invoice_no_for_prefix`. -/
def maxExistingInvoiceNoForPrefix (numbers : List Text) (pre : Text) : Nat :=
  let found := numbers.filter (sqlLike (pre ++ ['%']))
  found.foldl
    (fun maxNo num =>
      if pre.isPrefixOf num then
        match suffixSeq T (pyStrip (num.drop pre.length)) with
        | some seq => max maxNo seq
        | none => maxNo
      else maxNo)
    0

end Numbers

structure NumberRow where
  businessProfileId : Nat
  number : Text
  deriving DecidableEq

/-- What a statement does to the numbers of the invoices. -/
inductive NumberWrite
  | insert (row : NumberRow)
  | update (old row : NumberRow)
  | delete (old : NumberRow)
  deriving DecidableEq

def NumberWrite.row? : NumberWrite → Option NumberRow
  | .insert row => some row
  | .update _ row => some row
  | .delete _ => none

def NumberWrite.old? : NumberWrite → Option NumberRow
  | .insert _ => none
  | .update old _ => some old
  | .delete old => some old

/-- The rows whose number the write takes or gives up. -/
def NumberWrite.touches (w : NumberWrite) (row : NumberRow) : Bool :=
  w.row? = some row ∨ w.old? = some row

def NumberWrite.apply (rows : List NumberRow) : NumberWrite → List NumberRow
  | .insert row => rows ++ [row]
  | .update old row => rows.map (fun r => if r = old then row else r)
  | .delete old => rows.filter (· ≠ old)

def applyWrites (rows : List NumberRow) (writes : List NumberWrite) : List NumberRow :=
  writes.foldl NumberWrite.apply rows

/-- Where a call is: before its `SELECT`, with the row locked, with the row written, before
the search for the highest stored number, before its `INSERT`, and after it. -/
inductive NumberPhase
  | idle
  | selecting (pre : Text) (attempt : Nat)
  | updating (pre : Text) (attempt n : Nat)
  | updated (pre : Text) (attempt n : Nat)
  | scanning (pre : Text) (attempt : Nat)
  | inserting (pre : Text) (attempt n : Nat)
  | inserted (pre : Text) (attempt n : Nat)
  deriving DecidableEq

/-- `issued` is the number that a call has returned to the request and that is not yet
committed with its invoice. -/
structure NumberSession where
  phase : NumberPhase := .idle
  issued : Option Text := none
  writes : List NumberWrite := []
  deriving DecidableEq

structure ReturnedNumber where
  pre : Text
  n : Nat
  stored : List Text
  deriving DecidableEq

def ReturnedNumber.number (r : ReturnedNumber) : Text := renderNumber r.pre r.n

structure NumberState where
  counters : List (Text × Nat)
  invoices : List NumberRow
  sessions : List NumberSession
  returned : List ReturnedNumber
  rejected : List Text

/-- No counter has been seeded; any invoices may be there. -/
def NumberState.initial (invoices : List NumberRow) : NumberState := ⟨[], invoices, [], [], []⟩

def NumberState.numbers (s : NumberState) : List Text := s.invoices.map NumberRow.number

inductive SessionStatement
  | start (pre : Text)
  | selectCounter
  | updateCounter
  | selectNumbers
  | insertCounter
  | commitCounter
  | error (retry : Bool)
  | storeIssued (businessProfileId : Nat)
  | write (w : NumberWrite)
  | commit
  | rollback

inductive NumberAction
  | connect
  | session (i : Nat) (a : SessionStatement)

/-- The prefix and the attempt of the call in progress. -/
def NumberPhase.call? : NumberPhase → Option (Text × Nat)
  | .idle => none
  | .selecting pre attempt => some (pre, attempt)
  | .updating pre attempt _ => some (pre, attempt)
  | .updated pre attempt _ => some (pre, attempt)
  | .scanning pre attempt => some (pre, attempt)
  | .inserting pre attempt _ => some (pre, attempt)
  | .inserted pre attempt _ => some (pre, attempt)

/-- The call may try again: `attempt < max_attempts - 1`. -/
def nextAttempt (pre : Text) (attempt : Nat) : NumberPhase :=
  if attempt < 7 then .selecting pre (attempt + 1) else .idle

section Steps

variable (T : DigitTables)

/-- The key of the row that the session holds until it commits. -/
def NumberPhase.held? : NumberPhase → Option Text
  | .updating pre _ _ => some (extractInvoiceDateKey T pre)
  | .updated pre _ _ => some (extractInvoiceDateKey T pre)
  | .inserted pre _ _ => some (extractInvoiceDateKey T pre)
  | _ => none

def NumberState.locked (s : NumberState) (i : Nat) (key : Text) : Bool :=
  (s.sessions.eraseIdx i).any (fun u => u.phase.held? T = some key)

/-- Another session has written the row and not yet committed. -/
def NumberState.blocked (s : NumberState) (i : Nat) (row : NumberRow) : Bool :=
  (s.sessions.eraseIdx i).any (fun u => u.writes.any (fun w => w.touches row))

/-- The number is handed out with the commit. -/
def returnNumber (s : NumberState) (t : NumberSession) (pre : Text) (n : Nat) :
    NumberState × NumberSession :=
  ({ s with
      counters := (extractInvoiceDateKey T pre, n) :: s.counters
      returned := ⟨pre, n, s.numbers⟩ :: s.returned },
    { t with phase := .idle, issued := some (renderNumber pre n) })

/-- The statements of `next_invoice_number`. -/
def counterStep (s : NumberState) (i : Nat) (t : NumberSession) :
    SessionStatement → Option (NumberState × NumberSession)
  | .start pre =>
    if t.phase = .idle ∧ t.issued = none ∧ t.writes = [] then
      -- an empty key is answered with an error
      if extractInvoiceDateKey T pre = [] then some (s, t)
      else some (s, { t with phase := .selecting pre 0 })
    else none
  | .selectCounter =>
    match t.phase with
    | .selecting pre attempt =>
      let key := extractInvoiceDateKey T pre
      match s.counters.lookup key with
      | some lastNo =>
        if s.locked T i key then none
        else some (s, { t with phase := .updating pre attempt (lastNo + 1) })
      | none => some (s, { t with phase := .scanning pre attempt })
    | _ => none
  | .updateCounter =>
    match t.phase with
    | .updating pre attempt n =>
      if n ≤ maxInteger then some (s, { t with phase := .updated pre attempt n })
      else some (s, { t with phase := .idle })
    | _ => none
  | .selectNumbers =>
    match t.phase with
    | .scanning pre attempt =>
      let seed := maxExistingInvoiceNoForPrefix T s.numbers pre
      some (s, { t with phase := .inserting pre attempt (max 1 (seed + 1)) })
    | _ => none
  | .insertCounter =>
    match t.phase with
    | .inserting pre attempt n =>
      let key := extractInvoiceDateKey T pre
      if maxInteger < n then some (s, { t with phase := .idle })
      else if (s.counters.lookup key).isSome then
        some (s, { t with phase := nextAttempt pre attempt })
      else if s.locked T i key then none
      else some (s, { t with phase := .inserted pre attempt n })
    | _ => none
  | .commitCounter =>
    match t.phase with
    | .updated pre _ n => some (returnNumber T s t pre n)
    | .inserted pre _ n => some (returnNumber T s t pre n)
    | _ => none
  | .error retry =>
    match t.phase.call? with
    | some (pre, attempt) =>
      some (s, { t with phase := if retry then nextAttempt pre attempt else .idle })
    | none => none
  | _ => none

/-- The statements that store numbers on invoices. A request either stores the number that it
was given or numbers that were typed. -/
def storeStep (s : NumberState) (i : Nat) (t : NumberSession) :
    SessionStatement → Option (NumberState × NumberSession)
  | .storeIssued businessProfileId =>
    match t.issued with
    | some number =>
      let row : NumberRow := ⟨businessProfileId, number⟩
      if t.writes ≠ [] ∨ s.blocked i row then none
      else if row ∈ s.invoices then
        some ({ s with rejected := number :: s.rejected }, { t with issued := none })
      else some (s, { t with writes := [.insert row] })
    | none => none
  | .write w =>
    let rows := applyWrites s.invoices t.writes
    if t.issued ≠ none ∨ (∃ old ∈ w.old?, old ∉ rows) ∨ (∃ row ∈ w.row?, s.blocked i row) ∨
        (∃ old ∈ w.old?, s.blocked i old) then none
    else if ∃ row ∈ w.row?, row ∈ rows ∧ w.old? ≠ some row then some (s, { t with writes := [] })
    else some (s, { t with writes := t.writes ++ [w] })
  | .commit =>
    some ({ s with invoices := applyWrites s.invoices t.writes },
      { t with issued := none, writes := [] })
  | .rollback => some (s, { t with issued := none, writes := [] })
  | _ => none

def numberSessionStep (s : NumberState) (i : Nat) (t : NumberSession) (a : SessionStatement) :
    Option (NumberState × NumberSession) :=
  match counterStep T s i t a with
  | some r => some r
  | none => if t.phase = .idle then storeStep s i t a else none

def numberStep (s : NumberState) : NumberAction → Option NumberState
  | .connect => some { s with sessions := s.sessions ++ [{}] }
  | .session i a =>
    match s.sessions[i]? with
    | none => none
    | some t =>
      match numberSessionStep T s i t a with
      | none => none
      | some (s', t') => some { s' with sessions := s.sessions.set i t' }

end Steps

end IpDocket.Billing
