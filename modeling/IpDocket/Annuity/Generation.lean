import IpDocket.Annuity.Anniversaries
import IpDocket.Annuity.Policy
import IpDocket.Deadlines.DoneDates
import IpDocket.Lib.Json

/-!
# Generation of annuity rows

`ensure_annuities_for_matter` creates, dates, revives, prunes and marks as paid the annuity rows of one
matter. What it knows of the matter and of the settings is given; the rows are those of the matter, to
which every query is restricted. A date that is out of range raises; a call that raises leaves what
it has written until then in the session.

The texts that are written to the columns are ISO dates, which the validators of the columns leave as
they are.
-/

namespace IpDocket.Annuity
open IpDocket.Lib IpDocket.Deadlines

section Rows

variable (T : UnicodeTables)

/-- `AnnuityItem.is_paid`. -/
def isPaid (r : AnnuityItem) : Bool :=
  (r.paidDate.bind (parseDocketDate T)).isSome ||
    (pyStrip (r.annuityStatus.getD [])).map asciiLower = "paid".toList

def userDeleteReasons : List Text :=
  ["case_annuity_delete".toList, "renewal_fee_delete".toList, "renewal_fee_bulk_delete".toList]

def isUserDeleted (r : AnnuityItem) : Bool :=
  r.isDeleted && pyStrip (r.deleteReason.getD []) ∈ userDeleteReasons

def isAutoGenerated (r : AnnuityItem) : Bool :=
  let memo := pyStrip (r.memo.getD [])
  "[AutoCreate]".toList <+: memo || "\"auto\": true".toList <:+: memo.map asciiLower

def reviveSoftDeleted (r : AnnuityItem) : AnnuityItem :=
  if r.isDeleted then
    { r with isDeleted := false, deletedAt := none, deletedBy := none, deleteReason := none,
             deletedOpId := none }
  else r

/-- `soft_delete_unpaid_annuity_item`; `none` where it changes nothing. -/
def softDeleteUnpaid (now : Nat) (reason : Text) (r : AnnuityItem) : Option AnnuityItem :=
  if r.isDeleted = true ∨ isPaid T r = true then none
  else some { r with isDeleted := true, deletedAt := some now, deletedBy := none,
                     deleteReason := some reason, deletedOpId := none }

/-- `(value or "").split("T")[0]`. -/
def dayToken (value : Option Text) : Text := (value.getD []).takeWhile (· ≠ 'T')

def rowAt (rows : List AnnuityItem) (cycleNo : Int) : Option AnnuityItem :=
  rows.find? (fun r => r.cycleNo = cycleNo)

/-- A change of rows, the number of changes included. -/
def changeRows (f : AnnuityItem → Option AnnuityItem) (rows : List AnnuityItem) :
    List AnnuityItem × Nat :=
  (rows.map (fun r => (f r).getD r), (rows.filter (fun r => (f r).isSome)).length)

end Rows

inductive RightType
  | patent
  | utility
  | design
  | trademark
  deriving DecidableEq

/-- The years that a payment at the registration of a trademark covers. -/
inductive PaymentTerm
  | five
  | ten
  deriving DecidableEq

/-- The settings, as `_get_int_config` and `_get_bool_config` give them. -/
structure AnnuityConfig where
  renewalNoticeDays : Int := 60
  renewalOpenDays : Int := 30
  trademarkNoticeDays : Int := 60
  trademarkOpenDays : Int := 365
  splitNoticeDays : Int := 90
  splitOpenDays : Int := 180
  startYear : Int := 1
  futureYears : Int := 3
  fullTerm : Bool := true
  patentTerm : Int := 20
  utilityTerm : Int := 10
  designTerm : Int := 20
  trademarkTerm : Int := 10
  paymentTerm : PaymentTerm := .ten
  allowForeign : Bool := false

/-- What is known of the matter. The default owner is a text that is not empty. -/
structure AnnuityFacts where
  matterId : Text
  managementDisabled : Bool := false
  isForeign : Bool := false
  isDomestic : Bool := false
  isUspto : Bool := false
  rightType : Option RightType
  regDate : Option PyDate
  termExpiryDate : Option PyDate := none
  explicitPaymentTerm : Option PaymentTerm := none
  defaultOwner : Option Text := none
  today : PyDate

/-- What differs from call to call: the time, and the ids of the rows that are created. -/
structure CallEnv where
  now : Nat
  newId : Int → Text

def AnnuityConfig.termYears (cfg : AnnuityConfig) : RightType → Int
  | .patent => cfg.patentTerm
  | .utility => cfg.utilityTerm
  | .design => cfg.designTerm
  | .trademark => cfg.trademarkTerm

def previousDay (d : PyDate) : Option PyDate :=
  if 1 < d.day then PyDate.make d.year d.month (d.day - 1)
  else if 1 < d.month then PyDate.make d.year (d.month - 1) (daysInMonth d.year (d.month - 1))
  else PyDate.make (d.year - 1) 12 31

/-- `d - timedelta(days=n)`, which may raise `OverflowError`. -/
def subDays (d : PyDate) : Nat → Option PyDate
  | 0 => some d
  | n + 1 => (previousDay d).bind (fun e => subDays e n)

/-- The date so many days before another, if the number is positive. -/
def daysBefore (days : Int) (due : PyDate) : Option (Option PyDate) :=
  if 0 < days then (subDays due days.toNat).map some else some none

/-- The dates of a row for one cycle. -/
structure ItemPlan where
  due : PyDate
  extended : Option PyDate
  renewalOpen : Option PyDate
  renewalNotice : Option PyDate
  deriving DecidableEq

/-- The plan with the schedule for the due date, by `_compute_renewal_schedule` and its like. -/
def scheduled (noticeDays openDays : Int) (due : PyDate) (extended : Option PyDate) : Option ItemPlan := do
  let notice ← daysBefore noticeDays due
  let opened ← daysBefore openDays due
  return ⟨due, extended, opened, notice⟩

section Dating

variable (T : UnicodeTables)

def isoText (d : Option PyDate) : Option Text := d.map PyDate.isoformat

/-- `(current or "").split("T")[0] != (wanted or "")`. -/
def setDayChanges (wanted : Option PyDate) (current : Option Text) : Bool :=
  dayToken current ≠ (isoText wanted).getD []

def setDay (wanted : Option PyDate) (current : Option Text) : Option Text :=
  if setDayChanges wanted current then isoText wanted else current

/-- `wanted and not (current or "").strip()`. -/
def setBlankChanges (wanted : Option PyDate) (current : Option Text) : Bool :=
  wanted.isSome && pyStrip (current.getD []) = []

def setBlank (wanted : Option PyDate) (current : Option Text) : Option Text :=
  if setBlankChanges wanted current then isoText wanted else current

/-- The update of a row that exists in the loop over the years, and whether it has changed. -/
def updateAnnuity (plan : ItemPlan) (r : AnnuityItem) : AnnuityItem × Bool :=
  let changed := r.isDeleted
  let r := reviveSoftDeleted r
  if isPaid T r then (r, changed)
  else
    ({ r with
        dueDate := setDay plan.due r.dueDate
        extendedDueDate := setDay plan.extended r.extendedDueDate
        renewalOpenDate := setBlank plan.renewalOpen r.renewalOpenDate
        renewalNoticeDue := setBlank plan.renewalNotice r.renewalNoticeDue },
      changed || setDayChanges plan.due r.dueDate ||
        setDayChanges plan.extended r.extendedDueDate ||
        setBlankChanges plan.renewalOpen r.renewalOpenDate ||
        setBlankChanges plan.renewalNotice r.renewalNoticeDue)

/-- `default_owner and (row.owner_staff_party_id or "").strip() != default_owner`. -/
def ownerChanges (defaultOwner : Option Text) (r : AnnuityItem) : Bool :=
  defaultOwner.any (fun owner => pyStrip (r.ownerStaffPartyId.getD []) ≠ owner)

def setOwner (defaultOwner : Option Text) (r : AnnuityItem) : AnnuityItem :=
  if ownerChanges defaultOwner r then { r with ownerStaffPartyId := defaultOwner } else r

/-- The update of a row that exists by a generator for trademarks, and whether it has changed. -/
def updateTrademark (defaultOwner : Option Text) (plan : ItemPlan) (r : AnnuityItem) :
    AnnuityItem × Bool :=
  let changed := r.isDeleted
  let r := reviveSoftDeleted r
  if isPaid T r then (setOwner defaultOwner r, changed || ownerChanges defaultOwner r)
  else
    (setOwner defaultOwner { r with
        dueDate := setDay plan.due r.dueDate
        extendedDueDate := setDay plan.extended r.extendedDueDate
        renewalOpenDate := setDay plan.renewalOpen r.renewalOpenDate
        renewalNoticeDue := setDay plan.renewalNotice r.renewalNoticeDue },
      changed || setDayChanges plan.due r.dueDate ||
        setDayChanges plan.extended r.extendedDueDate ||
        setDayChanges plan.renewalOpen r.renewalOpenDate ||
        setDayChanges plan.renewalNotice r.renewalNoticeDue || ownerChanges defaultOwner r)

/-- A row that a user has deleted stays; another is updated. `none` where nothing changes. -/
def touchItem (update : AnnuityItem → AnnuityItem × Bool) (r : AnnuityItem) : Option AnnuityItem :=
  if isUserDeleted r then none
  else if (update r).2 then some (update r).1 else none

/-- The row of a cycle is updated, or created if there is none. -/
def ensureItem (update : AnnuityItem → AnnuityItem × Bool) (new : AnnuityItem)
    (rows : List AnnuityItem) : List AnnuityItem × Nat :=
  match rowAt rows new.cycleNo with
  | some _ => changeRows (fun r => if r.cycleNo = new.cycleNo then touchItem update r else none) rows
  | none => (rows ++ [new], 1)

end Dating

/-- The memo of a row that is created: JSON with the fields after the marks. -/
def autoMemo (fields : List (String × Text)) : Text :=
  "[AutoCreate] ".toList ++ '\x7b' :: "\"auto\": true".toList ++
    fields.flatMap (fun (k, v) => ", ".toList ++ dumpsStr k.toList ++ ": ".toList ++ v) ++ ['\x7d']

def newItem (facts : AnnuityFacts) (env : CallEnv) (cycleNo : Int) (plan : ItemPlan)
    (fields : List (String × Text)) : AnnuityItem where
  annuityId := env.newId cycleNo
  matterId := facts.matterId
  ownerStaffPartyId := facts.defaultOwner
  cycleNo := cycleNo
  dueDate := isoText plan.due
  extendedDueDate := isoText plan.extended
  renewalOpenDate := isoText plan.renewalOpen
  renewalNoticeDue := isoText plan.renewalNotice
  memo := some (autoMemo fields)

section Years

variable (T : UnicodeTables) (R : RelativeDelta) (cfg : AnnuityConfig) (facts : AnnuityFacts)

/-- The first year without regard to the rows: the cycles 1 to 3 of a domestic matter are prepaid. -/
def configuredStart (startYear : Option Int) : Int :=
  let start := if startYear.any (0 < ·) then startYear.getD 0 else cfg.startYear
  let start := if start ≤ 0 then 1 else start
  if facts.isDomestic && start ≤ 3 then 4 else start

def liveCycles (rows : List AnnuityItem) : List Int := (rows.filter (!·.isDeleted)).map (·.cycleNo)

/-- The first year is not before the earliest live row. -/
def respectExisting (start : Int) (rows : List AnnuityItem) : Int :=
  match (liveCycles rows).min? with
  | some minExisting => if 0 < minExisting ∧ start < minExisting then minExisting else start
  | none => start

def lastYear (rightType : RightType) (regDate : PyDate) (endYear : Option Int) (start : Int) : Int :=
  if endYear.any (0 < ·) then min (endYear.getD 0) (cfg.termYears rightType)
  else if cfg.fullTerm then cfg.termYears rightType
  else min (cfg.termYears rightType)
    (max (annuityYearFromRegistration regDate facts.today + max cfg.futureYears 0) start)

/-- `start..end`, if that is no empty range. -/
def yearRange (rightType : RightType) (regDate : PyDate) (startYear endYear : Option Int)
    (rows : List AnnuityItem) : Option (Int × Int) :=
  let start := respectExisting (configuredStart cfg facts startYear) rows
  let last := lastYear cfg facts rightType regDate endYear start
  if last < start then none else some (start, last)

/-- The cycles 1 to 3 of a domestic matter were paid at the registration. -/
def markPrepaid (regDate : PyDate) (r : AnnuityItem) : Option AnnuityItem :=
  if 1 ≤ r.cycleNo ∧ r.cycleNo ≤ 3 ∧ isPaid T r = false then
    some { r with paidDate := some regDate.isoformat, annuityStatus := some "paid".toList }
  else none

/-- The plan for a year; `none` where a date is out of range or the loop goes on to the next year. The
fallback calculator names both deadlines by their codes. -/
def yearPlan (regDate : PyDate) (year : Int) : Option ItemPlan := do
  let deadlines ← fallbackDeadlines R regDate year
  let due ← deadlines.find? (fun d => "ANNUITY_DUE".toList <:+: d.code)
  let grace := deadlines.find? (fun d => "ANNUITY_GRACE".toList <:+: d.code)
  if grace.any (fun g => g.due < due.due) then none
  else scheduled cfg.renewalNoticeDays cfg.renewalOpenDays due.due (grace.map (·.due))

/-- One round of the loop over the years. Each year comes once, so that `existing_by_year` has the row
of the table. -/
def ensureYear (env : CallEnv) (regDate : PyDate) (year : Int) (rows : List AnnuityItem) :
    List AnnuityItem × Nat :=
  match yearPlan R cfg regDate year with
  | none => (rows, 0)
  | some plan =>
    ensureItem (updateAnnuity T plan)
      (newItem facts env year plan [("generated_at", dumpsStr facts.today.isoformat),
        ("registration_date", dumpsStr regDate.isoformat)]) rows

/-- `range(first, last + 1)`. -/
def yearList (first last : Int) : List Int :=
  (List.range (last + 1 - first).toNat).map (fun k : Nat => first + (k : Int))

def ensureYears (env : CallEnv) (regDate : PyDate) :
    List Int → List AnnuityItem → List AnnuityItem × Nat
  | [], rows => (rows, 0)
  | year :: years, rows =>
    let first := ensureYear T R cfg facts env regDate year rows
    let rest := ensureYears env regDate years first.1
    (rest.1, first.2 + rest.2)

def ensureNonTrademark (env : CallEnv) (rightType : RightType) (regDate : PyDate)
    (startYear endYear : Option Int) (rows : List AnnuityItem) : List AnnuityItem × Nat :=
  match yearRange cfg facts rightType regDate startYear endYear rows with
  | none => (rows, 0)
  | some (first, last) =>
    let prepaid := if facts.isDomestic then changeRows (markPrepaid T regDate) rows else (rows, 0)
    let generated := ensureYears T R cfg facts env regDate (yearList first last) prepaid.1
    (generated.1, prepaid.2 + generated.2)

end Years

/-! ### Trademarks -/

section Trademarks

variable (T : UnicodeTables) (R : RelativeDelta) (cfg : AnnuityConfig) (facts : AnnuityFacts)
  (env : CallEnv) (startYear endYear : Option Int)

/-- A step of a generator: the rows in the session, and the number of changes unless it raises. -/
abbrev Step := List AnnuityItem → List AnnuityItem × Option Nat

/-- The first step, and then the second unless the first raises. -/
def Step.andThen (first second : Step) : Step := fun rows =>
  match first rows with
  | (rows, none) => (rows, none)
  | (rows, some n) => ((second rows).1, (second rows).2.map (n + ·))

/-- A step that raises. -/
def raises : Step := fun rows => (rows, none)

/-- A step that does nothing. -/
def skips : Step := fun rows => (rows, some 0)

def returns (f : List AnnuityItem → List AnnuityItem × Nat) : Step := fun rows =>
  ((f rows).1, some (f rows).2)

def withinRequestedCycleRange (cycleNo : Int) : Bool :=
  !startYear.any (cycleNo < ·) && !endYear.any (· < cycleNo)

/-- A cycle that is a fifth year after a renewal. -/
def isSplitCycle (r : AnnuityItem) : Bool := r.cycleNo % 10 = 5 && !r.isDeleted

/-- `_get_trademark_registration_payment_term`. -/
def registrationPaymentTerm (rows : List AnnuityItem) : PaymentTerm :=
  match facts.explicitPaymentTerm with
  | some term => term
  | none => if rows.any isSplitCycle then .five else cfg.paymentTerm

/-- The rows of cycles that are not expected are deleted, if they were created by a generator. -/
def pruneStale (expected : List Int) (r : AnnuityItem) : Option AnnuityItem :=
  if expected = [] ∨ r.isDeleted = true ∨ r.cycleNo ≤ 0 ∨ r.cycleNo ∈ expected ∨
      withinRequestedCycleRange startYear endYear r.cycleNo = false ∨ isAutoGenerated r = false then none
  else softDeleteUnpaid T env.now "auto_reconcile:trademark_term_expiry_date".toList r

/-- The row of a cycle in the range that was requested is updated or created. -/
def ensureTrademarkItem (cycleNo : Int) (plan : ItemPlan) (fields : List (String × Text)) : Step :=
  returns (ensureItem (updateTrademark T facts.defaultOwner plan)
    (newItem facts env cycleNo plan (("generated_at", dumpsStr facts.today.isoformat) :: fields)))

/-- The due date and the cycle of the second payment. -/
def splitDueDate (regDate expiry : PyDate) : Option PyDate :=
  if trademarkCycleNoFromDates regDate expiry ≤ 5 then some expiry else R.shift (-5) 0 expiry

def splitPlan (splitDue : PyDate) : Option ItemPlan :=
  scheduled cfg.splitNoticeDays cfg.splitOpenDays splitDue none

def dumpsTerm : PaymentTerm → Text
  | .five => "5".toList
  | .ten => "10".toList

/-- `_ensure_trademark_split_payment_item`. -/
def ensureSplitPaymentItem (regDate expiry : PyDate) (term : PaymentTerm) : Step :=
  match splitDueDate R regDate expiry with
  | none => raises
  | some splitDue =>
    let cycleNo := trademarkCycleNoFromDates regDate splitDue
    if withinRequestedCycleRange startYear endYear cycleNo = false then skips
    else if term = .five ∨ trademarkCycleNoFromDates regDate expiry ≤ 5 then
      match splitPlan cfg splitDue with
      | none => raises
      | some plan =>
        ensureTrademarkItem T facts env cycleNo plan
          [("registration_date", dumpsStr regDate.isoformat),
            ("term_expiry_date", dumpsStr expiry.isoformat),
            ("split_due_date", dumpsStr splitDue.isoformat), ("payment_term_years", dumpsTerm term),
            ("right_type", dumpsStr "TRADEMARK".toList),
            ("renewal_type", dumpsStr "TRADEMARK_SPLIT_PAYMENT".toList)]
    else returns (changeRows (fun r => if r.cycleNo = cycleNo then
        softDeleteUnpaid T env.now "auto_reconcile:trademark_registration_payment_term".toList r
      else none))

def renewalPlan (expiry : PyDate) : Option ItemPlan := do
  let extended ← R.shift 0 6 expiry
  scheduled cfg.trademarkNoticeDays cfg.trademarkOpenDays expiry (some extended)

/-- `_ensure_trademark_renewal_item`. -/
def ensureRenewalItem (regDate expiry : PyDate) : Step :=
  let cycleNo := trademarkCycleNoFromDates regDate expiry
  if cycleNo ≤ 5 then skips
  else if withinRequestedCycleRange startYear endYear cycleNo = false then skips
  else match renewalPlan R cfg expiry with
    | none => raises
    | some plan =>
      ensureTrademarkItem T facts env cycleNo plan
        [("registration_date", dumpsStr regDate.isoformat),
          ("term_expiry_date", dumpsStr expiry.isoformat),
          ("right_type", dumpsStr "TRADEMARK".toList), ("renewal_type", dumpsStr "TRADEMARK".toList)]

/-- The cycles that `_ensure_trademark_annuity_items` expects; `none` where a date is out of range. -/
def expectedCycles (regDate expiry : PyDate) (term : PaymentTerm) : Option (List Int) :=
  let renewalCycleNo := trademarkCycleNoFromDates regDate expiry
  let inRange (cycles : List Int) := cycles.filter (withinRequestedCycleRange startYear endYear)
  if renewalCycleNo ≤ 5 then some (inRange [renewalCycleNo])
  else if term = .five then
    (R.shift (-5) 0 expiry).map (fun splitDue =>
      inRange [trademarkCycleNoFromDates regDate splitDue, renewalCycleNo])
  else some (inRange [renewalCycleNo])

/-- `_resolve_trademark_term_expiry_date`. -/
def resolveTermExpiryDate (regDate : PyDate) : Option PyDate :=
  match facts.termExpiryDate with
  | some expiry => some expiry
  | none => R.shift cfg.trademarkTerm 0 regDate

/-- `_ensure_trademark_annuity_items`. -/
def ensureTrademark (regDate : PyDate) : Step := fun rows =>
  match resolveTermExpiryDate R cfg facts regDate with
  | none => raises rows
  | some expiry =>
    let term := registrationPaymentTerm cfg facts rows
    match expectedCycles R startYear endYear regDate expiry term with
    | none => raises rows
    | some expected =>
      ((ensureSplitPaymentItem T R cfg facts env startYear endYear regDate expiry term).andThen
        ((ensureRenewalItem T R cfg facts env startYear endYear regDate expiry).andThen
          (returns (changeRows (pruneStale T env startYear endYear expected))))) rows

/-- `_ensure_uspto_trademark_item`: a row that a user has deleted needs no dates. -/
def ensureUsptoItem (regDate : PyDate) (cycleNo : Int) (due windowOpen : PyDate) (renewalType : String) :
    Step := fun rows =>
  if withinRequestedCycleRange startYear endYear cycleNo = false then skips rows
  else if (rowAt rows cycleNo).any isUserDeleted then skips rows
  else match daysBefore cfg.trademarkNoticeDays due, R.shift 0 6 due with
    | some notice, some extended =>
      ensureTrademarkItem T facts env cycleNo ⟨due, some extended, some windowOpen, notice⟩
        [("registration_date", dumpsStr regDate.isoformat),
          ("window_open_date", dumpsStr windowOpen.isoformat),
          ("right_type", dumpsStr "TRADEMARK".toList), ("jurisdiction", dumpsStr "USPTO".toList),
          ("renewal_type", dumpsStr renewalType.toList)] rows
    | _, _ => raises rows

/-- The dates of the two USPTO rows: the declaration of use in the sixth year and the renewal. -/
structure UsptoDates where
  section8Due : PyDate
  section8Open : PyDate
  renewalCycleNo : Int
  renewalDue : PyDate
  renewalOpen : PyDate

def usptoDates (regDate : PyDate) : Option UsptoDates := do
  let section8Due ← R.shift 6 0 regDate
  let section8Open ← R.shift 5 0 regDate
  let (renewalCycleNo, renewalDue) ← usptoRenewal R facts.termExpiryDate regDate
  let renewalOpen ← R.shift (-1) 0 renewalDue
  return ⟨section8Due, section8Open, renewalCycleNo, renewalDue, renewalOpen⟩

/-- `_ensure_uspto_trademark_annuity_items`. -/
def ensureUspto (regDate : PyDate) : Step :=
  match usptoDates R facts regDate with
  | none => raises
  | some dates =>
    let expected := [6, dates.renewalCycleNo].filter (withinRequestedCycleRange startYear endYear)
    (ensureUsptoItem T R cfg facts env startYear endYear regDate 6 dates.section8Due dates.section8Open
      "USPTO_SECTION_8").andThen
      ((ensureUsptoItem T R cfg facts env startYear endYear regDate dates.renewalCycleNo
        dates.renewalDue dates.renewalOpen "USPTO_SECTION_8_9").andThen
        (returns (changeRows (pruneStale T env startYear endYear expected))))

end Trademarks

/-- `ensure_annuities_for_matter`. -/
def ensureAnnuitiesForMatter (T : UnicodeTables) (R : RelativeDelta) (cfg : AnnuityConfig)
    (facts : AnnuityFacts) (env : CallEnv) (startYear endYear : Option Int) : Step := fun rows =>
  if facts.managementDisabled then skips rows
  else if facts.isForeign && !cfg.allowForeign then skips rows
  else match facts.rightType, facts.regDate with
    | some rightType, some regDate =>
      if rightType = .trademark then
        if facts.isUspto then ensureUspto T R cfg facts env startYear endYear regDate rows
        else ensureTrademark T R cfg facts env startYear endYear regDate rows
      else returns (ensureNonTrademark T R cfg facts env rightType regDate startYear endYear) rows
    | _, _ => skips rows

end IpDocket.Annuity
