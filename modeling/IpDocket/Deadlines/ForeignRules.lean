import IpDocket.Lib.DateArithmetic

/-!
# Response deadlines of foreign matters

`compute_response_deadline` takes the mailing date, or else the date of the office action, and
moves it by the period of the first rule that fits, or else by the period that is written in a text.
Python's `int` refuses a text of more than 4300 digits, and a date or a time span out of range
raises as well; nothing here catches these errors.
-/

namespace IpDocket.Deadlines
open IpDocket.Lib

/-- The list in `_add_months`. -/
def monthLengths (year : Int) : List Nat :=
  [31, if year % 4 = 0 ∧ (year % 100 ≠ 0 ∨ year % 400 = 0) then 29 else 28,
    31, 30, 31, 30, 31, 31, 30, 31, 30, 31]

/-- `_add_months`; `none` where `date` raises. -/
def addMonths (base : PyDate) (months years : Int) : Option PyDate :=
  let totalMonths : Int := base.month - 1 + months + years * 12
  let year : Int := base.year + totalMonths / 12
  let month := totalMonths % 12 + 1
  let day := min base.day ((monthLengths year).getD (month - 1).toNat 0)
  if 1 ≤ year then PyDate.make year.toNat month.toNat day else none

lemma monthLengths_eq {y m : Nat} (hm : 1 ≤ m ∧ m ≤ 12) :
    (monthLengths y).getD (m - 1) 0 = daysInMonth y m := by
  have hleap : ((y : Int) % 4 = 0 ∧ ((y : Int) % 100 ≠ 0 ∨ (y : Int) % 400 = 0)) ↔ isLeap y = true := by
    unfold isLeap
    rw [decide_eq_true_eq]
    omega
  obtain ⟨hlow, hhigh⟩ := hm
  unfold monthLengths
  simp only [hleap]
  interval_cases m <;> rfl

/-- The months are counted through the years, and the day becomes the last one of a short month. -/
lemma addMonths_eq (base : PyDate) (months years : Int) :
    addMonths base months years = PyDate.ofMonth (base.monthIndex + (months + 12 * years)) base.day := by
  have hmonth := base.month_range
  have hyear := base.year_range
  unfold addMonths PyDate.ofMonth PyDate.monthIndex
  dsimp only
  have hy : ((12 * (base.year : Int) + base.month - 1 + (months + 12 * years)) / 12) =
      base.year + (base.month - 1 + months + years * 12 : Int) / 12 := by omega
  have hm : ((12 * (base.year : Int) + base.month - 1 + (months + 12 * years)) % 12) =
      (base.month - 1 + months + years * 12 : Int) % 12 := by omega
  rw [hy, hm]
  generalize hY : (base.year : Int) + (base.month - 1 + months + years * 12 : Int) / 12 = Y
  generalize hM : (base.month - 1 + months + years * 12 : Int) % 12 = M
  have hM12 : 0 ≤ M ∧ M < 12 := by omega
  split
  · next hpos =>
    obtain ⟨y, rfl⟩ := Int.eq_ofNat_of_zero_le (by omega : 0 ≤ Y)
    obtain ⟨m, rfl⟩ := Int.eq_ofNat_of_zero_le hM12.1
    have hlength := @monthLengths_eq y (m + 1) ⟨by omega, by omega⟩
    have hsub : ((m : Int) + 1 - 1).toNat = m + 1 - 1 := by omega
    have hnat : ((m : Int) + 1).toNat = m + 1 := by omega
    rw [hsub, hlength, hnat]
    simp only [Int.toNat_natCast]
  · next hneg =>
    have hzero : Y.toNat = 0 := by omega
    rw [hzero, eq_comm, PyDate.make_eq_none]
    omega

section Texts

variable (T : UnicodeTables)

def isDigitChar (c : Char) : Bool := (T.decimal c).isSome

/-- `(\d{4})-(\d{1,2})-(\d{1,2})` at the start of the text. -/
def isoPatternAt (t : Text) : Option (Nat × Nat × Nat) :=
  let year := t.take 4
  match t.drop 4 with
  | '-' :: rest =>
    let month := rest.takeWhile (isDigitChar T)
    match rest.drop month.length with
    | '-' :: rest =>
      let day := (rest.take 2).takeWhile (isDigitChar T)
      if year.all (isDigitChar T) ∧ (month.length = 1 ∨ month.length = 2) ∧ day ≠ [] then
        some (decimalValue T year, decimalValue T month, decimalValue T day)
      else none
    | _ => none
  | _ => none

/-- `re.search`. -/
def searchIsoPattern : Text → Option (Nat × Nat × Nat)
  | [] => none
  | c :: t => (isoPatternAt T (c :: t)).or (searchIsoPattern t)

/-- `_parse_date`. -/
def parseDate (value : Option Text) : Option PyDate :=
  let raw := pyStrip (value.getD [])
  let raw := (raw.takeWhile (· ≠ 'T')).takeWhile (· ≠ ' ')
  let raw := raw.map (fun c => if c = '/' ∨ c = '.' then '-' else c)
  (searchIsoPattern T raw).bind (fun (y, m, d) => PyDate.make y m d)

inductive Period
  | months (months years : Nat)
  | days (days : Nat)
  deriving DecidableEq

inductive DeadlineError
  | digitLimit
  | outOfRange
  deriving DecidableEq

/-- The first run of digits. -/
def firstDigits (t : Text) : Option Text :=
  let ds := (t.dropWhile (fun c => !isDigitChar T c)).takeWhile (isDigitChar T)
  if ds = [] then none else some ds

/-- The unit that a period text names. -/
def periodOf (raw : Text) (amount : Nat) : Option Period :=
  if "month".toList <:+: raw then some (.months amount 0)
  else if "year".toList <:+: raw then some (.months 0 amount)
  else if "week".toList <:+: raw then some (.days (7 * amount))
  else if "day".toList <:+: raw then some (.days amount)
  else none

/-- `_parse_period_to_delta`. A time span of more than 999999999 days raises; `lower` is
`str.lower`. -/
def parsePeriodToDelta (lower : Text → Text) (value : Text) : Except DeadlineError (Option Period) :=
  let raw := lower (pyStrip value)
  match firstDigits T raw with
  | none => .ok none
  | some ds =>
    if 4300 < ds.length then .error .digitLimit
    else match periodOf raw (decimalValue T ds) with
      | some (.days n) => if 999999999 < n then .error .outOfRange else .ok (some (.days n))
      | p => .ok p

end Texts

/-- An entry of the rules file. A period that is no integer does not count. -/
structure DeadlineRule where
  jurisdiction : Option Text := none
  docType : Option Text := none
  responsePeriodMonths : Option Nat := none
  responsePeriodDays : Option Nat := none
  responsePeriodYears : Option Nat := none
  deriving DecidableEq

structure DeadlineRequest where
  jurisdiction : Option Text := none
  docType : Option Text := none
  mailingDate : Option Text := none
  oaDate : Option Text := none
  responsePeriod : Option Text := none
  rules : List DeadlineRule := []

section Deadline

variable (T : UnicodeTables) (lower : Text → Text)

def upperOf (t : Option Text) : Text := pyUpper T.toUpperTable (pyStrip (t.getD []))

def ruleFits (req : DeadlineRequest) (rule : DeadlineRule) : Bool :=
  let ruleJur := upperOf T rule.jurisdiction
  let ruleDoc := upperOf T rule.docType
  (ruleJur = [] || ruleJur = upperOf T req.jurisdiction) &&
    (ruleDoc = [] || ruleDoc = "*".toList || ruleDoc = upperOf T req.docType)

def rulePeriod (rule : DeadlineRule) : Option Period :=
  if rule.responsePeriodMonths.isSome ∨ rule.responsePeriodYears.isSome then
    some (.months (rule.responsePeriodMonths.getD 0) (rule.responsePeriodYears.getD 0))
  else rule.responsePeriodDays.map .days

def chosenPeriod (req : DeadlineRequest) : Option Period :=
  (req.rules.find? (ruleFits T req)).bind rulePeriod

def baseDate (req : DeadlineRequest) : Option PyDate :=
  (parseDate T req.mailingDate).or (parseDate T req.oaDate)

/-- The target date and the reason. -/
def moveBase (base : PyDate) : Period → Except DeadlineError (Text × Text)
  | .months months years =>
    match addMonths base months years with
    | some target => .ok (target.isoformat, "rule_months".toList)
    | none => .error .outOfRange
  | .days days =>
    match base.addDays days with
    | some target => .ok (target.isoformat, "rule_days".toList)
    | none => .error .outOfRange

def computeResponseDeadline (req : DeadlineRequest) : Except DeadlineError (Option (Text × Text)) :=
  match baseDate T req with
  | none => .ok none
  | some base =>
    match chosenPeriod T req with
    | some p => (moveBase base p).map some
    | none =>
      if req.responsePeriod.getD [] = [] then .ok none
      else match parsePeriodToDelta T lower (req.responsePeriod.getD []) with
        | .error e => .error e
        | .ok none => .ok none
        | .ok (some p) => (moveBase base p).map some

example : computeResponseDeadline asciiTables (fun t => t.map asciiLower)
    { mailingDate := some "2024-01-31".toList, responsePeriod := some "1 Month".toList } =
      .ok (some ("2024-02-29".toList, "rule_months".toList)) := by decide +kernel

/-- The deadline is missing, or not before its base date; no error is raised. -/
def DeadlineSound (req : DeadlineRequest) : Prop :=
  ∃ result, computeResponseDeadline T lower req = .ok result ∧
    ∀ iso reason, result = some (iso, reason) →
      ∃ base target, baseDate T req = some base ∧ iso = target.isoformat ∧ base ≤ target

/-- The base date stays in the calendar when it is moved by the period. -/
def PeriodFits (base : PyDate) : Period → Prop
  | .months months years => base.monthIndex + months + 12 * years < 120000
  | .days days => base.ordinal + days ≤ PyDate.maxOrdinal

/-- The period of the rule fits, or else the period text has a number that `int` reads and a period
that fits. -/
def RequestFits (req : DeadlineRequest) : Prop :=
  ∀ base, baseDate T req = some base →
    match chosenPeriod T req with
    | some p => PeriodFits base p
    | none => ∀ ds, firstDigits T (lower (pyStrip (req.responsePeriod.getD []))) = some ds →
        req.responsePeriod.getD [] ≠ [] → ds.length ≤ 4300 ∧
          ∀ p, periodOf (lower (pyStrip (req.responsePeriod.getD []))) (decimalValue T ds) = some p →
            PeriodFits base p

end Deadline

section Sound

lemma addMonths_nat {base : PyDate} {months years : Nat} :
    (addMonths base months years).isSome ↔ PeriodFits base (.months months years) := by
  have hrange := base.monthIndex_range
  rw [addMonths_eq, PyDate.isSome_ofMonth base.day_range.1]
  unfold PeriodFits
  omega

lemma le_of_addMonths {base target : PyDate} {months years : Nat}
    (h : addMonths base months years = some target) : base ≤ target := by
  have hself : PyDate.ofMonth (base.monthIndex + 0) base.day = some base := by
    rw [PyDate.ofMonth_eq_some (by have := base.monthIndex_range; omega), Int.add_zero]
    exact ⟨rfl, (Nat.min_eq_left base.day_range.2).symm⟩
  rw [addMonths_eq] at h
  exact PyDate.ofMonth_mono (Nat.le_refl _) (by omega) hself h

/-- A move is sound if the period fits, and raises otherwise. -/
lemma moveBase_spec (base : PyDate) (p : Period) :
    (PeriodFits base p ∧ ∃ target reason, moveBase base p = .ok (target.isoformat, reason) ∧ base ≤ target) ∨
      (¬PeriodFits base p ∧ moveBase base p = .error .outOfRange) := by
  cases p with
  | months months years =>
    cases h : addMonths base months years with
    | some target =>
      have hfits := addMonths_nat.mp (Option.isSome_iff_exists.mpr ⟨target, h⟩)
      exact .inl ⟨hfits, target, "rule_months".toList, by simp only [moveBase, h], le_of_addMonths h⟩
    | none =>
      refine .inr ⟨fun hfits => ?_, by simp only [moveBase, h]⟩
      have hsome := addMonths_nat.mpr hfits
      rw [h] at hsome
      exact absurd hsome (by decide)
  | days days =>
    cases h : base.addDays days with
    | some target =>
      have hfits := PyDate.isSome_addDays.mp (Option.isSome_iff_exists.mpr ⟨target, h⟩)
      exact .inl ⟨hfits, target, "rule_days".toList, by simp only [moveBase, h], PyDate.le_of_addDays h⟩
    | none =>
      refine .inr ⟨fun hfits => ?_, by simp only [moveBase, h]⟩
      have hsome := PyDate.isSome_addDays.mpr hfits
      rw [h] at hsome
      exact absurd hsome (by decide)

variable {T : UnicodeTables} {lower : Text → Text} {req : DeadlineRequest} {base : PyDate}

lemma deadlineSound_of_move (hbase : baseDate T req = some base) {p : Period}
    (h : computeResponseDeadline T lower req = (moveBase base p).map some) :
    DeadlineSound T lower req ↔ PeriodFits base p := by
  unfold DeadlineSound
  rcases moveBase_spec base p with ⟨hfits, target, reason, hmove, hle⟩ | ⟨hfits, hmove⟩
  · refine iff_of_true ⟨some (target.isoformat, reason), ?_, ?_⟩ hfits
    · rw [h, hmove]
      rfl
    · intro iso reason' heq
      obtain ⟨rfl, -⟩ := Prod.mk.inj (Option.some.inj heq)
      exact ⟨base, target, hbase, rfl, hle⟩
  · refine iff_of_false ?_ hfits
    rintro ⟨result, hresult, -⟩
    rw [h, hmove] at hresult
    exact absurd hresult (by simp [Except.map])

lemma deadlineSound_of_none (h : computeResponseDeadline T lower req = .ok none) :
    DeadlineSound T lower req :=
  ⟨none, h, fun iso reason heq => absurd heq (by simp)⟩

/-- A span of too many days leaves the calendar. -/
lemma not_fits_of_many_days {n : Nat} (h : 999999999 < n) (base : PyDate) : ¬PeriodFits base (.days n) := by
  unfold PeriodFits PyDate.maxOrdinal
  omega

lemma deadlineSound_iff : DeadlineSound T lower req ↔ RequestFits T lower req := by
  unfold RequestFits
  cases hbase : baseDate T req with
  | none =>
    have hnone : computeResponseDeadline T lower req = .ok none := by
      unfold computeResponseDeadline
      rw [hbase]
    exact iff_of_true (deadlineSound_of_none hnone) (fun base heq => absurd heq (by simp))
  | some base =>
    simp only [Option.some.injEq, forall_eq']
    cases hchosen : chosenPeriod T req with
    | some p =>
      apply deadlineSound_of_move hbase
      unfold computeResponseDeadline
      rw [hbase]
      dsimp only
      rw [hchosen]
    | none =>
      have hcompute : computeResponseDeadline T lower req =
          if req.responsePeriod.getD [] = [] then .ok none
          else match parsePeriodToDelta T lower (req.responsePeriod.getD []) with
            | .error e => .error e
            | .ok none => .ok none
            | .ok (some p) => (moveBase base p).map some := by
        unfold computeResponseDeadline
        rw [hbase]
        dsimp only
        rw [hchosen]
      by_cases hperiod : req.responsePeriod.getD [] = []
      · rw [if_pos hperiod] at hcompute
        exact iff_of_true (deadlineSound_of_none hcompute) (fun ds _ hne => absurd hperiod hne)
      rw [if_neg hperiod] at hcompute
      unfold parsePeriodToDelta at hcompute
      dsimp only at hcompute
      cases hds : firstDigits T (lower (pyStrip (req.responsePeriod.getD []))) with
      | none =>
        rw [hds] at hcompute
        exact iff_of_true (deadlineSound_of_none hcompute) (fun ds heq => absurd heq (by simp))
      | some ds =>
        rw [hds] at hcompute
        dsimp only at hcompute
        simp only [Option.some.injEq, forall_eq', hperiod, not_false_eq_true, ne_eq, forall_const]
        by_cases hlimit : 4300 < ds.length
        · rw [if_pos hlimit] at hcompute
          refine iff_of_false ?_ (fun hfits => absurd hfits.1 (not_le.mpr hlimit))
          rintro ⟨result, hresult, -⟩
          rw [hcompute] at hresult
          exact absurd hresult (by simp)
        rw [if_neg hlimit] at hcompute
        simp only [not_lt.mp hlimit, true_and]
        cases hp : periodOf (lower (pyStrip (req.responsePeriod.getD []))) (decimalValue T ds) with
        | none =>
          rw [hp] at hcompute
          exact iff_of_true (deadlineSound_of_none hcompute) (fun p heq => absurd heq (by simp))
        | some p =>
          rw [hp] at hcompute
          simp only [Option.some.injEq, forall_eq']
          cases p with
          | months months years => exact deadlineSound_of_move hbase hcompute
          | days n =>
            dsimp only at hcompute
            by_cases hmany : 999999999 < n
            · rw [if_pos hmany] at hcompute
              refine iff_of_false ?_ (not_fits_of_many_days hmany base)
              rintro ⟨result, hresult, -⟩
              rw [hcompute] at hresult
              exact absurd hresult (by simp)
            · rw [if_neg hmany] at hcompute
              exact deadlineSound_of_move hbase hcompute

end Sound

/-- Months are added as in the calendar: the result is in the month that is `months + 12 * years`
later, on the same day or on the last day, as `relativedelta` gives it. It is monotone in the date
and in the number of months. A deadline is missing or not before its base date, without an error,
exactly if the period keeps the date in the calendar. -/
theorem response_deadline_iff (R : RelativeDelta) (T : UnicodeTables) (lower : Text → Text) :
    (∀ (d : PyDate) (months years : Int),
      12 ≤ d.monthIndex + (months + 12 * years) ∧ d.monthIndex + (months + 12 * years) < 120000 →
      ∃ r, addMonths d months years = some r ∧ R.shift years months d = some r ∧
        r.monthIndex = d.monthIndex + (months + 12 * years) ∧
        r.day = min d.day (daysInMonth r.year r.month)) ∧
    (∀ (d e r s : PyDate) (months months' years : Int), d ≤ e → months ≤ months' →
      addMonths d months years = some r → addMonths e months' years = some s → r ≤ s) ∧
    ∀ req, DeadlineSound T lower req ↔ RequestFits T lower req := by
  refine ⟨?_, ?_, fun req => deadlineSound_iff⟩
  · intro d months years hrange
    have hsome := (PyDate.isSome_ofMonth d.day_range.1).mpr hrange
    obtain ⟨r, hr⟩ := Option.isSome_iff_exists.mp hsome
    have hfields := (PyDate.ofMonth_eq_some (by omega)).mp hr
    exact ⟨r, (addMonths_eq d months years).trans hr, (R.shift_eq years months d).trans hr, hfields⟩
  · intro d e r s months months' years hde hmonths hr hs
    rw [addMonths_eq] at hr hs
    exact PyDate.ofMonth_mono hde (by omega) hr hs

/-- The last day of January, one month and one year later. -/
theorem response_deadline_leapDay :
    ∃ d r : PyDate, PyDate.make 2023 1 31 = some d ∧ PyDate.make 2024 2 29 = some r ∧
      addMonths d 1 1 = some r ∧ calendarDelta.shift 1 1 d = some r := by
  refine ⟨⟨2023, 1, 31, by decide, by decide, by decide⟩, ⟨2024, 2, 29, by decide, by decide, by decide⟩,
    by decide, by decide, ?_⟩
  obtain ⟨r, hr, hdelta, hindex, hday⟩ := (response_deadline_iff calendarDelta asciiTables id).1
    ⟨2023, 1, 31, by decide, by decide, by decide⟩ 1 1 (by decide)
  have heq : addMonths ⟨2023, 1, 31, by decide, by decide, by decide⟩ 1 1 =
      some ⟨2024, 2, 29, by decide, by decide, by decide⟩ := by decide
  rw [heq] at hr
  rw [← Option.some.inj hr] at hdelta
  exact ⟨heq, hdelta⟩

/-- A number of months from the text of a mail leads out of the calendar. -/
theorem response_deadline_raises :
    ∃ req : DeadlineRequest, req.mailingDate = some "2024-01-31".toList ∧
      req.responsePeriod = some "99999 months".toList ∧
      computeResponseDeadline asciiTables (fun t => t.map asciiLower) req = .error .outOfRange ∧
      ¬DeadlineSound asciiTables (fun t => t.map asciiLower) req := by
  have hraises : computeResponseDeadline asciiTables (fun t => t.map asciiLower)
      { mailingDate := some "2024-01-31".toList, responsePeriod := some "99999 months".toList } =
        .error .outOfRange := by decide +kernel
  refine ⟨_, rfl, rfl, hraises, ?_⟩
  rintro ⟨result, hresult, -⟩
  rw [hraises] at hresult
  exact absurd hresult (by simp)

end IpDocket.Deadlines
