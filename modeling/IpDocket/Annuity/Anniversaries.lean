import IpDocket.Lib.DateArithmetic

/-!
# Anniversaries of the registration

The generators count years by the month and the day, and write dates with `relativedelta`, which
takes the last day of a month that is too short. The two agree except for a registration on the
29th of February.
-/

namespace IpDocket.Annuity
open IpDocket.Lib

/-- `(d.month, d.day) < (e.month, e.day)`. -/
def earlierInYear (d e : PyDate) : Bool := d.month < e.month || (d.month = e.month && d.day < e.day)

/-- `_trademark_cycle_no_from_dates`. -/
def trademarkCycleNoFromDates (regDate termExpiryDate : PyDate) : Int :=
  let years : Int := termExpiryDate.year - regDate.year
  let years := if earlierInYear termExpiryDate regDate then years - 1 else years
  max years 1

/-- `_annuity_year_from_registration`. -/
def annuityYearFromRegistration (regDate today : PyDate) : Int :=
  if today < regDate then 1
  else
    let years : Int := today.year - regDate.year
    let years := if earlierInYear today regDate then years - 1 else years
    years + 1

section Adding

variable (R : RelativeDelta)

structure FallbackDeadline where
  code : Text
  name : Text
  due : PyDate
  deriving DecidableEq

/-- `_compute_annual_fee_deadlines_fallback`; `none` where a date is out of range. -/
def fallbackDeadlines (registrationDate : PyDate) (year : Int) : Option (List FallbackDeadline) :=
  if year ≤ 0 then some []
  else do
    let due ← R.shift (year - 1) 0 registrationDate
    let grace ← R.shift 0 6 due
    return [⟨"ANNUITY_DUE".toList, pyDigits year.toNat ++ "RenewalDeadline".toList, due⟩,
      ⟨"ANNUITY_GRACE".toList, pyDigits year.toNat ++ "RenewalGrace".toList, grace⟩]

/-- The date that the fallback gives a year. -/
def fallbackDue (registrationDate : PyDate) (year : Int) : Option PyDate :=
  R.shift (year - 1) 0 registrationDate

/-- `_resolve_uspto_trademark_term_expiry_date`. -/
def resolveUsptoTrademarkTermExpiryDate (termExpiryDate : Option PyDate) (regDate : PyDate) : Option PyDate :=
  match termExpiryDate with
  | some expiry =>
    let cycleNo := trademarkCycleNoFromDates regDate expiry
    if 10 ≤ cycleNo ∧ cycleNo % 10 = 0 then some expiry else R.shift 10 0 regDate
  | none => R.shift 10 0 regDate

/-- The cycle and the date of the renewal in `_ensure_uspto_trademark_annuity_items`. -/
def usptoRenewal (termExpiryDate : Option PyDate) (regDate : PyDate) : Option (Int × PyDate) := do
  let renewalDue ← resolveUsptoTrademarkTermExpiryDate R termExpiryDate regDate
  let renewalCycleNo := trademarkCycleNoFromDates regDate renewalDue
  if renewalCycleNo < 10 then
    let renewalDue ← R.shift 10 0 regDate
    return (10, renewalDue)
  else return (renewalCycleNo, renewalDue)

end Adding

def IsLeapDay (d : PyDate) : Prop := d.month = 2 ∧ d.day = 29

instance (d : PyDate) : Decidable (IsLeapDay d) := inferInstanceAs (Decidable (_ ∧ _))

/-- The anniversary that `relativedelta` gives is a day early. -/
def DayEarly (regDate anniversary : PyDate) : Prop := IsLeapDay regDate ∧ isLeap anniversary.year = false

/-- The last day on which the year of a registration on a leap day has an anniversary. -/
def LeapAnniversary (regDate today : PyDate) : Prop :=
  IsLeapDay regDate ∧ today.month = 2 ∧ today.day = 28 ∧ isLeap today.year = false

section Anniversary

variable {R : RelativeDelta} {reg r today : PyDate} {n : Int}

lemma daysInMonth_feb (y : Nat) : daysInMonth y 2 = if isLeap y then 29 else 28 := rfl

lemma anniversary_fields (h : R.shift n 0 reg = some r) :
    (r.year : Int) = reg.year + n ∧ r.month = reg.month ∧
      r.day = min reg.day (daysInMonth r.year reg.month) := by
  have hmonth := reg.month_range
  have hrmonth := r.month_range
  rw [R.shift_eq] at h
  have hrange := (PyDate.isSome_ofMonth reg.day_range.1).mp (Option.isSome_iff_exists.mpr ⟨r, h⟩)
  obtain ⟨hindex, hday⟩ := (PyDate.ofMonth_eq_some (by omega)).mp h
  unfold PyDate.monthIndex at hindex
  have hm : r.month = reg.month := by omega
  rw [hm] at hday
  exact ⟨by omega, hm, hday⟩

/-- The day of an anniversary. -/
lemma anniversary_day (h : R.shift n 0 reg = some r) :
    (DayEarly reg r ∧ r.day = 28) ∨ (¬DayEarly reg r ∧ r.day = reg.day) := by
  obtain ⟨-, hm, hday⟩ := anniversary_fields h
  have hreg := reg.day_range
  unfold DayEarly IsLeapDay
  by_cases hfeb : reg.month = 2
  · rw [hfeb, daysInMonth_feb] at hday hreg
    cases hleap : isLeap r.year with
    | true =>
      rw [hleap, if_pos rfl] at hday
      refine .inr ⟨by simp, ?_⟩
      split at hreg <;> omega
    | false =>
      rw [hleap, if_neg (by simp)] at hday
      by_cases hlast : reg.day = 29
      · exact .inl ⟨⟨⟨hfeb, hlast⟩, rfl⟩, by omega⟩
      · refine .inr ⟨by simp [hlast], ?_⟩
        split at hreg <;> omega
  · have hsame : daysInMonth r.year reg.month = daysInMonth reg.year reg.month := by
      unfold daysInMonth
      rw [if_neg hfeb, if_neg hfeb]
    rw [hsame] at hday
    exact .inr ⟨by simp [hfeb], by omega⟩

lemma earlierInYear_anniversary (h : R.shift n 0 reg = some r) :
    earlierInYear r reg = true ↔ DayEarly reg r := by
  obtain ⟨-, hm, -⟩ := anniversary_fields h
  unfold earlierInYear
  rcases anniversary_day h with ⟨hearly, hday⟩ | ⟨hearly, hday⟩
  · have hreg : reg.day = 29 := hearly.1.2
    simp [hm, hday, hreg, hearly]
  · simp [hm, hday, hearly]

/-- The number of years is found again unless the anniversary is a day early. -/
lemma cycleNo_anniversary (h : R.shift n 0 reg = some r) (hn : 1 ≤ n) :
    trademarkCycleNoFromDates reg r = n ↔ ¬(DayEarly reg r ∧ 2 ≤ n) := by
  have hyear := (anniversary_fields h).1
  unfold trademarkCycleNoFromDates
  dsimp only
  by_cases hearly : DayEarly reg r
  · rw [if_pos ((earlierInYear_anniversary h).mpr hearly)]
    simp only [hearly, true_and]
    omega
  · rw [if_neg (fun he => hearly ((earlierInYear_anniversary h).mp he))]
    simp only [hearly, false_and, not_false_eq_true, iff_true]
    omega

lemma cycleNo_early (h : R.shift n 0 reg = some r) (hearly : DayEarly reg r) :
    trademarkCycleNoFromDates reg r = max (n - 1) 1 := by
  have hyear := (anniversary_fields h).1
  unfold trademarkCycleNoFromDates
  dsimp only
  rw [if_pos ((earlierInYear_anniversary h).mpr hearly)]
  omega

/-- A renewal of the United States office keeps its cycle and its date. -/
lemma usptoRenewal_anniversary {k : Int} (hk : 1 ≤ k) (h : R.shift (10 * k) 0 reg = some r) :
    usptoRenewal R (some r) reg = some (10 * k, r) ↔ ¬(DayEarly reg r ∧ 2 ≤ k) := by
  have hcycle := cycleNo_anniversary h (by omega)
  by_cases hearly : DayEarly reg r
  · have hcount := cycleNo_early h hearly
    have hresolve : resolveUsptoTrademarkTermExpiryDate R (some r) reg = R.shift 10 0 reg := by
      unfold resolveUsptoTrademarkTermExpiryDate
      dsimp only
      rw [if_neg (by rw [hcount]; omega)]
    simp only [usptoRenewal, hresolve, hearly, true_and]
    by_cases hone : k = 1
    · subst hone
      rw [Int.mul_one] at h hcount
      simp only [h, Option.bind_eq_bind, Option.bind_some, hcount]
      simp
    · refine iff_of_false ?_ (by omega)
      -- the renewal falls back to the first ten years
      cases hten : R.shift 10 0 reg with
      | none => simp
      | some s =>
        have hs := (anniversary_fields hten).1
        have hr := (anniversary_fields h).1
        simp only [Option.bind_eq_bind, Option.bind_some]
        intro heq
        split at heq
        · have hfst := congrArg Prod.fst (Option.some.inj heq)
          dsimp only at hfst
          omega
        · have hsnd := congrArg Prod.snd (Option.some.inj heq)
          dsimp only at hsnd
          rw [hsnd] at hs
          omega
  · have hcount : trademarkCycleNoFromDates reg r = 10 * k :=
      hcycle.mpr (fun hboth => hearly hboth.1)
    have hresolve : resolveUsptoTrademarkTermExpiryDate R (some r) reg = some r := by
      unfold resolveUsptoTrademarkTermExpiryDate
      dsimp only
      rw [if_pos (by rw [hcount]; omega)]
    have hbig : ¬(10 * k < 10) := by omega
    simp only [usptoRenewal, hresolve, Option.bind_eq_bind, Option.bind_some, hcount, if_neg hbig]
    simp [hearly]

/-- The dates of the years tell the year of a day. -/
def YearAgrees (R : RelativeDelta) (reg today : PyDate) : Prop :=
  ∀ (year : Int) (due next : PyDate), 1 ≤ year → fallbackDue R reg year = some due →
    fallbackDue R reg (year + 1) = some next →
    (annuityYearFromRegistration reg today = year ↔ due ≤ today ∧ today < next)

lemma annuityYear_eq (h : reg ≤ today) :
    annuityYearFromRegistration reg today =
      today.year - reg.year + if earlierInYear today reg then 0 else 1 := by
  have hnot : ¬today < reg := by
    rw [PyDate.le_def] at h
    rw [PyDate.lt_def]
    omega
  unfold annuityYearFromRegistration
  rw [if_neg hnot]
  dsimp only
  split <;> omega

/-- An anniversary is on or before a day if so many years have passed. -/
lemma anniversary_le_iff (hr : R.shift n 0 reg = some r) (htoday : ¬LeapAnniversary reg today) :
    r ≤ today ↔ (n : Int) ≤ today.year - reg.year - if earlierInYear today reg then 1 else 0 := by
  obtain ⟨hyear, hm, -⟩ := anniversary_fields hr
  have hregday := reg.day_le
  have hday := today.day_le
  have hmonth := today.month_range
  have hregmonth := reg.month_range
  have hsplit : (if earlierInYear today reg then (1 : Int) else 0) = 1 ↔
      today.month < reg.month ∨ (today.month = reg.month ∧ today.day < reg.day) := by
    unfold earlierInYear
    split
    · next he => simpa using he
    · next he => simpa using he
  have hbit : (if earlierInYear today reg then (1 : Int) else 0) = 0 ∨
      (if earlierInYear today reg then (1 : Int) else 0) = 1 := by
    split
    · exact .inr rfl
    · exact .inl rfl
  generalize (if earlierInYear today reg then (1 : Int) else 0) = bit at hsplit hbit ⊢
  rw [PyDate.le_def]
  unfold PyDate.key
  rcases anniversary_day hr with ⟨hearly, hrday⟩ | ⟨hearly, hrday⟩
  · obtain ⟨hmonth2, hday29⟩ := hearly.1
    by_cases hsame : r.year = today.year
    · -- in this year the anniversary is on the 28th of February
      have hshort : today.month = 2 → today.day ≤ 28 := by
        intro hfeb
        have hrange := today.day_range.2
        rw [hfeb, daysInMonth_feb, ← hsame, hearly.2] at hrange
        simpa using hrange
      have hother : ¬(today.month = 2 ∧ today.day = 28) := by
        intro hboth
        exact htoday ⟨hearly.1, hboth.1, hboth.2, by rw [← hsame]; exact hearly.2⟩
      omega
    · omega
  · omega

lemma yearAgrees_of_not (h : reg ≤ today) (htoday : ¬LeapAnniversary reg today) : YearAgrees R reg today := by
  intro year due next _ hdue hnext
  have hfirst := anniversary_le_iff hdue htoday
  have hsecond := anniversary_le_iff hnext htoday
  have hnot : today < next ↔ ¬next ≤ today := by
    rw [PyDate.lt_def, PyDate.le_def]
    omega
  rw [hnot, hfirst, hsecond, annuityYear_eq h]
  split <;> omega

lemma isSome_anniversary (hlow : 0 ≤ n) (hhigh : reg.year + n ≤ 9999) : (R.shift n 0 reg).isSome := by
  have hyear := reg.year_range
  have hmonth := reg.month_range
  rw [R.shift_eq, PyDate.isSome_ofMonth reg.day_range.1]
  unfold PyDate.monthIndex
  omega

/-- On the 28th of February the year before is still counted, and its next date is that day. -/
lemma not_yearAgrees (h : reg ≤ today) (htoday : LeapAnniversary reg today) : ¬YearAgrees R reg today := by
  obtain ⟨⟨hmonth, hday⟩, htmonth, htday, htleap⟩ := htoday
  have hregleap : isLeap reg.year = true := by
    have hrange := reg.day_range.2
    rw [hmonth, daysInMonth_feb, hday] at hrange
    cases hleap : isLeap reg.year with
    | true => rfl
    | false =>
      rw [hleap] at hrange
      exact absurd hrange (by decide)
  have hyears : reg.year < today.year := by
    have hle := h
    rw [PyDate.le_def] at hle
    unfold PyDate.key at hle
    have hne : reg.year ≠ today.year := by
      intro heq
      rw [heq, htleap] at hregleap
      exact absurd hregleap (by decide)
    omega
  have htop := today.year_range
  intro hagrees
  obtain ⟨due, hdue⟩ := Option.isSome_iff_exists.mp
    (@isSome_anniversary R reg ((today.year - reg.year : Int) - 1) (by omega) (by omega))
  obtain ⟨next, hnext⟩ := Option.isSome_iff_exists.mp
    (@isSome_anniversary R reg ((today.year - reg.year : Int) + 1 - 1) (by omega) (by omega))
  have hcount := (hagrees (today.year - reg.year) due next (by omega) hdue hnext).mp (by
    rw [annuityYear_eq h]
    have hearlier : earlierInYear today reg = true := by
      unfold earlierInYear
      simp [htmonth, hmonth, htday, hday]
    rw [hearlier, if_pos rfl]
    omega)
  obtain ⟨hyear, hnmonth, -⟩ := anniversary_fields hnext
  have hnyear : next.year = today.year := by omega
  have hnday : next.day = 28 := by
    rcases anniversary_day hnext with ⟨-, hd⟩ | ⟨hnot, -⟩
    · exact hd
    · exact absurd ⟨⟨hmonth, hday⟩, by rw [hnyear]; exact htleap⟩ hnot
  have hlt := hcount.2
  rw [PyDate.lt_def] at hlt
  unfold PyDate.key at hlt
  omega

end Anniversary

/-- The years are found again in the dates, the renewals keep their cycles and dates, and the year
of a day is told by the dates, except for the days at the end of February of a registration on a
leap day. -/
theorem anniversaries_agree_iff (R : RelativeDelta) (reg : PyDate) :
    (∀ (n : Int) (r : PyDate), 1 ≤ n → R.shift n 0 reg = some r →
      (trademarkCycleNoFromDates reg r = n ↔
        ¬(IsLeapDay reg ∧ 2 ≤ n ∧ isLeap r.year = false))) ∧
    (∀ (k : Int) (r : PyDate), 1 ≤ k → R.shift (10 * k) 0 reg = some r →
      (usptoRenewal R (some r) reg = some (10 * k, r) ↔
        ¬(IsLeapDay reg ∧ 2 ≤ k ∧ isLeap r.year = false))) ∧
    ∀ today, reg ≤ today → (YearAgrees R reg today ↔
      ¬(IsLeapDay reg ∧ today.month = 2 ∧ today.day = 28 ∧ isLeap today.year = false)) := by
  refine ⟨?_, ?_, ?_⟩
  · intro n r hn h
    have hsame : (IsLeapDay reg ∧ 2 ≤ n ∧ isLeap r.year = false) ↔ (DayEarly reg r ∧ 2 ≤ n) := by
      unfold DayEarly
      grind
    rw [cycleNo_anniversary h hn, hsame]
  · intro k r hk h
    have hsame : (IsLeapDay reg ∧ 2 ≤ k ∧ isLeap r.year = false) ↔ (DayEarly reg r ∧ 2 ≤ k) := by
      unfold DayEarly
      grind
    rw [usptoRenewal_anniversary hk h, hsame]
  · intro today h
    constructor
    · intro hagrees htoday
      exact not_yearAgrees h htoday hagrees
    · exact yearAgrees_of_not h

/-- A registration on a day in March, ten years and two days later. -/
theorem anniversaries_agree_march :
    trademarkCycleNoFromDates ⟨2016, 3, 1, by decide, by decide, by decide⟩
        ⟨2026, 3, 1, by decide, by decide, by decide⟩ = 10 ∧
      usptoRenewal calendarDelta (some ⟨2026, 3, 1, by decide, by decide, by decide⟩)
        ⟨2016, 3, 1, by decide, by decide, by decide⟩ =
          some (10, ⟨2026, 3, 1, by decide, by decide, by decide⟩) ∧
      YearAgrees calendarDelta ⟨2016, 3, 1, by decide, by decide, by decide⟩
        ⟨2026, 3, 3, by decide, by decide, by decide⟩ := by
  obtain ⟨hcycle, hrenewal, hyear⟩ :=
    anniversaries_agree_iff calendarDelta ⟨2016, 3, 1, by decide, by decide, by decide⟩
  exact ⟨(hcycle 10 ⟨2026, 3, 1, by decide, by decide, by decide⟩ (by decide) (by decide)).mpr (by decide),
    (hrenewal 1 ⟨2026, 3, 1, by decide, by decide, by decide⟩ (by decide) (by decide)).mpr (by decide),
    (hyear ⟨2026, 3, 3, by decide, by decide, by decide⟩ (by decide)).mpr (by decide)⟩

/-- A registration on a leap day: ten years later the ninth cycle is counted, a renewal after thirty
years becomes one after ten, and on the anniversary the year before is counted. -/
theorem anniversaries_differ_leapDay :
    ∃ reg ten thirty : PyDate, PyDate.make 2020 2 29 = some reg ∧
      calendarDelta.shift 10 0 reg = some ten ∧ trademarkCycleNoFromDates reg ten = 9 ∧
      trademarkCycleNoFromDates reg ten ≠ 10 ∧
      calendarDelta.shift 30 0 reg = some thirty ∧
      usptoRenewal calendarDelta (some thirty) reg = some (10, ten) ∧
      annuityYearFromRegistration reg ten = 10 ∧ fallbackDue calendarDelta reg 11 = some ten := by
  refine ⟨⟨2020, 2, 29, by decide, by decide, by decide⟩, ⟨2030, 2, 28, by decide, by decide, by decide⟩,
    ⟨2050, 2, 28, by decide, by decide, by decide⟩, ?_⟩
  decide

end IpDocket.Annuity
