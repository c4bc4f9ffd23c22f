import IpDocket.Lib.Calendar
import Mathlib.Tactic.Ring

/-!
# Adding days, months and years to a date

`ofMonth` is the date in a month, or its last day if the month is too short; months are counted
through the years. `RelativeDelta` is `dateutil.relativedelta`, which adds years and months in this
way. The order of dates compares `key`.
-/

namespace IpDocket.Lib

namespace PyDate

def key (d : PyDate) : Nat := 10000 * d.year + 100 * d.month + d.day

instance : LE PyDate := ⟨fun d e => d.key ≤ e.key⟩

instance : LT PyDate := ⟨fun d e => d.key < e.key⟩

instance (d e : PyDate) : Decidable (d ≤ e) := inferInstanceAs (Decidable (d.key ≤ e.key))

instance (d e : PyDate) : Decidable (d < e) := inferInstanceAs (Decidable (d.key < e.key))

lemma le_def {d e : PyDate} : d ≤ e ↔ d.key ≤ e.key := Iff.rfl

lemma lt_def {d e : PyDate} : d < e ↔ d.key < e.key := Iff.rfl

lemma daysInMonth_le (y m : Nat) : daysInMonth y m ≤ 31 := by
  unfold daysInMonth
  split
  · split <;> omega
  · split <;> omega

lemma daysInMonth_ge (y m : Nat) : 28 ≤ daysInMonth y m := by
  unfold daysInMonth
  split
  · split <;> omega
  · split <;> omega

lemma day_le (d : PyDate) : d.day ≤ 31 := d.day_range.2.trans (daysInMonth_le _ _)

lemma make_eq_some {y m d : Nat} {r : PyDate} :
    make y m d = some r ↔ r.year = y ∧ r.month = m ∧ r.day = d := by
  constructor
  · intro h
    unfold make at h
    split at h
    · split at h
      · split at h
        · have hr := Option.some.inj h
          subst hr
          exact ⟨rfl, rfl, rfl⟩
        · exact absurd h (by simp)
      · exact absurd h (by simp)
    · exact absurd h (by simp)
  · rintro ⟨rfl, rfl, rfl⟩
    exact make_eq r

lemma make_eq_none {y m d : Nat} :
    make y m d = none ↔ ¬((1 ≤ y ∧ y ≤ 9999) ∧ (1 ≤ m ∧ m ≤ 12) ∧ 1 ≤ d ∧ d ≤ daysInMonth y m) := by
  unfold make
  split
  · split
    · split <;> simp_all
    · simp_all
  · simp_all

/-- The number of months before the month of the date, counted through the years. -/
def monthIndex (d : PyDate) : Int := 12 * d.year + d.month - 1

/-- The date with this day in a month, or the last day of the month. -/
def ofMonth (index : Int) (day : Nat) : Option PyDate :=
  let year := (index / 12).toNat
  let month := (index % 12).toNat + 1
  make year month (min day (daysInMonth year month))

lemma ofMonth_eq_some {index : Int} {day : Nat} {r : PyDate} (hindex : 0 ≤ index) :
    ofMonth index day = some r ↔
      r.monthIndex = index ∧ r.day = min day (daysInMonth r.year r.month) := by
  unfold ofMonth monthIndex
  rw [make_eq_some]
  constructor
  · rintro ⟨hy, hm, hd⟩
    rw [hy, hm]
    refine ⟨?_, hd⟩
    omega
  · rintro ⟨hi, hd⟩
    have hrange := r.month_range
    have hy : r.year = (index / 12).toNat := by omega
    have hm : r.month = (index % 12).toNat + 1 := by omega
    rw [← hy, ← hm]
    exact ⟨rfl, rfl, hd⟩

lemma isSome_ofMonth {index : Int} {day : Nat} (hday : 1 ≤ day) :
    (ofMonth index day).isSome ↔ 12 ≤ index ∧ index < 120000 := by
  have hmonth := daysInMonth_ge (index / 12).toNat ((index % 12).toNat + 1)
  rw [Option.isSome_iff_ne_none, ofMonth, Ne, make_eq_none, not_not]
  constructor
  · rintro ⟨hy, -⟩
    omega
  · intro h
    refine ⟨by omega, by omega, by omega, by omega⟩

lemma monthIndex_range (d : PyDate) : 12 ≤ d.monthIndex ∧ d.monthIndex < 120000 := by
  have hy := d.year_range
  have hm := d.month_range
  unfold monthIndex
  omega

lemma lt_of_monthIndex_lt {d e : PyDate} (h : d.monthIndex < e.monthIndex) : d < e := by
  have hd := d.day_le
  have hm := d.month_range
  have hm' := e.month_range
  have hday := e.day_range.1
  rw [lt_def]
  unfold key
  unfold monthIndex at h
  omega

lemma fields_of_monthIndex_eq {d e : PyDate} (h : d.monthIndex = e.monthIndex) :
    d.year = e.year ∧ d.month = e.month := by
  have hm := d.month_range
  have hm' := e.month_range
  unfold monthIndex at h
  omega

lemma le_iff_day_le {d e : PyDate} (h : d.monthIndex = e.monthIndex) : d ≤ e ↔ d.day ≤ e.day := by
  obtain ⟨hy, hm⟩ := fields_of_monthIndex_eq h
  rw [le_def]
  unfold key
  omega

lemma monthIndex_le_of_le {d e : PyDate} (h : d ≤ e) : d.monthIndex ≤ e.monthIndex := by
  by_contra hlt
  have hback := lt_of_monthIndex_lt (not_le.mp hlt)
  rw [lt_def] at hback
  rw [le_def] at h
  omega

/-- Moving by months is monotone in the date and in the number of months. -/
lemma ofMonth_mono {d e r s : PyDate} {k l : Int} (hde : d ≤ e) (hkl : k ≤ l)
    (hr : ofMonth (d.monthIndex + k) d.day = some r) (hs : ofMonth (e.monthIndex + l) e.day = some s) :
    r ≤ s := by
  have hrange := (isSome_ofMonth d.day_range.1).mp (Option.isSome_iff_exists.mpr ⟨r, hr⟩)
  have hrange' := (isSome_ofMonth e.day_range.1).mp (Option.isSome_iff_exists.mpr ⟨s, hs⟩)
  obtain ⟨hri, hrd⟩ := (ofMonth_eq_some (by omega)).mp hr
  obtain ⟨hsi, hsd⟩ := (ofMonth_eq_some (by omega)).mp hs
  have hindex := monthIndex_le_of_le hde
  by_cases heq : r.monthIndex = s.monthIndex
  · rw [le_iff_day_le heq, hrd, hsd, (fields_of_monthIndex_eq heq).1, (fields_of_monthIndex_eq heq).2]
    have hday := (le_iff_day_le (by omega : d.monthIndex = e.monthIndex)).mp hde
    omega
  · have hlt := lt_of_monthIndex_lt (by omega : r.monthIndex < s.monthIndex)
    rw [lt_def] at hlt
    rw [le_def]
    omega

def ordinal (d : PyDate) : Nat := daysBeforeYear d.year + daysBeforeMonth d.year d.month + d.day

def next (d : PyDate) : Option PyDate :=
  if d.day < daysInMonth d.year d.month then make d.year d.month (d.day + 1)
  else if d.month < 12 then make d.year (d.month + 1) 1
  else make (d.year + 1) 1 1

/-- `d + timedelta(days=n)`, which may raise `OverflowError`. -/
def addDays (d : PyDate) : Nat → Option PyDate
  | 0 => some d
  | n + 1 => d.next.bind (fun e => e.addDays n)

def maxOrdinal : Nat := 3652059

lemma daysBeforeMonth_succ (y m : Nat) (hm : 1 ≤ m) :
    daysBeforeMonth y (m + 1) = daysBeforeMonth y m + daysInMonth y m := by
  have hpred : m = (m - 1) + 1 := by omega
  unfold daysBeforeMonth
  rw [Nat.add_sub_cancel, hpred, Nat.add_sub_cancel, List.range_succ, List.map_append, List.sum_append]
  simp

lemma daysBeforeMonth_last (y : Nat) : daysBeforeMonth y 12 + 31 = 365 + if isLeap y then 1 else 0 := by
  have hfeb : daysInMonth y 2 = if isLeap y then 29 else 28 := rfl
  have hsum : daysBeforeMonth y 12 = 306 + daysInMonth y 2 := by
    unfold daysBeforeMonth
    simp only [List.range, List.range.loop, List.map_cons, List.map_nil, List.sum_cons, List.sum_nil]
    have hjan : daysInMonth y 1 = 31 := rfl
    have hmar : daysInMonth y 3 = 31 := rfl
    have hrest : daysInMonth y 4 = 30 ∧ daysInMonth y 5 = 31 ∧ daysInMonth y 6 = 30 ∧
        daysInMonth y 7 = 31 ∧ daysInMonth y 8 = 31 ∧ daysInMonth y 9 = 30 ∧ daysInMonth y 10 = 31 ∧
        daysInMonth y 11 = 30 := ⟨rfl, rfl, rfl, rfl, rfl, rfl, rfl, rfl⟩
    simp only [Nat.zero_add, Nat.reduceAdd]
    omega
  rw [hsum, hfeb]
  split <;> rfl

lemma daysBeforeYear_succ {y : Nat} (hy : 1 ≤ y) :
    daysBeforeYear (y + 1) = daysBeforeYear y + (365 + if isLeap y then 1 else 0) := by
  obtain ⟨a, rfl⟩ : ∃ a, y = a + 1 := ⟨y - 1, by omega⟩
  have hle : a / 100 ≤ a / 4 := Nat.div_le_div_left (by omega) (by omega)
  have h100 : (a + 1) % 100 = 0 → (a + 1) % 4 = 0 := by omega
  have h400 : (a + 1) % 400 = 0 → (a + 1) % 100 = 0 := by omega
  unfold daysBeforeYear isLeap
  rw [Nat.add_sub_cancel, Nat.add_sub_cancel, Nat.succ_div, Nat.succ_div, Nat.succ_div]
  simp only [Nat.dvd_iff_mod_eq_zero, decide_eq_true_eq]
  -- the quotients and remainders are now atoms
  generalize a / 4 = q4, a / 100 = q100, a / 400 = q400 at *
  generalize (a + 1) % 4 = r4, (a + 1) % 100 = r100, (a + 1) % 400 = r400 at *
  split_ifs <;> omega

lemma daysBeforeYear_mono {y z : Nat} (hy : 1 ≤ y) (h : y ≤ z) : daysBeforeYear y ≤ daysBeforeYear z := by
  induction z, h using Nat.le_induction with
  | base => exact le_rfl
  | succ z hz ih =>
    rw [daysBeforeYear_succ (hy.trans hz)]
    omega

lemma daysBeforeMonth_mono {y m k : Nat} (hm : 1 ≤ m) (h : m ≤ k) :
    daysBeforeMonth y m ≤ daysBeforeMonth y k := by
  induction k, h using Nat.le_induction with
  | base => exact le_rfl
  | succ k hk ih =>
    rw [daysBeforeMonth_succ y k (hm.trans hk)]
    omega

lemma ordinal_le (d : PyDate) : d.ordinal ≤ maxOrdinal := by
  have hyear : d.ordinal ≤ daysBeforeYear (d.year + 1) := by
    rw [daysBeforeYear_succ d.year_range.1, ← daysBeforeMonth_last]
    have hday := d.day_range.2
    have hlast : daysBeforeMonth d.year d.month + daysInMonth d.year d.month ≤
        daysBeforeMonth d.year 12 + 31 := by
      rw [← daysBeforeMonth_succ d.year d.month d.month_range.1]
      exact daysBeforeMonth_mono (by omega) (by have := d.month_range; omega) |>.trans
        (le_of_eq (daysBeforeMonth_succ d.year 12 (by omega)))
    unfold ordinal
    omega
  have hmax : daysBeforeYear 10000 = maxOrdinal := by decide
  have hrange := d.year_range
  exact hyear.trans ((daysBeforeYear_mono (by omega) (by omega)).trans (le_of_eq hmax))

/-- The day after a date. -/
lemma next_eq_some {d r : PyDate} (h : d.next = some r) : r.ordinal = d.ordinal + 1 ∧ d < r := by
  have hday := d.day_range
  have hmonth := d.month_range
  have hle := d.day_le
  unfold next at h
  rw [lt_def]
  unfold key ordinal
  split at h
  · obtain ⟨hy, hm, hd⟩ := make_eq_some.mp h
    rw [hy, hm, hd]
    omega
  · split at h
    · obtain ⟨hy, hm, hd⟩ := make_eq_some.mp h
      rw [hy, hm, hd, daysBeforeMonth_succ d.year d.month hmonth.1]
      omega
    · obtain ⟨hy, hm, hd⟩ := make_eq_some.mp h
      have hlast : d.month = 12 := by omega
      have hdec : daysInMonth d.year 12 = 31 := rfl
      have hfirst : daysBeforeMonth (d.year + 1) 1 = 0 := rfl
      have hsum := daysBeforeMonth_last d.year
      rw [hlast, hdec] at hday
      rename_i hfull _
      rw [hlast, hdec] at hfull
      rw [hy, hm, hd, hlast, hfirst, daysBeforeYear_succ d.year_range.1, ← hsum]
      omega

lemma next_eq_none {d : PyDate} : d.next = none ↔ d.ordinal = maxOrdinal := by
  have hday := d.day_range
  have hmonth := d.month_range
  have hyear := d.year_range
  constructor
  · intro h
    unfold next at h
    split at h
    · rw [make_eq_none] at h
      omega
    · split at h
      · have hlength := daysInMonth_ge d.year (d.month + 1)
        rw [make_eq_none] at h
        omega
      · have hlength := daysInMonth_ge (d.year + 1) 1
        rw [make_eq_none] at h
        have hlast : d.month = 12 ∧ d.year = 9999 := by omega
        have hdec : daysInMonth 9999 12 = 31 := rfl
        rename_i hfull _
        rw [hlast.1, hlast.2, hdec] at hfull hday
        have hd : d.day = 31 := by omega
        unfold ordinal
        rw [hlast.1, hlast.2, hd]
        decide
  · intro h
    cases hnext : d.next with
    | none => rfl
    | some r =>
      have hsucc := (next_eq_some hnext).1
      have hle := r.ordinal_le
      omega

lemma isSome_addDays {d : PyDate} {n : Nat} : (d.addDays n).isSome ↔ d.ordinal + n ≤ maxOrdinal := by
  induction n generalizing d with
  | zero => simpa [addDays] using d.ordinal_le
  | succ n ih =>
    unfold addDays
    cases hnext : d.next with
    | none =>
      have hmax := next_eq_none.mp hnext
      simp only [Option.bind_none, Option.isSome_none, Bool.false_eq_true, false_iff]
      omega
    | some r =>
      have hsucc := (next_eq_some hnext).1
      rw [Option.bind_some, ih]
      omega

lemma le_of_addDays {d r : PyDate} {n : Nat} (h : d.addDays n = some r) : d ≤ r := by
  induction n generalizing d with
  | zero =>
    rw [Option.some.inj h]
    exact Nat.le_refl _
  | succ n ih =>
    obtain ⟨e, hnext, hrest⟩ := Option.bind_eq_some_iff.mp h
    have hlt := (next_eq_some hnext).2
    have hle := ih hrest
    rw [lt_def] at hlt
    rw [le_def] at hle ⊢
    omega

end PyDate

/-- `d + relativedelta(years=years, months=months)`, which may raise `ValueError`: the day stays,
or becomes the last day of the month. -/
structure RelativeDelta where
  shift : (years months : Int) → PyDate → Option PyDate
  shift_eq : ∀ years months d, shift years months d = PyDate.ofMonth (d.monthIndex + (months + 12 * years)) d.day

def calendarDelta : RelativeDelta where
  shift years months d := PyDate.ofMonth (d.monthIndex + (months + 12 * years)) d.day
  shift_eq _ _ _ := rfl

end IpDocket.Lib
