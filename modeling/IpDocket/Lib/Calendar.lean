import IpDocket.Lib.Text

/-!
# Dates of the host language

`PyDate` is a date of Python's `datetime` module, `isoformat` writes it and `fromIsoformat`
reads the forms that Python 3.11 reads: `2024-01-31`, `20240131` and the week dates.
-/

namespace IpDocket.Lib

def isLeap (y : Nat) : Bool := y % 4 = 0 ∧ (y % 100 ≠ 0 ∨ y % 400 = 0)

def daysInMonth (y m : Nat) : Nat :=
  if m = 2 then (if isLeap y then 29 else 28)
  else if m = 4 ∨ m = 6 ∨ m = 9 ∨ m = 11 then 30 else 31

structure PyDate where
  year : Nat
  month : Nat
  day : Nat
  year_range : 1 ≤ year ∧ year ≤ 9999
  month_range : 1 ≤ month ∧ month ≤ 12
  day_range : 1 ≤ day ∧ day ≤ daysInMonth year month
  deriving DecidableEq

namespace PyDate

/-- `date(y, m, d)`, which may raise `ValueError`. -/
def make (y m d : Nat) : Option PyDate :=
  if hy : 1 ≤ y ∧ y ≤ 9999 then
    if hm : 1 ≤ m ∧ m ≤ 12 then
      if hd : 1 ≤ d ∧ d ≤ daysInMonth y m then some ⟨y, m, d, hy, hm, hd⟩ else none
    else none
  else none

lemma make_eq (d : PyDate) : make d.year d.month d.day = some d := by
  unfold make
  rw [dif_pos d.year_range, dif_pos d.month_range, dif_pos d.day_range]

def isoformat (d : PyDate) : Text :=
  padLeft '0' 4 (pyDigits d.year) ++ '-' :: padLeft '0' 2 (pyDigits d.month) ++
    '-' :: padLeft '0' 2 (pyDigits d.day)

def daysBeforeYear (y : Nat) : Nat := 365 * (y - 1) + (y - 1) / 4 - (y - 1) / 100 + (y - 1) / 400

def daysBeforeMonth (y m : Nat) : Nat := ((List.range (m - 1)).map (fun k => daysInMonth y (k + 1))).sum

/-- The date with a proleptic ordinal, in a year next to `near`. -/
def ofOrdinal (near n : Nat) : Option PyDate :=
  ([near - 1, near, near + 1].flatMap (fun y => (List.range 12).map (fun k => (y, k + 1)))).findSome?
    (fun (y, m) =>
      let before := daysBeforeYear y + daysBeforeMonth y m
      if before < n ∧ n ≤ before + daysInMonth y m then make y m (n - before) else none)

/-- The ordinal of the Monday of the first week. -/
def week1Monday (y : Nat) : Int :=
  let first : Int := daysBeforeYear y + 1
  let weekday := (first + 6) % 7
  if 3 < weekday then first - weekday + 7 else first - weekday

def ofWeek (y week day : Nat) : Option PyDate :=
  let last := if week1Monday y + 7 * 52 < week1Monday (y + 1) then 53 else 52
  if 1 ≤ y ∧ 1 ≤ week ∧ week ≤ last ∧ 1 ≤ day ∧ day ≤ 7 then
    ofOrdinal y (week1Monday y + 7 * (week - 1 : Int) + (day - 1 : Int)).toNat
  else none

/-- A field of `n` ASCII digits at the start of the text, and the rest. -/
def digitField (n : Nat) (t : Text) : Option (Nat × Text) :=
  let ds := t.take n
  if ds.length = n ∧ ds.all Char.isDigit then some (Nat.ofDigitChars 10 ds 0, t.drop n) else none

def skip (c : Char) (wanted : Bool) (t : Text) : Option Text :=
  if wanted then (if t.head? = some c then some t.tail else none) else some t

/-- The day of a week date, Monday if it is left out. -/
def weekDay (separated : Bool) (t : Text) : Option Nat :=
  if t = [] then some 1
  else (skip '-' separated t).bind (fun t => (digitField 1 t).bind (fun (day, rest) =>
    if rest = [] then some day else none))

/-- `date.fromisoformat`. -/
def fromIsoformat (t : Text) : Option PyDate :=
  if t.length = 7 ∨ t.length = 8 ∨ t.length = 10 then do
    let (year, t) ← digitField 4 t
    let separated : Bool := t.head? = some '-'
    let t := if separated then t.tail else t
    if t.head? = some 'W' then
      let (week, t) ← digitField 2 t.tail
      let day ← weekDay separated t
      ofWeek year week day
    else
      let (month, t) ← digitField 2 t
      let t ← skip '-' separated t
      let (day, t) ← digitField 2 t
      if t = [] then make year month day else none
  else none

lemma length_padLeft_of_lt {width n : Nat} (hwidth : 0 < width) (hn : n < 10 ^ width) :
    (padLeft '0' width (pyDigits n)).length = width := by
  have hlength : (pyDigits n).length ≤ width := by
    unfold pyDigits
    exact (Nat.length_toDigits_le_iff (by decide) hwidth).mpr hn
  unfold padLeft
  rw [List.length_append, List.length_replicate]
  omega

lemma digitField_padLeft {width n : Nat} (hwidth : 0 < width) (hn : n < 10 ^ width) (rest : Text) :
    digitField width (padLeft '0' width (pyDigits n) ++ rest) = some (n, rest) := by
  have hlength := length_padLeft_of_lt hwidth hn
  have htake : (padLeft '0' width (pyDigits n) ++ rest).take width = padLeft '0' width (pyDigits n) := by
    rw [List.take_left' hlength]
  have hdrop : (padLeft '0' width (pyDigits n) ++ rest).drop width = rest := List.drop_left' hlength
  unfold digitField
  simp only [htake, hdrop]
  rw [if_pos ⟨hlength, List.all_eq_true.mpr (isDigit_padLeft_zero width n)⟩,
    ofDigitChars_padLeft (.inl rfl)]

lemma day_lt (d : PyDate) : d.day < 10 ^ 2 := by
  have h := d.day_range.2
  unfold daysInMonth at h
  split at h
  · split at h <;> omega
  · split at h <;> omega

/-- Reading a date gives the date that was written. -/
theorem fromIsoformat_isoformat (d : PyDate) : fromIsoformat d.isoformat = some d := by
  have hy : d.year < 10 ^ 4 := by
    have h := d.year_range
    omega
  have hm : d.month < 10 ^ 2 := by
    have h := d.month_range
    omega
  have hd := d.day_lt
  have hlength : d.isoformat.length = 10 := by
    unfold isoformat
    simp only [List.length_append, List.length_cons, length_padLeft_of_lt (by decide : 0 < 4) hy,
      length_padLeft_of_lt (by decide : 0 < 2) hm, length_padLeft_of_lt (by decide : 0 < 2) hd]
  have hday : digitField 2 (padLeft '0' 2 (pyDigits d.day)) = some (d.day, []) := by
    have h := digitField_padLeft (by decide : 0 < 2) hd []
    rwa [List.append_nil] at h
  have hiso : d.isoformat = padLeft '0' 4 (pyDigits d.year) ++
      ('-' :: (padLeft '0' 2 (pyDigits d.month) ++ ('-' :: padLeft '0' 2 (pyDigits d.day)))) := by
    unfold isoformat
    rw [List.append_assoc, List.cons_append]
  have hweek : (padLeft '0' 2 (pyDigits d.month) ++
      ('-' :: padLeft '0' 2 (pyDigits d.day))).head? ≠ some 'W' := by
    cases hpad : padLeft '0' 2 (pyDigits d.month) with
    | nil => simp
    | cons c ds =>
      have hdigit : c.isDigit = true := by
        apply isDigit_padLeft_zero 2 d.month
        rw [hpad]
        exact List.mem_cons_self
      rw [List.cons_append, List.head?_cons]
      intro hc
      cases hc
      cases hdigit
  unfold fromIsoformat
  rw [if_pos (.inr (.inr hlength)), hiso, digitField_padLeft (by decide) hy]
  simp only [Option.bind_eq_bind, Option.bind_some, List.head?_cons, decide_true, if_true,
    List.tail_cons]
  rw [if_neg hweek, digitField_padLeft (by decide) hm]
  simp only [Option.bind_some, skip, if_true, List.head?_cons, List.tail_cons]
  rw [hday]
  exact make_eq d

end PyDate

end IpDocket.Lib
