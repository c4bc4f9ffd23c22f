import IpDocket.Billing.EffectivePaid
import IpDocket.Lib.Numerals

/-!
# Amounts in four readers

`to_minor` converts a decimal. `_payment_deposit_minor` reads a text for it, `_amount_to_minor` reads
a text by other rules, and `get_client_statistics` reads the payment data with a function of its own.
What a text means to each of them is a matter of its blanks, of its currency and of how the amount is
rounded.
-/

namespace IpDocket.Billing
open IpDocket.Lib

section Model

variable (T : DigitTables) (H : PyHost T.toUnicodeTables)

/-- The deposits of the list as `get_client_statistics` adds them; what is no integer is passed over. -/
def listedIntegers (items : List (Value T H)) : ℤ :=
  ((items.filterMap asFields).map (fun r => (pyIntOf T.toUnicodeTables (pyStrip (dropCommas
    (pyStr H (pyOr H (get r "deposit") (.str "0".toList)))))).getD 0)).sum

/-- The deposit of the document, or the sum of its list when it has none. -/
def depositOrList (fields : Fields T H) : Value T H :=
  match get fields "deposit", get fields "deposits" with
  | .null, .arr items => .int (listedIntegers T H items)
  | deposit, _ => deposit

def depositInCurrency (deposit : Value T H) (cur : Text) : ℤ :=
  if cur = "USD".toList then
    (pyIntOf T.toUnicodeTables
      (dropBlanks (dropCommas (pyStr H (pyOr H deposit (.str "0".toList)))))).getD 0
  else (decimalToMinor T (dropCommas (pyStr H deposit)) cur).getD 0

/-- `_parse_payment_meta_minor`; `none` when the currency is not a text. -/
def parsePaymentMetaMinor (fields : Fields T H) (currency : Text) : Option ℤ :=
  match depositOrList T H fields with
  | .null => some 0
  | deposit =>
    (reportCurrency T H (pyOr H (get fields "currency") (.str currency))).map
      (depositInCurrency T H deposit)

end Model

section Amounts

variable (T : DigitTables) (H : PyHost T.toUnicodeTables)

/-- The code of a currency, without blanks and in upper case; the absent one is `USD`. -/
def codeOf (code : Text) : Text :=
  if pyStrip code = [] then "USD".toList else stripUpper T.toUpperTable code

/-- The amount in a value, whatever blanks and separators are in it. -/
def amountIn (v : Value T H) : Option ℚ :=
  match v with
  | .null => none
  | v => pyDecimal T.toUnicodeTables (dropBlanks (dropCommas (pyStr H v)))

/-- The integer in a value. -/
def integerIn (v : Value T H) : Option ℤ :=
  if pyTruthy H v then pyIntOf T.toUnicodeTables (dropBlanks (dropCommas (pyStr H v))) else none

/-- A blank stands inside of the amount. -/
def blankInside (v : Value T H) : Bool := ' ' ∈ pyStrip (dropCommas (pyStr H v))

/-- A rounded amount, if it fits into the decimal context. -/
def inContext (round : ℚ → ℤ) (x : ℚ) : ℤ := if |x| + 1 / 2 < 10 ^ 28 then round x else 0

/-- In minor units. -/
def minorUnits (cur : Text) (x : ℚ) : ℤ :=
  inContext roundHalfUp (x * 10 ^ scaleOf T.toUpperTable (some cur))

/-- In whole units for `USD` and `JPY`, in minor units otherwise. -/
def countedUnits (cur : Text) (x : ℚ) : ℤ :=
  if cur = "USD".toList ∨ cur = "JPY".toList then inContext roundHalfEven x
  else minorUnits T cur x

/-- What `_amount_to_minor` counts. -/
def countedIn (cur : Text) (v : Value T H) : ℤ := ((amountIn T H v).map (countedUnits T cur)).getD 0

/-- What `get_client_statistics` takes from a deposit: its integer in `USD`, otherwise its minor
units, unless a blank stands inside. -/
def takenFrom (cur : Text) (v : Value T H) : ℤ :=
  if cur = "USD".toList then (integerIn T H v).getD 0
  else if blankInside T H v then 0
  else ((amountIn T H v).map (minorUnits T cur)).getD 0

end Amounts

section Reading

variable {T : LetterTables} {H : PyHost T.toUnicodeTables} {cur : Text}

lemma dropBlanks_blankless {t : Text} (h : ' ' ∉ pyStrip t) : pyStrip (dropBlanks t) = pyStrip t := by
  have hall : ∀ c ∈ pyStrip t, decide (c ≠ ' ') = true := by
    intro c hc
    have hne : c ≠ ' ' := by
      rintro rfl
      exact h hc
    simpa using hne
  rw [dropBlanks, pyStrip_filter, List.filter_eq_self.mpr hall]
  exact pyStrip_of_stripped (stripped_pyStrip t)

lemma pyDecimal_dropBlanks {t : Text} (h : ' ' ∉ pyStrip t) :
    pyDecimal T.toUnicodeTables (dropBlanks t) = pyDecimal T.toUnicodeTables t :=
  pyDecimal_congr (dropBlanks_blankless h)

lemma pyDecimal_of_blank {t : Text} (h : ' ' ∈ pyStrip t) : pyDecimal T.toUnicodeTables t = none := by
  by_contra hsome
  obtain ⟨x, hx⟩ := Option.ne_none_iff_exists'.mp hsome
  have hspace := isSpace_of_pyDecimal T.decimal_of_isSpace hx ' ' h
  cases hspace

lemma getD_wholeUnits (x : ℚ) : (wholeUnits x).getD 0 = inContext roundHalfEven x := by
  have hbound := @natAbs_roundHalfEven_lt_iff x (10 ^ 28) (by norm_num)
  rw [Nat.cast_pow, Nat.cast_ofNat] at hbound
  unfold wholeUnits inContext
  dsimp only
  by_cases h : |x| + 1 / 2 < 10 ^ 28
  · rw [if_pos h, if_pos (hbound.mpr h)]
    rfl
  · rw [if_neg h, if_neg (fun hlt => h (hbound.mp hlt))]
    rfl

lemma toMinorInContext_eq (U : UpperTable) (x : ℚ) (cur : Text) :
    toMinorInContext U x cur =
      if |x| * 10 ^ scaleOf U (some cur) + 1 / 2 < 10 ^ 28 then
        some (roundHalfUp (x * 10 ^ scaleOf U (some cur)))
      else none := by
  have hbound := natAbs_roundHalfUp_lt_iff (x * 10 ^ scaleOf U (some cur)) (10 ^ 28)
  have habs : |x * 10 ^ scaleOf U (some cur)| = |x| * 10 ^ scaleOf U (some cur) := by
    rw [abs_mul, abs_of_pos (by positivity : (0 : ℚ) < 10 ^ scaleOf U (some cur))]
  rw [habs, Nat.cast_pow, Nat.cast_ofNat] at hbound
  unfold toMinorInContext
  rw [toMinor_eq]
  simp only [hbound]

lemma getD_toMinorInContext (x : ℚ) (cur : Text) :
    (toMinorInContext T.toUpperTable x cur).getD 0 = minorUnits T.toDigitTables cur x := by
  rw [toMinorInContext_eq, minorUnits, inContext, abs_mul,
    abs_of_pos (by positivity : (0 : ℚ) < 10 ^ scaleOf T.toUpperTable (some cur))]
  split <;> rfl

lemma getD_amountOfDecimal (cur : Text) (x : ℚ) :
    (amountOfDecimal T.toDigitTables cur x).getD 0 = countedUnits T.toDigitTables cur x := by
  unfold amountOfDecimal countedUnits
  split
  · exact getD_wholeUnits x
  · exact getD_toMinorInContext x cur

lemma getD_bind {α : Type} (o : Option α) (f : α → Option ℤ) :
    (o.bind f).getD 0 = (o.map (fun a => (f a).getD 0)).getD 0 := by
  cases o <;> rfl

/-- `_amount_to_minor` by what the value says. -/
lemma amountToMinor_eq (v c : Value T.toDigitTables H) :
    amountToMinor T.toDigitTables H v c =
      (reportCurrency T.toDigitTables H c).map (fun cur => countedIn T.toDigitTables H cur v) := by
  have hread : ∀ (cur s : Text),
      (if pyStrip s = [] then some 0
        else some (((pyDecimal T.toUnicodeTables (pyStrip s)).bind
          (amountOfDecimal T.toDigitTables cur)).getD 0)) =
      some (((pyDecimal T.toUnicodeTables s).map (countedUnits T.toDigitTables cur)).getD 0) := by
    intro cur s
    have hunits : (fun x => (amountOfDecimal T.toDigitTables cur x).getD 0) =
        countedUnits T.toDigitTables cur := funext (getD_amountOfDecimal cur)
    rw [pyDecimal_pyStrip, getD_bind, hunits]
    split
    · next hnil =>
      rw [← pyDecimal_pyStrip, hnil, pyDecimal_nil]
      rfl
    · rfl
  unfold amountToMinor
  cases reportCurrency T.toDigitTables H c with
  | none => rfl
  | some cur =>
    cases v with
    | null => rfl
    | _ => exact hread cur _

lemma pyIntOf_zero : pyIntOf T.toUnicodeTables (dropBlanks (dropCommas "0".toList)) = some 0 := by
  exact pyIntOf_pyInt T.toDigitTables (n := 0) (by decide)

/-- A deposit as `get_client_statistics` reads it. -/
lemma depositInCurrency_eq {v : Value T.toDigitTables H} (hnull : v ≠ .null) (cur : Text) :
    depositInCurrency T.toDigitTables H v cur = takenFrom T.toDigitTables H cur v := by
  unfold depositInCurrency takenFrom
  split
  · unfold integerIn pyOr
    split
    · rfl
    · change (pyIntOf T.toUnicodeTables (dropBlanks (dropCommas "0".toList))).getD 0 = 0
      rw [pyIntOf_zero]
      rfl
  · have hamount : amountIn T.toDigitTables H v =
        pyDecimal T.toUnicodeTables (dropBlanks (dropCommas (pyStr H v))) := by
      cases v with
      | null => exact absurd rfl hnull
      | _ => rfl
    have hunits : (fun x => (toMinorInContext T.toUpperTable x cur).getD 0) =
        minorUnits T.toDigitTables cur := funext (fun x => getD_toMinorInContext x cur)
    unfold decimalToMinor
    split
    · next hblank =>
      rw [pyDecimal_of_blank (of_decide_eq_true hblank)]
      rfl
    · next hblank =>
      rw [hamount, pyDecimal_dropBlanks (by simpa [blankInside] using hblank), getD_bind, hunits]

end Reading

end IpDocket.Billing
