import IpDocket.Lib.Json

/-!
# Amounts in minor units

`to_minor` and `from_minor`, and the amounts of bank deposits in `payment_meta`. A deposit is
read from any JSON value, is normalised to a number when it is stored, and is read from that
number again later on.
-/

namespace IpDocket.Billing
open IpDocket.Lib

/-- `CURRENCY_SCALE`; of the two entries for `USD` the second one counts. -/
def currencyScale : List (Text × Nat) :=
  [("USD".toList, 2), ("EUR".toList, 2), ("JPY".toList, 0), ("CNY".toList, 2)]

section Currency

variable (U : UpperTable)

/-- `CURRENCY_SCALE.get((currency or "USD").upper(), 2)`. -/
def scaleOf (currency : Option Text) : Nat :=
  let code := match currency with
    | none => "USD".toList
    | some [] => "USD".toList
    | some code => code
  (currencyScale.lookup (pyUpper U code)).getD 2

def toMinor (amount : ℚ) (currency : Option Text) : ℤ :=
  truncate (quantize roundHalfUp (scaleOf U currency) amount * 10 ^ scaleOf U currency)

/-- `to_minor` fails when the amount does not fit into the 28 digits of the decimal context. -/
def toMinorInContext (amount : ℚ) (currency : Text) : Option ℤ :=
  let minor := toMinor U amount (some currency)
  if minor.natAbs < 10 ^ 28 then some minor else none

/-- An integer with the digits of the decimal context. -/
def roundToContext (n : ℤ) : ℤ :=
  let extra := (pyDigits n.natAbs).length - 28
  roundHalfEven (n / 10 ^ extra) * 10 ^ extra

def fromMinor (amountMinor : ℤ) (currency : Text) : ℚ :=
  roundToContext amountMinor / 10 ^ scaleOf U (some currency)

lemma toMinor_eq (amount : ℚ) (currency : Option Text) :
    toMinor U amount currency = roundHalfUp (amount * 10 ^ scaleOf U currency) := by
  have hne : (10 : ℚ) ^ scaleOf U currency ≠ 0 := pow_ne_zero _ (by norm_num)
  rw [toMinor, quantize, div_mul_cancel₀ _ hne, truncate_intCast]

lemma scaleOf_le (currency : Option Text) : scaleOf U currency ≤ 2 := by
  have hscales : ∀ code : Text, (currencyScale.lookup code).getD 2 ≤ 2 := by
    intro code
    cases h : currencyScale.lookup code with
    | none => exact Nat.le_refl 2
    | some scale =>
      obtain ⟨before, after, hsplit, -⟩ := List.lookup_eq_some_iff.mp h
      have hmem : (code, scale) ∈ currencyScale := by
        rw [hsplit]
        exact List.mem_append_right _ List.mem_cons_self
      simp only [currencyScale, List.mem_cons, List.not_mem_nil, or_false, Prod.mk.injEq] at hmem
      simp only [Option.getD_some]
      omega
  exact hscales _

end Currency

/-- Rounding to the context does not take an integer below one that fits into it. -/
lemma le_roundToContext {k n : ℤ} (hk : k ≤ 10 ^ 27) (hn : 0 ≤ n) (h : k ≤ n) :
    k ≤ roundToContext n := by
  unfold roundToContext
  dsimp only
  generalize hextra : (pyDigits n.natAbs).length - 28 = extra
  cases extra with
  | zero =>
    rw [pow_zero, pow_zero, div_one, mul_one, roundHalfEven_intCast]
    exact h
  | succ e =>
    have hlength : ¬(pyDigits n.natAbs).length ≤ 28 + e := by omega
    have hlarge : 10 ^ (28 + e) ≤ n.natAbs := by
      have hiff := @Nat.length_toDigits_le_iff 10 n.natAbs (28 + e) (by decide) (by omega)
      exact Nat.le_of_not_lt (fun hlt => hlength (hiff.mpr hlt))
    have hcast : (10 : ℚ) ^ (28 + e) ≤ n := by
      have hint : (10 : ℤ) ^ (28 + e) ≤ n := by
        have hnat : ((10 ^ (28 + e) : ℕ) : ℤ) ≤ n.natAbs := by exact_mod_cast hlarge
        rw [Int.natAbs_of_nonneg hn] at hnat
        exact_mod_cast hnat
      exact_mod_cast hint
    have hquot : ((10 ^ 27 : ℤ) : ℚ) ≤ n / 10 ^ (e + 1) := by
      rw [le_div_iff₀ (by positivity)]
      calc ((10 ^ 27 : ℤ) : ℚ) * 10 ^ (e + 1) = 10 ^ (28 + e) := by
            push_cast
            ring
        _ ≤ n := hcast
    have hround := le_roundHalfEven hquot
    have hone : (1 : ℤ) ≤ 10 ^ (e + 1) := one_le_pow₀ (by norm_num)
    nlinarith

section Deposits

variable (T : DigitTables) (H : PyHost T.toUnicodeTables)

/-- A JSON value of the payment data. -/
abbrev Value := Json H.floats.carrier

/-- A column of text as a value. -/
def ofColumn (column : Option Text) : Value T H := (column.map Json.str).getD .null

/-- `_payment_meta_currency`; there is no currency in a value that is not a text. -/
def paymentMetaCurrency (currency : Value T H) : Option Text :=
  match pyOr H currency (.str "USD".toList) with
  | .str code => some (stripUpper T.toUpperTable code)
  | _ => none

def dropCommas (t : Text) : Text := t.filter (fun c => c ≠ ',')

/-- `to_minor(Decimal(raw), cur)`. -/
def decimalToMinor (raw currency : Text) : Option ℤ :=
  (pyDecimal T.toUnicodeTables raw).bind (fun x => toMinorInContext T.toUpperTable x currency)

/-- `_parse_amount_to_minor`. -/
def parseAmountToMinor (amountRaw : Value T H) (currency : Text) : Option ℤ :=
  let s := dropCommas (pyStrip (pyStr H (pyOr H amountRaw (.str []))))
  if s = [] then none else decimalToMinor T s currency

/-- `_payment_deposit_minor`; `none` when it raises. -/
def paymentDepositMinor (value currency : Value T H) : Option ℤ := do
  let cur ← paymentMetaCurrency T H currency
  let raw := pyStrip (dropCommas (pyStr H (pyOr H value (.str "0".toList))))
  if raw = [] then some 0
  else (decimalToMinor T raw cur).or (parseAmountToMinor T H value cur)

/-- `_payment_deposit_value_from_minor`. -/
def paymentDepositValueFromMinor (amountMinor : ℤ) (currency : Text) : Value T H :=
  let amount := fromMinor T.toUpperTable amountMinor (stripUpper T.toUpperTable currency)
  if amount.den = 1 then .int amount.num else .float (H.floats.ofDecimal amount)

/-- `_normalize_payment_deposit_value`. -/
def normalizePaymentDepositValue (value : Value T H) (currency : Text) : Option (Value T H) :=
  (paymentDepositMinor T H value (.str currency)).map
    (fun minor => paymentDepositValueFromMinor T H minor currency)

end Deposits

section Reading

variable {T : DigitTables} {H : PyHost T.toUnicodeTables} {v c c' : Value T H} {cur cur' : Text}

lemma paymentMetaCurrency_str (code : Text) :
    ∃ cur, paymentMetaCurrency T H (.str code) = some cur ∧
      scaleOf T.toUpperTable (some cur) =
        scaleOf T.toUpperTable (some (stripUpper T.toUpperTable code)) := by
  cases code with
  | nil =>
    have husd : stripUpper T.toUpperTable "USD".toList = "USD".toList :=
      pyUpper_of_lt (by decide)
    refine ⟨stripUpper T.toUpperTable "USD".toList, rfl, ?_⟩
    rw [husd]
    rfl
  | cons a code => exact ⟨_, rfl, rfl⟩

lemma decimalToMinor_congr (h : scaleOf T.toUpperTable (some cur) = scaleOf T.toUpperTable (some cur'))
    (raw : Text) : decimalToMinor T raw cur = decimalToMinor T raw cur' := by
  unfold decimalToMinor toMinorInContext
  simp only [toMinor_eq, h]

/-- Of the currency only its decimal places matter. -/
lemma paymentDepositMinor_congr (hc : paymentMetaCurrency T H c = some cur)
    (hc' : paymentMetaCurrency T H c' = some cur')
    (h : scaleOf T.toUpperTable (some cur) = scaleOf T.toUpperTable (some cur')) (v : Value T H) :
    paymentDepositMinor T H v c = paymentDepositMinor T H v c' := by
  unfold paymentDepositMinor parseAmountToMinor
  simp only [hc, hc', Option.bind_eq_bind, Option.bind_some, decimalToMinor_congr h]

lemma toMinorInContext_zero (cur : Text) : toMinorInContext T.toUpperTable 0 cur = some 0 := by
  have hzero : toMinor T.toUpperTable 0 (some cur) = 0 := by
    rw [toMinor_eq, zero_mul]
    exact roundHalfUp_intCast 0
  rw [toMinorInContext, hzero]
  rfl

lemma decimalToMinor_zero (cur : Text) : decimalToMinor T "0".toList cur = some 0 := by
  have hzero : pyDecimal T.toUnicodeTables "0".toList = some ((0 : ℤ) : ℚ) := pyDecimal_pyInt T 0
  rw [decimalToMinor, hzero]
  exact toMinorInContext_zero cur

lemma paymentDepositMinor_of_falsy (hc : paymentMetaCurrency T H c = some cur)
    (hv : pyTruthy H v = false) : paymentDepositMinor T H v c = some 0 := by
  have hraw : pyStr H (pyOr H v (.str "0".toList)) = "0".toList := by
    simp [pyOr, hv, pyStr_str]
  have hclean : pyStrip (dropCommas "0".toList) = "0".toList := by decide
  unfold paymentDepositMinor
  simp only [hc, Option.bind_eq_bind, Option.bind_some, hraw, hclean, decimalToMinor_zero]
  rfl

/-- A value whose text has neither commas nor white space. -/
lemma paymentDepositMinor_of_plain (hc : paymentMetaCurrency T H c = some cur)
    (hv : pyTruthy H v = true) (hne : pyStr H v ≠ [])
    (hplain : ∀ a ∈ pyStr H v, a ≠ ',' ∧ pyIsSpace a = false) :
    paymentDepositMinor T H v c = decimalToMinor T (pyStr H v) cur := by
  have hcommas : dropCommas (pyStr H v) = pyStr H v := by
    apply List.filter_eq_self.mpr
    intro a ha
    simp [(hplain a ha).1]
  have hstrip : pyStrip (pyStr H v) = pyStr H v :=
    pyStrip_of_stripped ⟨fun a ha => (hplain a (List.mem_of_mem_head? ha)).2,
      fun a ha => (hplain a (List.mem_of_mem_getLast? ha)).2⟩
  have hor : ∀ w, pyOr H v w = v := fun w => if_pos hv
  unfold paymentDepositMinor parseAmountToMinor
  simp only [hc, Option.bind_eq_bind, Option.bind_some, hor, hcommas, hstrip, if_neg hne,
    Option.or_self]

lemma toMinorInContext_eq_some {x : ℚ} {m : ℤ}
    (h : toMinorInContext T.toUpperTable x cur = some m) :
    m = roundHalfUp (x * 10 ^ scaleOf T.toUpperTable (some cur)) := by
  unfold toMinorInContext at h
  dsimp only at h
  split at h
  · cases h
    exact toMinor_eq _ _ _
  · cases h

lemma decimalToMinor_eq_some {raw : Text} {m : ℤ} (h : decimalToMinor T raw cur = some m) :
    ∃ x, pyDecimal T.toUnicodeTables raw = some x ∧
      m = roundHalfUp (x * 10 ^ scaleOf T.toUpperTable (some cur)) := by
  obtain ⟨x, hx, hm⟩ := Option.bind_eq_some_iff.mp h
  exact ⟨x, hx, toMinorInContext_eq_some hm⟩

lemma pyInt_ne_nil (k : ℤ) : pyInt k ≠ [] := by
  unfold pyInt
  split
  · exact List.cons_ne_nil _ _
  · exact pyDigits_ne_nil _

lemma paymentDepositMinor_int (hc : paymentMetaCurrency T H c = some cur) (k : ℤ) :
    paymentDepositMinor T H (.int k) c = toMinorInContext T.toUpperTable k cur := by
  by_cases hk : k = 0
  · rw [paymentDepositMinor_of_falsy hc (by simp [pyTruthy, hk]), hk, Int.cast_zero,
      toMinorInContext_zero]
  · have htruthy : pyTruthy H (.int k) = true := by simp [pyTruthy, hk]
    rw [paymentDepositMinor_of_plain hc htruthy (pyInt_ne_nil k)
      (fun a ha => ⟨(pyInt_char ha).2.1, (pyInt_char ha).1⟩)]
    change decimalToMinor T (pyInt k) cur = _
    rw [decimalToMinor, pyDecimal_pyInt]
    rfl

lemma paymentDepositMinor_float (hc : paymentMetaCurrency T H c = some cur)
    (x : H.floats.carrier) :
    paymentDepositMinor T H (.float x) c = decimalToMinor T (H.floats.repr x) cur := by
  cases hzero : H.floats.isZero x with
  | true =>
    have hfalsy : pyTruthy H (.float x) = false := by simp [pyTruthy, hzero]
    rw [paymentDepositMinor_of_falsy hc hfalsy, decimalToMinor, H.floats.repr_of_isZero x hzero]
    exact (toMinorInContext_zero cur).symm
  | false =>
    have htruthy : pyTruthy H (.float x) = true := by simp [pyTruthy, hzero]
    exact paymentDepositMinor_of_plain hc htruthy (H.floats.repr_ne_nil x) (H.floats.repr_plain x)

/-- What is stored for `n` minor units is read as `n` up to the precision of a float. -/
lemma exists_of_paymentDepositMinor_value {n m : ℤ} {code : Text}
    (h : paymentDepositMinor T H (paymentDepositValueFromMinor T H n code) (.str code) = some m) :
    ∃ x : ℚ, m = roundHalfUp x ∧
      |x - roundToContext n| ≤ |(roundToContext n : ℚ)| / 2 ^ 51 := by
  obtain ⟨cur, hcur, hscale⟩ := @paymentMetaCurrency_str T H code
  set s := scaleOf T.toUpperTable (some (stripUpper T.toUpperTable code)) with hs
  have hpos : (0 : ℚ) < 10 ^ s := by positivity
  unfold paymentDepositValueFromMinor at h
  have hamount : fromMinor T.toUpperTable n (stripUpper T.toUpperTable code) =
      roundToContext n / 10 ^ s := rfl
  rw [hamount] at h
  dsimp only at h
  split at h
  · next hden =>
    have hint : ((roundToContext n / 10 ^ s : ℚ).num : ℚ) = roundToContext n / 10 ^ s :=
      Rat.coe_int_num_of_den_eq_one hden
    refine ⟨roundToContext n, ?_, ?_⟩
    · rw [paymentDepositMinor_int hcur] at h
      rw [toMinorInContext_eq_some h, hint, hscale, div_mul_cancel₀ _ hpos.ne']
    · rw [sub_self, abs_zero]
      positivity
  · rw [paymentDepositMinor_float hcur] at h
    obtain ⟨r, hr, hm⟩ := decimalToMinor_eq_some h
    refine ⟨r * 10 ^ s, hscale ▸ hm, ?_⟩
    have hclose := H.floats.decimal_repr (roundToContext n) s r (scaleOf_le _ _) hr
    have hmul : r * 10 ^ s - roundToContext n = (r - roundToContext n / 10 ^ s) * 10 ^ s := by
      field_simp
    rw [hmul, abs_mul, abs_of_pos hpos]
    rw [abs_div, abs_of_pos hpos] at hclose
    calc |r - roundToContext n / 10 ^ s| * 10 ^ s
        ≤ |(roundToContext n : ℚ)| / 10 ^ s / 2 ^ 51 * 10 ^ s := by gcongr
      _ = |(roundToContext n : ℚ)| / 2 ^ 51 := by field_simp

lemma paymentDepositMinor_value_nonneg {n m : ℤ} {code : Text} (hn : 0 ≤ n)
    (h : paymentDepositMinor T H (paymentDepositValueFromMinor T H n code) (.str code) = some m) :
    0 ≤ m := by
  obtain ⟨x, rfl, hx⟩ := exists_of_paymentDepositMinor_value h
  have hround : (0 : ℚ) ≤ roundToContext n := by
    exact_mod_cast le_roundToContext (by norm_num) hn hn
  rw [abs_of_nonneg hround] at hx
  apply roundHalfUp_nonneg
  have hlower := (abs_le.mp hx).1
  linarith

lemma paymentDepositMinor_value_zero {m : ℤ} {code : Text}
    (h : paymentDepositMinor T H (paymentDepositValueFromMinor T H 0 code) (.str code) = some m) :
    m = 0 := by
  obtain ⟨x, rfl, hx⟩ := exists_of_paymentDepositMinor_value h
  have hzero : roundToContext 0 = 0 := by
    have h0 : (pyDigits (0 : ℤ).natAbs).length - 28 = 0 := rfl
    rw [roundToContext, h0, pow_zero, pow_zero, div_one, mul_one, roundHalfEven_intCast]
  rw [hzero, Int.cast_zero, sub_zero, abs_zero, zero_div] at hx
  rw [abs_eq_zero.mp (le_antisymm hx (abs_nonneg x))]
  exact roundHalfUp_intCast 0

/-- Below `2 ^ 50` minor units a bound on what is read back is a bound on what was stored. -/
lemma le_of_paymentDepositMinor_value {n m bound : ℤ} {code : Text} (hbound : bound < 2 ^ 50)
    (hm : m ≤ bound) (hpos : 0 ≤ bound)
    (h : paymentDepositMinor T H (paymentDepositValueFromMinor T H n code) (.str code) = some m) :
    n ≤ bound := by
  by_contra hlt
  obtain ⟨x, rfl, hx⟩ := exists_of_paymentDepositMinor_value h
  -- `n` itself, or `2 ^ 50` when `n` is beyond the precision of a float
  obtain ⟨k, hkbound, hkn, hk⟩ : ∃ k : ℤ, bound < k ∧ k ≤ n ∧ k ≤ 2 ^ 50 :=
    ⟨min n (2 ^ 50), by omega, by omega, by omega⟩
  have hround : (k : ℚ) ≤ roundToContext n := by
    exact_mod_cast le_roundToContext (by omega) (by omega) hkn
  have hk0 : (0 : ℚ) < k := by exact_mod_cast (by omega : 0 < k)
  have hk50 : (k : ℚ) ≤ 2 ^ 50 := by exact_mod_cast hk
  have hround0 : (0 : ℚ) ≤ roundToContext n := by linarith
  rw [abs_of_nonneg hround0] at hx
  have hlower := (abs_le.mp hx).1
  have hxk : (k : ℚ) - 1 / 2 ≤ x := by linarith
  have hkx := le_roundHalfUp (by omega) hxk
  omega

end Reading

end IpDocket.Billing
