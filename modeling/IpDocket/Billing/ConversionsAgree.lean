import IpDocket.Billing.Conversions

/-!
# When the readers of an amount agree

The three conversions of a text give the same number for all currencies that are counted in minor
units. In `USD` they agree on zero only, in `JPY` unless half to even parts from half away from zero.
The two readers of the payment data agree where a single deposit is read alike, and on a list of
deposits where what is listed is the deposit of the document.
-/

namespace IpDocket.Billing
open IpDocket.Lib

section Currencies

variable {U : UpperTable}

lemma lookup_currencyScale (code : Text) :
    (currencyScale.lookup code).getD 2 = if code = "JPY".toList then 0 else 2 := by
  by_cases husd : code = "USD".toList
  · subst husd
    decide
  by_cases heur : code = "EUR".toList
  · subst heur
    decide
  by_cases hjpy : code = "JPY".toList
  · subst hjpy
    decide
  by_cases hcny : code = "CNY".toList
  · subst hcny
    decide
  have hnone : currencyScale.lookup code = none := by
    apply List.lookup_eq_none_iff.mpr
    intro entry hentry
    simp only [currencyScale, List.mem_cons, List.not_mem_nil, or_false] at hentry
    rcases hentry with rfl | rfl | rfl | rfl
    · exact bne_iff_ne.mpr husd
    · exact bne_iff_ne.mpr heur
    · exact bne_iff_ne.mpr hjpy
    · exact bne_iff_ne.mpr hcny
  rw [hnone, if_neg hjpy]
  rfl

lemma scaleOf_eq (code : Text) :
    scaleOf U (some code) = if pyUpper U code = "JPY".toList then 0 else 2 := by
  cases code with
  | nil =>
    have husd : pyUpper U "USD".toList = "USD".toList := pyUpper_of_lt (by decide)
    change (currencyScale.lookup (pyUpper U "USD".toList)).getD 2 = _
    rw [husd]
    rfl
  | cons a code => exact lookup_currencyScale _

lemma pyUpper_eq_nil_iff (t : Text) : pyUpper U t = [] ↔ t = [] := by
  unfold pyUpper
  rw [List.flatMap_eq_nil_iff]
  constructor
  · intro h
    cases t with
    | nil => rfl
    | cons c t => exact absurd (h c List.mem_cons_self) (U.up_ne_nil c)
  · rintro rfl c hc
    cases hc

/-- A text whose upper case has no white space has none itself. -/
lemma stripped_of_pyUpper {t : Text} (h : ∀ d ∈ pyUpper U t, pyIsSpace d = false) : Stripped t := by
  have hall : ∀ c ∈ t, pyIsSpace c = false := by
    intro c hc
    obtain ⟨d, hd⟩ := List.exists_mem_of_ne_nil _ (U.up_ne_nil c)
    rw [← U.isSpace_of_mem_up c d hd]
    exact h d (List.mem_flatMap.mpr ⟨c, hc, hd⟩)
  exact ⟨fun c hc => hall c (List.mem_of_mem_head? hc), fun c hc => hall c (List.mem_of_mem_getLast? hc)⟩

end Currencies

section Codes

variable {T : DigitTables} {H : PyHost T.toUnicodeTables}

lemma stripUpper_eq_nil_iff (code : Text) : stripUpper T.toUpperTable code = [] ↔ pyStrip code = [] :=
  pyUpper_eq_nil_iff _

lemma reportCurrency_str (code : Text) : reportCurrency T H (.str code) = some (codeOf T code) := by
  unfold reportCurrency codeOf
  cases code with
  | nil =>
    have husd : stripUpper T.toUpperTable "USD".toList = "USD".toList := pyUpper_of_lt (by decide)
    change some (if stripUpper T.toUpperTable "USD".toList = [] then _ else _) = _
    rw [husd]
    rfl
  | cons a code =>
    change some (if stripUpper T.toUpperTable (a :: code) = [] then _ else _) = _
    simp only [stripUpper_eq_nil_iff]

lemma pyUpper_codeOf (code : Text) : pyUpper T.toUpperTable (codeOf T code) = codeOf T code := by
  unfold codeOf
  split
  · exact pyUpper_of_lt (by decide)
  · exact pyUpper_pyUpper _

lemma scaleOf_codeOf (code : Text) :
    scaleOf T.toUpperTable (some (codeOf T code)) = if codeOf T code = "JPY".toList then 0 else 2 := by
  rw [scaleOf_eq, pyUpper_codeOf]

/-- `to_minor` takes a code with white space around it for an unknown one. -/
lemma scaleOf_code (code : Text) :
    scaleOf T.toUpperTable (some code) =
      if codeOf T code = "JPY".toList ∧ pyStrip code = code then 0 else 2 := by
  have hiff : pyUpper T.toUpperTable code = "JPY".toList ↔
      codeOf T code = "JPY".toList ∧ pyStrip code = code := by
    constructor
    · intro h
      have hplain : ∀ d ∈ pyUpper T.toUpperTable code, pyIsSpace d = false := by
        rw [h]
        decide
      have hstrip := pyStrip_of_stripped (stripped_of_pyUpper hplain)
      have hne : code ≠ [] := by
        rintro rfl
        cases h
      rw [codeOf, stripUpper, hstrip, if_neg hne]
      exact ⟨h, rfl⟩
    · rintro ⟨hcode, hstrip⟩
      unfold codeOf stripUpper at hcode
      rw [hstrip] at hcode
      split at hcode
      · cases hcode
      · exact hcode
  rw [scaleOf_eq]
  simp only [hiff]

lemma scaleOf_stripUpper (code : Text) :
    scaleOf T.toUpperTable (some (stripUpper T.toUpperTable code)) =
      scaleOf T.toUpperTable (some (codeOf T code)) := by
  unfold codeOf
  split
  · next hnil =>
    have husd : pyUpper T.toUpperTable "USD".toList = "USD".toList := pyUpper_of_lt (by decide)
    rw [stripUpper, hnil, scaleOf_eq, scaleOf_eq, husd]
    rfl
  · rfl

end Codes

/-! ### One text -/

section Texts

variable (T : DigitTables)

/-- No blank stands inside of the text, the amount fits into the decimal context, and the amount is
below half a hundredth or of a currency in which all three round alike. -/
def ConvertsAlike (t code : Text) (x : ℚ) : Prop :=
  ' ' ∉ pyStrip (dropCommas t) ∧
    |x| * 10 ^ scaleOf T.toUpperTable (some code) + 1 / 2 < 10 ^ 28 ∧
    (|x| < 1 / 200 ∨ (codeOf T code ≠ "USD".toList ∧
      (codeOf T code = "JPY".toList → pyStrip code = code ∧ ∀ k : Nat, |x| ≠ 2 * k + 1 / 2)))

end Texts

section Agreement

variable {T : LetterTables} {H : PyHost T.toUnicodeTables}

/-- `_payment_deposit_minor` fails at a blank inside of the text. -/
lemma paymentDepositMinor_str {t code : Text} {x : ℚ}
    (hx : amountIn T.toDigitTables H (.str t) = some x) :
    paymentDepositMinor T.toDigitTables H (.str t) (.str code) =
      if ' ' ∈ pyStrip (dropCommas t) then none
      else toMinorInContext T.toUpperTable x (codeOf T.toDigitTables code) := by
  obtain ⟨cur, hcur, hscale⟩ := @paymentMetaCurrency_str T.toDigitTables H code
  rw [scaleOf_stripUpper] at hscale
  have hx' : pyDecimal T.toUnicodeTables (dropBlanks (dropCommas t)) = some x := hx
  have hne : t ≠ [] := by
    rintro rfl
    cases hx'
  have htruthy : ∀ w : Value T.toDigitTables H, pyOr H (.str t) w = .str t :=
    fun w => if_pos (by simpa [pyTruthy] using hne)
  -- both readings start from the same text
  have hparse : pyDecimal T.toUnicodeTables (dropCommas (pyStrip t)) =
      pyDecimal T.toUnicodeTables (dropCommas t) := pyDecimal_congr (pyStrip_filter _ t).symm
  have hminor : ∀ raw, pyDecimal T.toUnicodeTables raw = pyDecimal T.toUnicodeTables (dropCommas t) →
      decimalToMinor T.toDigitTables raw cur = if ' ' ∈ pyStrip (dropCommas t) then none
        else toMinorInContext T.toUpperTable x (codeOf T.toDigitTables code) := by
    intro raw hraw
    rw [decimalToMinor_congr hscale, decimalToMinor, hraw]
    split
    · next hblank =>
      rw [pyDecimal_of_blank hblank]
      rfl
    · next hblank =>
      rw [← pyDecimal_dropBlanks hblank, hx']
      rfl
  have hfilled : ∀ raw : Text, pyDecimal T.toUnicodeTables raw =
      pyDecimal T.toUnicodeTables (dropCommas t) → ' ' ∉ pyStrip (dropCommas t) → raw ≠ [] := by
    rintro raw hraw hblank rfl
    rw [← pyDecimal_dropBlanks hblank, hx', pyDecimal_nil] at hraw
    cases hraw
  unfold paymentDepositMinor parseAmountToMinor
  simp only [hcur, Option.bind_eq_bind, Option.bind_some, htruthy, pyStr_str]
  have hfirst := hminor (pyStrip (dropCommas t)) (pyDecimal_pyStrip _)
  have hsecond := hminor (dropCommas (pyStrip t)) hparse
  by_cases hblank : ' ' ∈ pyStrip (dropCommas t)
  · have hraw : pyStrip (dropCommas t) ≠ [] := List.ne_nil_of_mem hblank
    rw [if_neg hraw, hfirst, hsecond, if_pos hblank]
    split <;> rfl
  · rw [if_neg (hfilled _ (pyDecimal_pyStrip _) hblank), if_neg (hfilled _ hparse hblank), hfirst, hsecond,
      Option.or_self]

lemma inContext_of_fits {round : ℚ → ℤ} {x : ℚ} (h : |x| + 1 / 2 < 10 ^ 28) : inContext round x = round x :=
  if_pos h

/-- In whole dollars a text is never what it is in cents, but for zero. -/
lemma countedUnits_eq_hundredths {cur : Text} (hcur : cur = "USD".toList ∨ cur = "JPY".toList) {x : ℚ}
    (h : |x| * 100 + 1 / 2 < 10 ^ 28) :
    countedUnits T.toDigitTables cur x = roundHalfUp (x * 100) ↔ |x| < 1 / 200 := by
  have hsmall : |x| + 1 / 2 < 10 ^ 28 := by
    have hnonneg := abs_nonneg x
    linarith
  rw [countedUnits, if_pos hcur, inContext_of_fits hsmall, eq_comm]
  exact roundHalfUp_hundredths_iff (abs_roundHalfEven_sub_le x)

/-- A conversion to hundredths of what fits. -/
lemma conversions_of_scale {t code : Text} {x : ℚ}
    (hx : amountIn T.toDigitTables H (.str t) = some x) :
    (∃ n, amountToMinor T.toDigitTables H (.str t) (.str code) = some n ∧
        paymentDepositMinor T.toDigitTables H (.str t) (.str code) = some n ∧
        toMinorInContext T.toUpperTable x code = some n) ↔
      ' ' ∉ pyStrip (dropCommas t) ∧
      |x| * 10 ^ scaleOf T.toUpperTable (some code) + 1 / 2 < 10 ^ 28 ∧
      countedUnits T.toDigitTables (codeOf T.toDigitTables code) x =
        roundHalfUp (x * 10 ^ scaleOf T.toUpperTable (some code)) ∧
      toMinorInContext T.toUpperTable x (codeOf T.toDigitTables code) =
        some (roundHalfUp (x * 10 ^ scaleOf T.toUpperTable (some code))) := by
  have hcounted : amountToMinor T.toDigitTables H (.str t) (.str code) =
      some (countedUnits T.toDigitTables (codeOf T.toDigitTables code) x) := by
    rw [amountToMinor_eq, reportCurrency_str, Option.map_some, countedIn, hx]
    rfl
  rw [hcounted, paymentDepositMinor_str hx, toMinorInContext_eq T.toUpperTable x code]
  constructor
  · rintro ⟨n, hn, hdeposit, hminor⟩
    split at hdeposit
    · cases hdeposit
    · next hblank =>
      split at hminor
      · next hfits =>
        cases hminor
        exact ⟨hblank, hfits, Option.some_inj.mp hn, hdeposit⟩
      · cases hminor
  · rintro ⟨hblank, hfits, hunits, hdeposit⟩
    refine ⟨_, congrArg some hunits, ?_, if_pos hfits⟩
    rw [if_neg hblank]
    exact hdeposit

theorem conversions_iff (t code : Text) {x : ℚ} (hx : amountIn T.toDigitTables H (.str t) = some x) :
    (∃ n, amountToMinor T.toDigitTables H (.str t) (.str code) = some n ∧
        paymentDepositMinor T.toDigitTables H (.str t) (.str code) = some n ∧
        toMinorInContext T.toUpperTable x code = some n) ↔ ConvertsAlike T.toDigitTables t code x := by
  rw [conversions_of_scale hx]
  unfold ConvertsAlike
  apply and_congr_right
  intro _
  apply and_congr_right
  intro hfits
  rw [toMinorInContext_eq, scaleOf_codeOf]
  rw [scaleOf_code] at hfits ⊢
  have hminor : minorUnits T.toDigitTables (codeOf T.toDigitTables code) x = inContext roundHalfUp
      (x * 10 ^ (if codeOf T.toDigitTables code = "JPY".toList then 0 else 2)) := by
    rw [minorUnits, scaleOf_codeOf]
  generalize codeOf T.toDigitTables code = cur at hfits hminor ⊢
  have hhundred : (10 : ℚ) ^ 2 = 100 := by norm_num
  by_cases hjpy : cur = "JPY".toList
  · have husd : cur ≠ "USD".toList := by
      rw [hjpy]
      decide
    rw [if_pos hjpy]
    by_cases hstrip : pyStrip code = code
    · -- both have no decimal places
      rw [if_pos ⟨hjpy, hstrip⟩, pow_zero, mul_one] at hfits
      have hcounted : countedUnits T.toDigitTables cur x = roundHalfEven x := by
        rw [countedUnits, if_pos (.inr hjpy), inContext_of_fits hfits]
      rw [if_pos ⟨hjpy, hstrip⟩, pow_zero, mul_one, mul_one, hcounted, if_pos hfits,
        roundHalfEven_eq_roundHalfUp_iff]
      constructor
      · rintro ⟨hties, -⟩
        exact .inr ⟨husd, fun _ => ⟨hstrip, hties⟩⟩
      · rintro (hsmall | ⟨-, hties⟩)
        · refine ⟨fun k hk => ?_, rfl⟩
          have hnonneg : (0 : ℚ) ≤ k := Nat.cast_nonneg k
          linarith
        · exact ⟨(hties hjpy).2, rfl⟩
    · -- `to_minor` counts hundredths
      rw [if_neg (fun h => hstrip h.2), hhundred] at hfits
      rw [if_neg (fun h => hstrip h.2), pow_zero, mul_one, mul_one, hhundred,
        countedUnits_eq_hundredths (.inr hjpy) hfits]
      constructor
      · rintro ⟨hsmall, -⟩
        exact .inl hsmall
      · rintro (hsmall | ⟨-, hties⟩)
        · refine ⟨hsmall, ?_⟩
          rw [if_pos (by linarith), (roundHalfUp_hundredths_iff (abs_roundHalfUp_sub_le x)).mpr hsmall]
        · exact absurd (hties hjpy).1 hstrip
  · rw [if_neg (fun h => hjpy h.1)] at hfits
    rw [if_neg hjpy, if_neg (fun h => hjpy h.1), if_pos hfits]
    by_cases husd : cur = "USD".toList
    · rw [hhundred] at hfits ⊢
      rw [countedUnits_eq_hundredths (.inl husd) hfits]
      constructor
      · rintro ⟨hsmall, -⟩
        exact .inl hsmall
      · rintro (hsmall | ⟨hne, -⟩)
        · exact ⟨hsmall, rfl⟩
        · exact absurd husd hne
    · -- the same rounding of the same hundredths
      have hfits' : |x * 10 ^ 2| + 1 / 2 < 10 ^ 28 := by
        rw [abs_mul, abs_of_pos (by norm_num : (0 : ℚ) < 10 ^ 2)]
        exact hfits
      rw [countedUnits, if_neg (not_or.mpr ⟨husd, hjpy⟩), hminor, if_neg hjpy, inContext_of_fits hfits']
      constructor
      · intro _
        exact .inr ⟨husd, fun h => absurd h hjpy⟩
      · intro _
        exact ⟨rfl, rfl⟩

end Agreement

/-! ### The payment data -/

section Documents

variable (T : DigitTables) (H : PyHost T.toUnicodeTables)

/-- The amount is rounded to zero, or does not fit into the decimal context. -/
def CountsNothing (x : ℚ) : Prop := |x| ≤ 1 / 2 ∨ 10 ^ 28 ≤ |x| + 1 / 2

/-- In `USD` an integer that fits, or what counts for nothing. In `JPY` no amount between an even
number and the next. A blank inside is harmless only in what counts for nothing. -/
def ReadsAlike (cur : Text) (v : Value T H) : Prop :=
  if cur = "USD".toList then
    match integerIn T H v with
    | some n => n.natAbs < 10 ^ 28
    | none => ∀ x ∈ amountIn T H v, CountsNothing x
  else if cur = "JPY".toList then
    ∀ x ∈ amountIn T H v, if blankInside T H v then CountsNothing x
      else ∀ k : Nat, |x| = 2 * k + 1 / 2 → 10 ^ 28 ≤ 2 * k
  else ∀ x ∈ amountIn T H v, blankInside T H v → minorUnits T cur x = 0

/-- The currency of the document, or else of the invoice. -/
def documentCurrency (fields : Fields T H) (currency : Text) : Option Text :=
  reportCurrency T H (pyOr H (get fields "currency") (.str currency))

def recordCurrency (fields : Fields T H) (currency : Text) (record : Fields T H) : Option Text :=
  reportCurrency T H (pyOr H (pyOr H (get record "currency") (get fields "currency")) (.str currency))

/-- The deposits of the list, each counted in its own currency. -/
def listedUnits (fields : Fields T H) (currency : Text) (items : List (Value T H)) : Option ℤ :=
  sumMinor (fun r => (recordCurrency T H fields currency r).map
    (fun cur => countedIn T H cur (get r "deposit"))) (items.filterMap asFields)

/-- A list comes to what is taken from the deposit of the document, or from the sum of its integers when
there is no deposit; a list that comes to nothing leaves the deposit. -/
def ListPaid (fields : Fields T H) (items : List (Value T H)) (cur : Text) (listed : ℤ) : Prop :=
  match get fields "deposit" with
  | .null => listed = takenFrom T H cur (.int (listedIntegers T H items))
  | deposit => if listed = 0 then ReadsAlike T H cur deposit else listed = takenFrom T H cur deposit

/-- A deposit of a list: an integer that fits, with no blank inside, or an amount that is rounded to zero
in any currency, or no amount. -/
def ListedDeposit (v : Value T H) : Prop :=
  match integerIn T H v with
  | some n => blankInside T H v = false ∧ n.natAbs * 100 < 10 ^ 28
  | none => ∀ x ∈ amountIn T H v, |x| < 1 / 200

/-- What the integers of the list add up to. -/
def integersTotal (items : List (Value T H)) : ℤ :=
  ((items.filterMap asFields).map (fun r => (integerIn T H (get r "deposit")).getD 0)).sum

/-- `_amount_to_minor` counts in whole units. -/
def countsWhole (cur : Text) : Bool := cur = "USD".toList ∨ cur = "JPY".toList

/-- The deposits of the list are integers or nothing, in currencies that are counted as the one of the
document is. The document has no deposit, or their sum; or they are nothing together, and its deposit is
read alike. -/
structure ListReadsAlike (fields : Fields T H) (currency : Text) (items : List (Value T H))
    (cur : Text) : Prop where
  currencies : ∀ r ∈ items.filterMap asFields, ∃ c,
    recordCurrency T H fields currency r = some c ∧ countsWhole c = countsWhole cur
  deposits : ∀ r ∈ items.filterMap asFields, ListedDeposit T H (get r "deposit")
  small : (integersTotal T H items).natAbs * 100 < 10 ^ 28
  deposit : get fields "deposit" = .null ∨
    (integerIn T H (get fields "deposit") = some (integersTotal T H items) ∧
      blankInside T H (get fields "deposit") = false) ∨
    (integersTotal T H items = 0 ∧ ReadsAlike T H cur (get fields "deposit"))

end Documents

section Agreement

variable {T : LetterTables} {H : PyHost T.toUnicodeTables} {cur : Text}

lemma inContext_roundHalfEven_eq_zero (x : ℚ) : inContext roundHalfEven x = 0 ↔ CountsNothing x := by
  unfold inContext CountsNothing
  split
  · next hfits =>
    rw [roundHalfEven_eq_zero_iff]
    constructor
    · exact .inl
    · exact fun h => h.resolve_right (not_le.mpr hfits)
  · next hlarge =>
    constructor
    · intro _
      exact .inr (not_lt.mp hlarge)
    · intro _
      rfl

lemma getD_map_eq_zero {α : Type} (o : Option α) (f : α → ℤ) :
    (o.map f).getD 0 = 0 ↔ ∀ a ∈ o, f a = 0 := by
  cases o <;> simp

lemma inContext_intCast (n : ℤ) : inContext roundHalfEven n = n ↔ n.natAbs < 10 ^ 28 := by
  have hbound := @natAbs_roundHalfEven_lt_iff (n : ℚ) (10 ^ 28) (by norm_num)
  rw [Nat.cast_pow, Nat.cast_ofNat, roundHalfEven_intCast] at hbound
  unfold inContext
  split
  · next hfits =>
    rw [roundHalfEven_intCast]
    exact iff_of_true rfl (hbound.mpr hfits)
  · next hlarge =>
    rw [hbound]
    refine iff_of_false ?_ hlarge
    rintro hzero
    rw [← hzero] at hlarge
    norm_num at hlarge

/-- The ties above even numbers, as far as they fit. -/
lemma inContext_roundings_iff (x : ℚ) :
    inContext roundHalfEven x = inContext roundHalfUp x ↔
      ∀ k : Nat, |x| = 2 * k + 1 / 2 → 10 ^ 28 ≤ 2 * k := by
  unfold inContext
  split
  · next hfits =>
    rw [roundHalfEven_eq_roundHalfUp_iff]
    apply forall_congr'
    intro k
    constructor
    · intro hne heq
      exact absurd heq hne
    · intro hlarge heq
      have hcast : (10 : ℚ) ^ 28 ≤ 2 * k := by exact_mod_cast hlarge heq
      rw [heq] at hfits
      linarith
  · next hlarge =>
    refine iff_of_true rfl (fun k heq => ?_)
    rw [heq] at hlarge
    have hcast : (10 : ℚ) ^ 28 ≤ 2 * k + 1 := by linarith
    have hnat : 10 ^ 28 ≤ 2 * k + 1 := by exact_mod_cast hcast
    -- an even bound is not reached by an odd number first
    omega

lemma amountIn_of_integerIn {v : Value T.toDigitTables H} {n : ℤ}
    (h : integerIn T.toDigitTables H v = some n) : amountIn T.toDigitTables H v = some (n : ℚ) := by
  unfold integerIn at h
  split at h
  · next htruthy =>
    have hread := pyDecimal_of_pyIntOf h
    cases v with
    | null => cases htruthy
    | _ => exact hread
  · cases h

/-- One deposit. -/
lemma countedIn_eq_takenFrom_iff (cur : Text) (v : Value T.toDigitTables H) :
    countedIn T.toDigitTables H cur v = takenFrom T.toDigitTables H cur v ↔
      ReadsAlike T.toDigitTables H cur v := by
  unfold countedIn takenFrom ReadsAlike
  by_cases husd : cur = "USD".toList
  · rw [if_pos husd, if_pos husd]
    have hunits : countedUnits T.toDigitTables cur = inContext roundHalfEven :=
      funext (fun x => if_pos (.inl husd))
    rw [hunits]
    cases hint : integerIn T.toDigitTables H v with
    | some n =>
      rw [amountIn_of_integerIn hint]
      exact inContext_intCast n
    | none =>
      rw [Option.getD_none, getD_map_eq_zero]
      simp only [inContext_roundHalfEven_eq_zero]
  · rw [if_neg husd, if_neg husd]
    by_cases hjpy : cur = "JPY".toList
    · rw [if_pos hjpy]
      have hunits : countedUnits T.toDigitTables cur = inContext roundHalfEven :=
        funext (fun x => if_pos (.inr hjpy))
      have hminor : minorUnits T.toDigitTables cur = inContext roundHalfUp := by
        funext x
        rw [minorUnits, hjpy, scaleOf_jpy, pow_zero, mul_one]
      rw [hunits, hminor]
      split
      · next hblank => simp only [getD_map_eq_zero, inContext_roundHalfEven_eq_zero]
      · next hblank =>
        cases amountIn T.toDigitTables H v with
        | none => simp
        | some x => simpa [hblank] using inContext_roundings_iff x
    · rw [if_neg hjpy]
      have hunits : countedUnits T.toDigitTables cur = minorUnits T.toDigitTables cur :=
        funext (fun x => if_neg (not_or.mpr ⟨husd, hjpy⟩))
      rw [hunits]
      split
      · next hblank => simp only [getD_map_eq_zero, hblank, forall_const]
      · next hblank => simp [hblank]

lemma listedPaidMinor_eq {fields : Fields T.toDigitTables H} {currency : Text}
    {items : List (Value T.toDigitTables H)} (h : get fields "deposits" = .arr items) :
    listedPaidMinor T.toDigitTables H fields currency =
      listedUnits T.toDigitTables H fields currency items := by
  unfold listedPaidMinor listedUnits recordCurrency
  rw [h]
  simp only [amountToMinor_eq]

/-- Without a list of deposits both look at the one deposit. -/
lemma listedPaidMinor_of_single {fields : Fields T.toDigitTables H} {currency : Text}
    (h : ∀ items, get fields "deposits" ≠ .arr items) :
    listedPaidMinor T.toDigitTables H fields currency = some 0 := by
  unfold listedPaidMinor
  split
  · next items heq => exact absurd heq (h items)
  · rfl

lemma depositOrList_of_ne_null {fields : Fields T.toDigitTables H} (h : get fields "deposit" ≠ .null) :
    depositOrList T.toDigitTables H fields = get fields "deposit" := by
  unfold depositOrList
  split
  · next heq _ => exact absurd heq h
  · rfl

lemma depositOrList_of_single {fields : Fields T.toDigitTables H}
    (h : ∀ items, get fields "deposits" ≠ .arr items) :
    depositOrList T.toDigitTables H fields = get fields "deposit" := by
  unfold depositOrList
  split
  · next items _ heq => exact absurd heq (h items)
  · rfl

lemma parsePaymentMetaMinor_of_ne_null {fields : Fields T.toDigitTables H} {currency : Text}
    (h : depositOrList T.toDigitTables H fields ≠ .null) :
    parsePaymentMetaMinor T.toDigitTables H fields currency =
      (reportCurrency T.toDigitTables H (pyOr H (get fields "currency") (.str currency))).map
        (fun cur => takenFrom T.toDigitTables H cur (depositOrList T.toDigitTables H fields)) := by
  unfold parsePaymentMetaMinor
  generalize depositOrList T.toDigitTables H fields = deposit at h ⊢
  have hread : depositInCurrency T.toDigitTables H deposit =
      fun cur => takenFrom T.toDigitTables H cur deposit := funext (fun cur => depositInCurrency_eq h cur)
  rw [← hread]
  cases deposit with
  | null => exact absurd rfl h
  | _ => rfl

/-- A list that comes to nothing leaves the deposit of the document. -/
lemma listed_eq_takenFrom_iff {fields : Fields T.toDigitTables H} {items : List (Value T.toDigitTables H)}
    (hitems : get fields "deposits" = .arr items) (cur : Text) (listed : ℤ) :
    (if listed ≠ 0 then listed else countedIn T.toDigitTables H cur (get fields "deposit")) =
        takenFrom T.toDigitTables H cur (depositOrList T.toDigitTables H fields) ↔
      ListPaid T.toDigitTables H fields items cur listed := by
  unfold ListPaid
  have hdeposits := @depositOrList_of_ne_null T H fields
  have halike := @countedIn_eq_takenFrom_iff T H cur (get fields "deposit")
  cases hdeposit : get fields "deposit" with
  | null =>
    have hsum : depositOrList T.toDigitTables H fields = .int (listedIntegers T.toDigitTables H items) := by
      rw [depositOrList, hdeposit, hitems]
    have hzero : countedIn T.toDigitTables H cur (.null : Value T.toDigitTables H) = 0 := rfl
    rw [hsum, hzero]
    by_cases hlisted : listed = 0
    · rw [if_neg (not_not.mpr hlisted), hlisted]
    · rw [if_pos hlisted]
  | _ =>
    rw [hdeposits (by rw [hdeposit]; simp)]
    rw [hdeposit] at halike ⊢
    by_cases hlisted : listed = 0
    · rw [if_neg (not_not.mpr hlisted), halike]
      simp only [if_pos hlisted]
    · rw [if_pos hlisted]
      simp only [if_neg hlisted]

lemma listed_amounts_iff {fields : Fields T.toDigitTables H} {items : List (Value T.toDigitTables H)}
    (hitems : get fields "deposits" = .arr items) (currency : Text) :
    (∃ n, paymentMetaPaidMinor T.toDigitTables H fields currency = some n ∧
        parsePaymentMetaMinor T.toDigitTables H fields currency = some n) ↔
      ∃ cur, documentCurrency T.toDigitTables H fields currency = some cur ∧
        ∃ listed, listedUnits T.toDigitTables H fields currency items = some listed ∧
          ListPaid T.toDigitTables H fields items cur listed := by
  have hfilled : depositOrList T.toDigitTables H fields ≠ .null := by
    intro hnull
    by_cases hdeposit : get fields "deposit" = .null
    · rw [depositOrList, hdeposit, hitems] at hnull
      cases hnull
    · exact hdeposit (depositOrList_of_ne_null hdeposit ▸ hnull)
  unfold documentCurrency paymentMetaPaidMinor
  rw [amountToMinor_eq, listedPaidMinor_eq hitems, parsePaymentMetaMinor_of_ne_null hfilled]
  constructor
  · rintro ⟨n, hpaid, htaken⟩
    obtain ⟨cur, hcur, htaken⟩ := Option.map_eq_some_iff.mp htaken
    obtain ⟨listed, hlisted, hpaid⟩ := Option.bind_eq_some_iff.mp hpaid
    refine ⟨cur, hcur, listed, hlisted, (listed_eq_takenFrom_iff hitems cur listed).mp ?_⟩
    rw [htaken]
    split at hpaid
    · next hne =>
      rw [if_pos hne]
      exact Option.some_inj.mp hpaid
    · next hzero =>
      rw [hcur, Option.map_some] at hpaid
      rw [if_neg hzero]
      exact Option.some_inj.mp hpaid
  · rintro ⟨cur, hcur, listed, hlisted, halike⟩
    refine ⟨_, ?_, by rw [hcur, Option.map_some]⟩
    rw [hlisted, hcur, ← (listed_eq_takenFrom_iff hitems cur listed).mpr halike]
    change (if listed ≠ 0 then some listed else _) = _
    split <;> rfl

lemma single_amounts_iff {fields : Fields T.toDigitTables H}
    (h : ∀ items, get fields "deposits" ≠ .arr items) (currency : Text) :
    (∃ n, paymentMetaPaidMinor T.toDigitTables H fields currency = some n ∧
        parsePaymentMetaMinor T.toDigitTables H fields currency = some n) ↔
      ∃ cur, documentCurrency T.toDigitTables H fields currency = some cur ∧
        ReadsAlike T.toDigitTables H cur (get fields "deposit") := by
  have hpaid : paymentMetaPaidMinor T.toDigitTables H fields currency =
      amountToMinor T.toDigitTables H (get fields "deposit")
        (pyOr H (get fields "currency") (.str currency)) := by
    rw [paymentMetaPaidMinor, listedPaidMinor_of_single h]
    rfl
  rw [hpaid, amountToMinor_eq]
  unfold documentCurrency
  by_cases hnull : get fields "deposit" = .null
  · have hzero : parsePaymentMetaMinor T.toDigitTables H fields currency = some 0 := by
      rw [parsePaymentMetaMinor, depositOrList_of_single h, hnull]
    have halike : ∀ cur, ReadsAlike T.toDigitTables H cur (.null : Value T.toDigitTables H) :=
      fun cur => (countedIn_eq_takenFrom_iff cur _).mp (by
        unfold takenFrom
        split
        · rfl
        · split <;> rfl)
    rw [hzero, hnull]
    constructor
    · rintro ⟨n, hcount, -⟩
      obtain ⟨cur, hcur, -⟩ := Option.map_eq_some_iff.mp hcount
      exact ⟨cur, hcur, halike cur⟩
    · rintro ⟨cur, hcur, -⟩
      exact ⟨0, by rw [hcur]; rfl, rfl⟩
  · have hdeposit := depositOrList_of_single h
    rw [parsePaymentMetaMinor_of_ne_null (by rw [hdeposit]; exact hnull), hdeposit]
    constructor
    · rintro ⟨n, hcount, htaken⟩
      obtain ⟨cur, hcur, hcount⟩ := Option.map_eq_some_iff.mp hcount
      rw [hcur, Option.map_some] at htaken
      exact ⟨cur, hcur, (countedIn_eq_takenFrom_iff cur _).mp (hcount.trans (Option.some_inj.mp htaken).symm)⟩
    · rintro ⟨cur, hcur, halike⟩
      refine ⟨_, by rw [hcur, Option.map_some], ?_⟩
      rw [hcur, Option.map_some, (countedIn_eq_takenFrom_iff cur _).mpr halike]

/-- The amount of an integer in the units of a currency. -/
def unitsOf (cur : Text) (n : ℤ) : ℤ := if countsWhole cur then n else n * 100

lemma pyUpper_reportCurrency {v : Value T.toDigitTables H} {c : Text}
    (h : reportCurrency T.toDigitTables H v = some c) : pyUpper T.toUpperTable c = c := by
  obtain ⟨cur, hcur, rfl⟩ := Option.map_eq_some_iff.mp h
  split
  · exact pyUpper_of_lt (by decide)
  · unfold paymentMetaCurrency at hcur
    split at hcur
    · cases hcur
      exact pyUpper_pyUpper _
    · cases hcur

lemma inContext_intCast_mul {round : ℚ → ℤ} (hround : ∀ k : ℤ, round k = k) {n : ℤ} {q : ℚ}
    (hq : q = 1 ∨ q = 100) (h : n.natAbs * 100 < 10 ^ 28) : (inContext round (n * q) : ℚ) = n * q := by
  have hsmall : |(n : ℚ)| * 100 ≤ 10 ^ 28 - 1 := by
    have habs : |(n : ℚ)| = (n.natAbs : ℚ) := by
      rw [← Int.cast_abs, Int.abs_eq_natAbs, Int.cast_natCast]
    have hnat : n.natAbs * 100 + 1 ≤ 10 ^ 28 := h
    have hcast : ((n.natAbs * 100 + 1 : ℕ) : ℚ) ≤ ((10 ^ 28 : ℕ) : ℚ) := Nat.cast_le.mpr hnat
    rw [habs]
    push_cast at hcast
    linarith
  have hint : ∃ k : ℤ, (n : ℚ) * q = k := by
    rcases hq with rfl | rfl
    · exact ⟨n, by rw [mul_one]⟩
    · exact ⟨n * 100, by push_cast; rfl⟩
  have hfits : |(n : ℚ) * q| + 1 / 2 < 10 ^ 28 := by
    rw [abs_mul]
    rcases hq with rfl | rfl <;> norm_num <;> linarith [abs_nonneg (n : ℚ)]
  obtain ⟨k, hk⟩ := hint
  rw [inContext_of_fits hfits, hk, hround]

/-- An integer is counted, and taken, in the units of the currency. -/
lemma countedUnits_intCast {c : Text} (hc : pyUpper T.toUpperTable c = c) {n : ℤ}
    (h : n.natAbs * 100 < 10 ^ 28) : countedUnits T.toDigitTables c n = unitsOf c n := by
  have hone := inContext_intCast_mul roundHalfEven_intCast (.inl rfl) h
  have hhundred := inContext_intCast_mul roundHalfUp_intCast (.inr rfl) h
  unfold countedUnits unitsOf countsWhole
  by_cases hwhole : c = "USD".toList ∨ c = "JPY".toList
  · rw [if_pos hwhole, if_pos (decide_eq_true hwhole)]
    rw [mul_one] at hone
    exact_mod_cast hone
  · rw [if_neg hwhole, if_neg (by simpa using hwhole), minorUnits, scaleOf_eq, hc,
      if_neg (not_or.mp hwhole).2]
    have hscale : (10 : ℚ) ^ 2 = 100 := by norm_num
    rw [hscale]
    exact_mod_cast hhundred

lemma takenFrom_integer {c : Text} (hc : pyUpper T.toUpperTable c = c) {n : ℤ}
    (h : n.natAbs * 100 < 10 ^ 28) {v : Value T.toDigitTables H}
    (hv : integerIn T.toDigitTables H v = some n) (hblank : blankInside T.toDigitTables H v = false) :
    takenFrom T.toDigitTables H c v = unitsOf c n := by
  have hcounted : countedIn T.toDigitTables H c v = unitsOf c n := by
    rw [countedIn, amountIn_of_integerIn hv, Option.map_some, Option.getD_some,
      countedUnits_intCast hc h]
  rw [← hcounted]
  symm
  rw [countedIn_eq_takenFrom_iff]
  unfold ReadsAlike
  rw [hv, amountIn_of_integerIn hv]
  split
  · exact lt_of_le_of_lt (Nat.le_mul_of_pos_right _ (by norm_num)) h
  · split
    · intro x hx
      rw [if_neg (by simp [hblank])]
      intro k hk
      -- a tie is no integer
      cases hx
      exfalso
      rw [← Int.cast_abs] at hk
      have htwice : ((2 * |n| : ℤ) : ℚ) = ((4 * k + 1 : ℕ) : ℚ) := by
        push_cast at hk ⊢
        linarith
      have hint : 2 * |n| = ((4 * k + 1 : ℕ) : ℤ) := by exact_mod_cast htwice
      omega
    · intro x _ hinside
      rw [hblank] at hinside
      cases hinside

section Printed

variable (n : ℤ)

lemma dropCommas_pyInt : dropCommas (pyInt n) = pyInt n := by
  apply List.filter_eq_self.mpr
  intro c hc
  simp [(pyInt_char hc).2.1]

lemma space_not_mem_pyInt : ' ' ∉ pyInt n := by
  intro hmem
  have hspace := (pyInt_char hmem).1
  cases hspace

lemma dropBlanks_pyInt : dropBlanks (pyInt n) = pyInt n := by
  apply List.filter_eq_self.mpr
  intro c hc
  have hne : c ≠ ' ' := by
    rintro rfl
    exact space_not_mem_pyInt n hc
  simpa using hne

lemma amountIn_int : amountIn T.toDigitTables H (.int n) = some (n : ℚ) := by
  change pyDecimal T.toUnicodeTables (dropBlanks (dropCommas (pyInt n))) = _
  rw [dropCommas_pyInt, dropBlanks_pyInt]
  exact pyDecimal_pyInt T.toDigitTables n

lemma blankInside_int : blankInside T.toDigitTables H (.int n) = false := by
  change decide (' ' ∈ pyStrip (dropCommas (pyInt n))) = false
  rw [dropCommas_pyInt, decide_eq_false_iff_not, pyStrip_of_stripped]
  · exact space_not_mem_pyInt n
  · exact ⟨fun c hc => (pyInt_char (List.mem_of_mem_head? hc)).1,
      fun c hc => (pyInt_char (List.mem_of_mem_getLast? hc)).1⟩

end Printed

/-- A deposit that is the integer itself. -/
lemma takenFrom_int {c : Text} (hc : pyUpper T.toUpperTable c = c) {n : ℤ}
    (h : n.natAbs * 100 < 10 ^ 28) : takenFrom T.toDigitTables H c (.int n) = unitsOf c n := by
  by_cases hzero : n = 0
  · subst hzero
    have hunits : minorUnits T.toDigitTables c ((0 : ℤ) : ℚ) = 0 := by
      rw [minorUnits, Int.cast_zero, zero_mul, ← Int.cast_zero, inContext_of_fits (by norm_num),
        roundHalfUp_intCast]
    have hnone : integerIn T.toDigitTables H (.int 0) = none := if_neg (by simp [pyTruthy])
    have hright : unitsOf c 0 = 0 := by
      unfold unitsOf
      split <;> simp
    rw [hright, takenFrom, hnone, amountIn_int, blankInside_int, Option.map_some, hunits]
    simp
  · have hdigits : (pyDigits n.natAbs).length ≤ 4300 := by
      have hlength := @Nat.length_toDigits_le_iff 10 n.natAbs 28 (by decide) (by decide)
      refine (hlength.mpr ?_).trans (by norm_num)
      omega
    apply takenFrom_integer hc h _ (blankInside_int n)
    have htruthy : pyTruthy H (.int n) = true := by simp [pyTruthy, hzero]
    rw [integerIn, if_pos htruthy]
    change pyIntOf T.toUnicodeTables (dropBlanks (dropCommas (pyInt n))) = _
    rw [dropCommas_pyInt, dropBlanks_pyInt]
    exact pyIntOf_pyInt T.toDigitTables hdigits

section Lists

variable {fields : Fields T.toDigitTables H} {currency : Text} {items : List (Value T.toDigitTables H)}
  {v : Value T.toDigitTables H}

/-- A deposit of a list counts as its integer. -/
lemma countedIn_listed {c : Text} (hc : pyUpper T.toUpperTable c = c)
    (h : ListedDeposit T.toDigitTables H v) :
    countedIn T.toDigitTables H c v = unitsOf c ((integerIn T.toDigitTables H v).getD 0) := by
  unfold ListedDeposit at h
  cases hint : integerIn T.toDigitTables H v with
  | some n =>
    rw [hint] at h
    rw [countedIn, amountIn_of_integerIn hint, Option.map_some, Option.getD_some,
      countedUnits_intCast hc h.2]
    rfl
  | none =>
    rw [hint] at h
    have hzero : unitsOf c 0 = 0 := by
      unfold unitsOf
      split <;> simp
    rw [Option.getD_none, hzero, countedIn, getD_map_eq_zero]
    intro x hx
    have hsmall := h x hx
    have hfits : |x| + 1 / 2 < 10 ^ 28 := by linarith
    unfold countedUnits
    split
    · rw [inContext_of_fits hfits, roundHalfEven_eq_zero_iff]
      linarith
    · next hwhole =>
      rw [minorUnits, scaleOf_eq, hc, if_neg (not_or.mp hwhole).2]
      have habs : |x * 10 ^ 2| = |x| * 100 := by
        rw [abs_mul]
        norm_num
      rw [inContext_of_fits (by rw [habs]; linarith), roundHalfUp_eq_zero_iff, habs]
      linarith

/-- `get_client_statistics` adds the same integers up. -/
lemma listedInteger_eq (h : ListedDeposit T.toDigitTables H v) :
    (pyIntOf T.toUnicodeTables (pyStrip (dropCommas
      (pyStr H (pyOr H v (.str "0".toList)))))).getD 0 = (integerIn T.toDigitTables H v).getD 0 := by
  have hstrip : ∀ s t : Text, pyStrip s = pyStrip t →
      pyIntOf T.toUnicodeTables s = pyIntOf T.toUnicodeTables t := by
    intro s t hst
    unfold pyIntOf
    rw [hst]
  have hself : ∀ t : Text, pyStrip (pyStrip t) = pyStrip t :=
    fun t => pyStrip_of_stripped (stripped_pyStrip t)
  unfold ListedDeposit at h
  unfold integerIn at h ⊢
  by_cases htruthy : pyTruthy H v = true
  · rw [pyOr, if_pos htruthy, if_pos htruthy] at *
    rw [hstrip _ (dropCommas (pyStr H v)) (hself _)]
    by_cases hblank : ' ' ∈ pyStrip (dropCommas (pyStr H v))
    · have hnone : pyIntOf T.toUnicodeTables (dropCommas (pyStr H v)) = none := by
        by_contra hsome
        obtain ⟨n, hn⟩ := Option.ne_none_iff_exists'.mp hsome
        have hread := pyDecimal_of_pyIntOf hn
        rw [pyDecimal_of_blank hblank] at hread
        cases hread
      rw [hnone]
      split at h
      · have hinside : blankInside T.toDigitTables H v = true := decide_eq_true hblank
        rw [hinside] at h
        cases h.1
      · next hint =>
        rw [hint]
    · rw [hstrip _ _ (dropBlanks_blankless hblank)]
  · rw [pyOr, if_neg htruthy, if_neg htruthy]
    change (pyIntOf T.toUnicodeTables (pyStrip (dropCommas "0".toList))).getD 0 = 0
    have hzero := @pyIntOf_zero T
    rw [hstrip (pyStrip (dropCommas "0".toList)) (dropBlanks (dropCommas "0".toList)) (by decide), hzero]
    rfl

lemma listedIntegers_eq (h : ∀ r ∈ items.filterMap asFields,
    ListedDeposit T.toDigitTables H (get r "deposit")) :
    listedIntegers T.toDigitTables H items = integersTotal T.toDigitTables H items :=
  congrArg List.sum (List.map_congr_left (fun r hr => listedInteger_eq (h r hr)))

/-- The list comes to the units of its integers. -/
lemma listedUnits_eq {cur : Text} (h : ListReadsAlike T.toDigitTables H fields currency items cur) :
    listedUnits T.toDigitTables H fields currency items =
      some (unitsOf cur (integersTotal T.toDigitTables H items)) := by
  have hsum : ∀ ns : List ℤ, (ns.map (unitsOf cur)).sum = unitsOf cur ns.sum := by
    intro ns
    unfold unitsOf
    split
    · rw [List.map_id']
    · induction ns with
      | nil => simp
      | cons n ns ih => rw [List.map_cons, List.sum_cons, List.sum_cons, ih, add_mul]
  have hread : listedUnits T.toDigitTables H fields currency items =
      some ((items.filterMap asFields).map (fun r =>
        unitsOf cur ((integerIn T.toDigitTables H (get r "deposit")).getD 0))).sum := by
    apply sumMinor_of_forall
    intro r hr
    obtain ⟨c, hc, hwhole⟩ := h.currencies r hr
    rw [hc, Option.map_some, countedIn_listed (pyUpper_reportCurrency hc) (h.deposits r hr)]
    unfold unitsOf
    rw [hwhole]
  rw [hread, integersTotal, ← hsum, List.map_map]
  rfl

/-- A list of integers and the deposit of its document. -/
lemma listPaid_of_readsAlike {cur : Text} (hcur : pyUpper T.toUpperTable cur = cur)
    (h : ListReadsAlike T.toDigitTables H fields currency items cur) :
    ListPaid T.toDigitTables H fields items cur
      (unitsOf cur (integersTotal T.toDigitTables H items)) := by
  have hzero : unitsOf cur 0 = 0 := by
    unfold unitsOf
    split <;> simp
  have hdeposit : get fields "deposit" ≠ .null →
      if unitsOf cur (integersTotal T.toDigitTables H items) = 0 then
        ReadsAlike T.toDigitTables H cur (get fields "deposit")
      else unitsOf cur (integersTotal T.toDigitTables H items) =
        takenFrom T.toDigitTables H cur (get fields "deposit") := by
    intro hne
    rcases h.deposit with hnull | ⟨hint, hblank⟩ | ⟨htotal, halike⟩
    · exact absurd hnull hne
    · have htaken := takenFrom_integer hcur h.small hint hblank
      split
      · next heq =>
        rw [← countedIn_eq_takenFrom_iff, htaken, countedIn, amountIn_of_integerIn hint,
          Option.map_some, Option.getD_some, countedUnits_intCast hcur h.small]
      · exact htaken.symm
    · rw [htotal, hzero, if_pos rfl]
      exact halike
  unfold ListPaid
  split
  · rw [listedIntegers_eq h.deposits]
    exact (takenFrom_int hcur h.small).symm
  · next v hv =>
    exact hdeposit hv

end Lists

end Agreement

/-- Two deposits in euros, one of them with a separator, and their sum. -/
def euroFields : Fields asciiDigitTables plainHost :=
  [("deposit".toList, .int 1250), ("currency".toList, .str "EUR".toList),
    ("deposits".toList, .arr [.obj [("deposit".toList, .str "1,000".toList)],
      .obj [("deposit".toList, .int 250), ("currency".toList, .str "CNY".toList)]])]

/-- A deposit of `12.34` dollars that replaces the payment data. -/
def centsPayload : SaveRequest asciiDigitTables plainHost :=
  .json (.obj [("payment_meta".toList, .obj [("deposit".toList, .str "12.34".toList)])])

/-- What is stored of it, with the currency of the invoice. -/
def centsFields : Fields asciiDigitTables plainHost :=
  [("deposit".toList, .str "12.34".toList), ("currency".toList, .str "USD".toList)]

end IpDocket.Billing
