import IpDocket.Billing.InvoiceTotals

/-!
# Spellings of a tax rate

A rate is given as a percentage or as a fraction of one. Either is rounded to hundredths before the two
are told apart, so that a percentage keeps two places and a fraction only whole percents.
-/

namespace IpDocket.Billing.InContext
open IpDocket.Lib

/-- The totals of the items at a multiplier. -/
def totalsAt (items : List TotalsItem) (multiplier : ℚ) : Option (ℚ × ℚ × ℚ) := do
  let (subtotal, taxable) ← lineSums dValue contextRound 0 0 items
  let tax ← quantizeHundredths roundHalfEven (contextRound (taxable * multiplier))
  return (subtotal, tax, contextRound (subtotal + tax))

/-- The two spellings of a rate give the same totals. -/
def SpelledAlike (U : UpperTable) (items : List TotalsItem) (percentage : ℚ) (currency : Text) : Prop :=
  computeTotalsMinor U items percentage currency = computeTotalsMinor U items (percentage / 100) currency

section Rates

variable {U : UpperTable} {items : List TotalsItem} {currency : Text}

lemma computeTotals_at {vatRate rate : ℚ} (h : dValue (.number vatRate) = some rate) :
    computeTotals items vatRate = totalsAt items (vatMultiplier rate) := by
  unfold computeTotals totalsAt
  rw [h]
  rfl

lemma computeTotalsMinor_congr {vatRate vatRate' : ℚ}
    (h : computeTotals items vatRate = computeTotals items vatRate') :
    computeTotalsMinor U items vatRate currency = computeTotalsMinor U items vatRate' currency := by
  unfold computeTotalsMinor
  rw [h]

lemma dValue_hundredths {x : ℚ} {n : ℤ} (hround : roundHalfUp (x * 100) = n) (h : n.natAbs < 10 ^ 28) :
    dValue (.number x) = some ((n : ℚ) / 100) :=
  (quantizeHundredths_eq_some roundHalfUp).mpr ⟨hround ▸ h, by rw [hround]⟩

/-- A percentage of two places is multiplied with as it is. -/
lemma percentage_multiplier {hundredths : ℤ} (hlow : 100 < hundredths) (hhigh : hundredths ≤ 10000) :
    computeTotals items (hundredths / 100) = totalsAt items (hundredths / 10 ^ 4) := by
  have hrate : dValue (.number (hundredths / 100)) = some ((hundredths : ℚ) / 100) := by
    apply dValue_hundredths
    · rw [div_mul_cancel₀ _ (by norm_num), roundHalfUp_intCast]
    · omega
  have hgt : (1 : ℚ) < hundredths / 100 := by
    rw [lt_div_iff₀ (by norm_num)]
    exact_mod_cast hlow
  have hplaces : (hundredths : ℚ) / 100 / 100 = hundredths / 10 ^ 4 := by ring
  rw [computeTotals_at hrate, vatMultiplier, if_pos hgt, hplaces,
    contextRound_of_digits (by omega : hundredths.natAbs < 10 ^ 28)]

/-- A fraction is multiplied with in whole percents. -/
lemma fraction_multiplier {hundredths percents : ℤ} (hround : roundHalfUp (hundredths / 100) = percents)
    (hlow : 0 ≤ percents) (hhigh : percents ≤ 100) :
    computeTotals items (hundredths / 100 / 100) = totalsAt items (percents / 100) := by
  have hrate : dValue (.number (hundredths / 100 / 100)) = some ((percents : ℚ) / 100) := by
    apply dValue_hundredths
    · rw [div_mul_cancel₀ _ (by norm_num), hround]
    · omega
  have hle : (percents : ℚ) / 100 ≤ 1 := by
    rw [div_le_iff₀ (by norm_num)]
    exact_mod_cast (by omega : percents ≤ 1 * 100)
  rw [computeTotals_at hrate, vatMultiplier, if_neg (not_lt.mpr hle)]

/-- A percentage in whole percents is one of those up to a hundred. -/
lemma percents_bounds {hundredths : ℤ} (hlow : 100 < hundredths) (hhigh : hundredths ≤ 10000) :
    0 ≤ roundHalfUp (hundredths / 100) ∧ roundHalfUp (hundredths / 100) ≤ 100 := by
  have hnonneg : (0 : ℚ) ≤ hundredths / 100 := by
    apply div_nonneg _ (by norm_num)
    exact_mod_cast (by omega : 0 ≤ hundredths)
  obtain ⟨hbelow, habove⟩ := (roundHalfUp_of_nonneg hnonneg _).mp rfl
  have hhundred : (hundredths : ℚ) / 100 ≤ 100 := by
    rw [div_le_iff₀ (by norm_num)]
    exact_mod_cast (by omega : hundredths ≤ 100 * 100)
  constructor
  · exact roundHalfUp_nonneg hnonneg
  · have hlt : ((roundHalfUp (hundredths / 100) : ℤ) : ℚ) < (101 : ℤ) := by
      push_cast
      linarith
    have hint := Int.cast_lt.mp hlt
    omega

/-- One taxable item of a million. -/
def millionItem : TotalsItem := { qty := .number 1, unitPrice := .number 1000000 }

/-- On a million every hundredth of a percent is a hundred units of tax. -/
lemma million_totals {n : ℤ} (hlow : 0 ≤ n) (hhigh : n ≤ 10000) :
    totalsAt [millionItem] (n / 10 ^ 4) =
      some (1000000, ((100 * n : ℤ) : ℚ), ((1000000 + 100 * n : ℤ) : ℚ)) := by
  have hsums : lineSums dValue contextRound 0 0 [millionItem] = some (1000000, 1000000) := by decide +kernel
  have hround : ∀ k : ℤ, 0 ≤ k → k ≤ 2000000 → contextRound (k : ℚ) = k := by
    intro k hk hsmall
    have hdigits := contextRound_of_digits (n := k) (s := 0) (by omega)
    rwa [pow_zero, div_one] at hdigits
  have hproduct : (1000000 : ℚ) * (n / 10 ^ 4) = ((100 * n : ℤ) : ℚ) := by
    push_cast
    ring
  have hcents : ((100 * n : ℤ) : ℚ) * 100 = ((10000 * n : ℤ) : ℚ) := by
    push_cast
    ring
  have htax : quantizeHundredths roundHalfEven ((100 * n : ℤ) : ℚ) = some ((100 * n : ℤ) : ℚ) := by
    rw [quantizeHundredths_eq_some, hcents, roundHalfEven_intCast]
    refine ⟨by omega, ?_⟩
    push_cast
    ring
  have htotal : (1000000 : ℚ) + ((100 * n : ℤ) : ℚ) = ((1000000 + 100 * n : ℤ) : ℚ) := by
    push_cast
    rfl
  unfold totalsAt
  rw [hsums]
  simp only [Option.bind_eq_bind, Option.bind_some]
  rw [hproduct, hround (100 * n) (by omega) (by omega), htax]
  simp only [Option.bind_some]
  rw [htotal, hround (1000000 + 100 * n) (by omega) (by omega)]
  rfl

lemma toMinorInContext_int {n : ℤ} (hlow : 0 ≤ n) (hhigh : n ≤ 2000000) :
    toMinorInContext U (n : ℚ) currency = some (n * 10 ^ scaleOf U (some currency)) := by
  have hcast : (n : ℚ) * 10 ^ scaleOf U (some currency) =
      ((n * 10 ^ scaleOf U (some currency) : ℤ) : ℚ) := by
    push_cast
    rfl
  rw [toMinorInContext_cell, ← roundHalfUp_eq_iff, hcast, roundHalfUp_intCast]
  refine ⟨?_, rfl⟩
  obtain hscale | hscale := scaleOf_cases U (some currency)
  · rw [hscale]
    omega
  · rw [hscale]
    omega

lemma million_minor {n : ℤ} {vatRate : ℚ} (hlow : 0 ≤ n) (hhigh : n ≤ 10000)
    (h : computeTotals [millionItem] vatRate = totalsAt [millionItem] (n / 10 ^ 4)) :
    computeTotalsMinor U [millionItem] vatRate currency =
      some (1000000 * 10 ^ scaleOf U (some currency), 100 * n * 10 ^ scaleOf U (some currency),
        (1000000 + 100 * n) * 10 ^ scaleOf U (some currency)) := by
  have hmillion : toMinorInContext U 1000000 currency =
      some (1000000 * 10 ^ scaleOf U (some currency)) := by
    have hint := @toMinorInContext_int U currency 1000000 (by omega) (by omega)
    rwa [Int.cast_ofNat] at hint
  have htax := @toMinorInContext_int U currency (100 * n) (by omega) (by omega)
  have htotal := @toMinorInContext_int U currency (1000000 + 100 * n) (by omega) (by omega)
  unfold computeTotalsMinor
  rw [h, million_totals hlow hhigh]
  simp only [Option.bind_eq_bind, Option.bind_some, hmillion, htax, htotal]
  rfl

end Rates

/-- A percentage of two places and its fraction give the same totals for all items exactly if it is
a whole number. -/
theorem spelled_alike_iff (U : UpperTable) (hundredths : ℤ) (currency : Text) (hlow : 100 < hundredths)
    (hhigh : hundredths ≤ 10000) :
    (∀ items : List TotalsItem, SpelledAlike U items (hundredths / 100) currency) ↔ hundredths % 100 = 0 := by
  obtain ⟨hnonneg, hle⟩ := percents_bounds hlow hhigh
  constructor
  · intro h
    have hplaces : (roundHalfUp (hundredths / 100) : ℚ) / 100 =
        ((100 * roundHalfUp (hundredths / 100) : ℤ) : ℚ) / 10 ^ 4 := by
      push_cast
      ring
    have hpercentage := @million_minor U currency hundredths _ (by omega) hhigh
      (percentage_multiplier hlow hhigh)
    have hfraction := @million_minor U currency (100 * roundHalfUp (hundredths / 100)) _ (by omega)
      (by omega) ((fraction_multiplier rfl hnonneg hle).trans (by rw [hplaces]))
    have heq := h [millionItem]
    unfold SpelledAlike at heq
    rw [hpercentage, hfraction, Option.some_inj, Prod.mk.injEq, Prod.mk.injEq] at heq
    have htax := mul_right_cancel₀ (pow_ne_zero _ (by norm_num)) heq.2.1
    omega
  · intro hwhole items
    obtain ⟨percents, rfl⟩ := Int.dvd_of_emod_eq_zero hwhole
    have hcast : ((100 * percents : ℤ) : ℚ) / 100 = percents := by
      push_cast
      ring
    have hround : roundHalfUp (((100 * percents : ℤ) : ℚ) / 100) = percents := by
      rw [hcast, roundHalfUp_intCast]
    have hplaces : ((100 * percents : ℤ) : ℚ) / 10 ^ 4 = percents / 100 := by
      push_cast
      ring
    apply computeTotalsMinor_congr
    rw [percentage_multiplier hlow hhigh, fraction_multiplier hround (by omega) (by omega), hplaces]

/-- Eight per cent are eight hundredths. -/
theorem spelled_alike_eight :
    SpelledAlike asciiTable [{ qty := .number 1, unitPrice := .number 100 }] ((800 : ℤ) / 100) "USD".toList :=
  (spelled_alike_iff asciiTable 800 "USD".toList (by decide) (by decide)).mpr (by decide)
    [{ qty := .number 1, unitPrice := .number 100 }]

/-- Of seven and three quarters per cent the fraction becomes eight. -/
theorem fraction_of_percent :
    ¬SpelledAlike asciiTable [{ qty := .number 1, unitPrice := .number 100 }] (31 / 4) "USD".toList := by
  have hpercentage : computeTotalsMinor asciiTable [{ qty := .number 1, unitPrice := .number 100 }] (31 / 4)
      "USD".toList = some (10000, 775, 10775) := by decide +kernel
  have hfraction : computeTotalsMinor asciiTable [{ qty := .number 1, unitPrice := .number 100 }]
      (31 / 4 / 100) "USD".toList = some (10000, 800, 10800) := by decide +kernel
  unfold SpelledAlike
  rw [hpercentage, hfraction]
  decide

end IpDocket.Billing.InContext
