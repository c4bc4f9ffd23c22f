import Mathlib.Algebra.BigOperators.Group.List.Basic
import IpDocket.Billing.Money

/-!
# Totals of an invoice and in the statistics

The total of an invoice is computed twice: by `compute_totals_minor` from the line items, and by
the SQL of `get_client_statistics` from the stored rows. Both are modelled in exact arithmetic.
They differ in the lines they tax, in discounts outside of 0 to 100, in the decimal places of
what they read, and in how they round.
-/

namespace IpDocket.Billing
open IpDocket.Lib

inductive ItemType
  | service
  | admin
  | foreign
  deriving DecidableEq

structure LineItem where
  itemType : ItemType
  qty : ℚ
  unitPrice : ℚ
  discount : Option ℚ
  isTaxable : Bool
  isEstimated : Bool
  fxRateUsed : Option ℚ
  fxFee : Option ℚ
  fxGov : Option ℚ
  fxMarkup : Option ℚ
  deriving DecidableEq

/-- Two decimal places, half up; a missing value is zero. -/
def d (v : Option ℚ) : ℚ := quantize roundHalfUp 2 (v.getD 0)

def clampDiscount (pct : ℚ) : ℚ := max 0 (min 100 pct)

/-- The line has an amount in another currency and a rate. -/
def LineItem.usesFx (it : LineItem) : Bool := it.itemType = .foreign ∧ 0 < it.fxRateUsed.getD 0

/-- The amount of a line in `compute_totals`. -/
def LineItem.amount (it : LineItem) : ℚ :=
  if it.usesFx then
    (d it.fxFee + d it.fxGov) * it.fxRateUsed.getD 0 * (1 + d it.fxMarkup / 100)
  else
    let itemAmt := d it.qty * d it.unitPrice
    itemAmt - itemAmt * clampDiscount (d it.discount) / 100

/-- One round of the loop over the items. -/
def totalsStep (acc : ℚ × ℚ) (it : LineItem) : ℚ × ℚ :=
  if it.isEstimated then acc
  else (acc.1 + it.amount, if it.isTaxable then acc.2 + it.amount else acc.2)

/-- A rate above one is a percentage. -/
def vatMultiplier (rate : ℚ) : ℚ := if 1 < rate then rate / 100 else rate

/-- `compute_totals`: subtotal, tax and total. -/
def computeTotals (items : List LineItem) (vatRate : ℚ) : ℚ × ℚ × ℚ :=
  let (subtotal, taxable) := items.foldl totalsStep (0, 0)
  let tax := quantize roundHalfEven 2 (taxable * vatMultiplier (d vatRate))
  (subtotal, tax, subtotal + tax)

section Currency

variable (U : UpperTable)

def computeTotalsMinor (items : List LineItem) (vatRate : ℚ) (currency : Option Text) :
    ℤ × ℤ × ℤ :=
  let (subtotal, tax, total) := computeTotals items vatRate
  (toMinor U subtotal currency, toMinor U tax currency, toMinor U total currency)

/-- The amount of a line in SQL. -/
def LineItem.sqlAmount (it : LineItem) : ℚ :=
  if it.usesFx then
    (it.fxFee.getD 0 + it.fxGov.getD 0) * it.fxRateUsed.getD 0 * (1 + it.fxMarkup.getD 0 / 100)
  else it.qty * it.unitPrice * (1 - it.discount.getD 0 / 100)

/-- `_subq`: the sum over the rows of a type that are not estimated. -/
def subq (items : List LineItem) (itemType : ItemType) (taxFilter : LineItem → Bool) : ℚ :=
  ((items.filter (fun it => it.itemType = itemType ∧ it.isEstimated = false ∧ taxFilter it)).map
    LineItem.sqlAmount).sum

/-- `calc_total_sql`. -/
def calcTotalSql (items : List LineItem) (vatRate : ℚ) : ℚ :=
  let svc := subq items .service (fun _ => true)
  let adm := subq items .admin (fun _ => true)
  let frn := subq items .foreign (fun _ => true)
  let frnTax := subq items .foreign LineItem.isTaxable
  svc + adm + frn + (svc + frnTax) * vatMultiplier vatRate

/-- `_currency_multiplier_sql`. -/
def currencyMultiplierSql (currency : Option Text) : Nat :=
  match currencyScale.lookup (pyUpper U (currency.getD "USD".toList)) with
  | some scale => 10 ^ scale
  | none => 100

/-- `billed_minor` of an invoice. -/
def billedMinor (items : List LineItem) (vatRate : ℚ) (currency : Option Text) : ℤ :=
  truncate (calcTotalSql items vatRate * currencyMultiplierSql U currency)

lemma currencyMultiplierSql_eq (currency : Option Text) :
    currencyMultiplierSql U currency = 10 ^ scaleOf U currency := by
  unfold currencyMultiplierSql scaleOf
  match currency with
  | none =>
    dsimp only [Option.getD_none]
    cases currencyScale.lookup (pyUpper U "USD".toList) <;> rfl
  | some [] =>
    have husd : pyUpper U "USD".toList = "USD".toList := pyUpper_of_lt (by decide)
    dsimp only [Option.getD_some]
    rw [husd]
    rfl
  | some (c :: code) =>
    dsimp only [Option.getD_some]
    cases currencyScale.lookup (pyUpper U (c :: code)) <;> rfl

end Currency

/-- The tax on a line of the invoice before it is rounded. -/
def LineItem.tax (vatRate : ℚ) (it : LineItem) : ℚ :=
  if it.isTaxable then it.amount * vatMultiplier (d vatRate) else 0

/-- The lines that the statistics tax: all services and the foreign lines that are taxable. -/
def LineItem.taxedInSql (it : LineItem) : Bool :=
  it.itemType = .service ∨ it.itemType = .foreign ∧ it.isTaxable

def LineItem.sqlTax (vatRate : ℚ) (it : LineItem) : ℚ :=
  if it.taxedInSql then it.sqlAmount * vatMultiplier vatRate else 0

def billedItems (items : List LineItem) : List LineItem := items.filter (fun it => !it.isEstimated)

/-- The tax of the invoice, line by line and not rounded. -/
def exactTax (items : List LineItem) (vatRate : ℚ) : ℚ :=
  ((billedItems items).map (LineItem.tax vatRate)).sum

/-- What is owed for the lines, with the tax in whole cents. -/
def owedTotal (items : List LineItem) (vatRate : ℚ) : ℚ :=
  ((billedItems items).map LineItem.amount).sum +
    quantize roundHalfEven 2 (exactTax items vatRate)

/-- What the statistics bill too much for a line: by its amount and by its tax. -/
def LineItem.gap (vatRate : ℚ) (it : LineItem) : ℚ :=
  (it.sqlAmount - it.amount) + (it.sqlTax vatRate - it.tax vatRate)

/-- What the statistics bill too much: line by line, and for not rounding the tax. -/
def statisticsGap (items : List LineItem) (vatRate : ℚ) : ℚ :=
  ((billedItems items).map (LineItem.gap vatRate)).sum +
    (exactTax items vatRate - quantize roundHalfEven 2 (exactTax items vatRate))

lemma foldl_totalsStep (items : List LineItem) (acc : ℚ × ℚ) :
    items.foldl totalsStep acc =
      (acc.1 + ((billedItems items).map LineItem.amount).sum,
        acc.2 + ((billedItems items).map (fun it => if it.isTaxable then it.amount else 0)).sum) := by
  induction items generalizing acc with
  | nil => simp [billedItems]
  | cons it items ih =>
    rw [List.foldl_cons, ih]
    cases hest : it.isEstimated with
    | true =>
      simp [totalsStep, billedItems, hest]
    | false =>
      simp only [totalsStep, hest, billedItems, List.filter_cons, Bool.not_false, if_true,
        Bool.false_eq_true, if_false, List.map_cons, List.sum_cons]
      cases it.isTaxable <;> simp [add_assoc]

lemma sum_map_ite_mul {α : Type} (p : α → Bool) (f : α → ℚ) (c : ℚ) (xs : List α) :
    (xs.map (fun x => if p x then f x * c else 0)).sum =
      (xs.map (fun x => if p x then f x else 0)).sum * c := by
  induction xs with
  | nil => simp
  | cons x xs ih =>
    rw [List.map_cons, List.sum_cons, List.map_cons, List.sum_cons, ih, add_mul, ite_mul, zero_mul]

/-- The total of the invoice before it is rounded to minor units. -/
lemma computeTotals_total (items : List LineItem) (vatRate : ℚ) :
    (computeTotals items vatRate).2.2 = owedTotal items vatRate := by
  have htax : exactTax items vatRate =
      ((billedItems items).map (fun it => if it.isTaxable then it.amount else 0)).sum *
        vatMultiplier (d vatRate) :=
    sum_map_ite_mul LineItem.isTaxable LineItem.amount _ _
  unfold computeTotals owedTotal
  rw [foldl_totalsStep, htax, zero_add, zero_add]

/-- The sum over one type and one filter, as a sum over all billed items. -/
lemma subq_eq (items : List LineItem) (itemType : ItemType) (taxFilter : LineItem → Bool) :
    subq items itemType taxFilter = ((billedItems items).map (fun it =>
      if it.itemType = itemType ∧ taxFilter it then it.sqlAmount else 0)).sum := by
  have hfilter : items.filter (fun it => it.itemType = itemType ∧ it.isEstimated = false ∧
      taxFilter it) = (billedItems items).filter (fun it => it.itemType = itemType ∧ taxFilter it) := by
    unfold billedItems
    rw [List.filter_filter]
    apply List.filter_congr
    intro it _
    cases it.isEstimated <;> simp
  rw [subq, hfilter, List.sum_map_ite]
  simp

/-- The statistics as a sum over the billed items. -/
lemma calcTotalSql_eq (items : List LineItem) (vatRate : ℚ) :
    calcTotalSql items vatRate =
      ((billedItems items).map (fun it => it.sqlAmount + it.sqlTax vatRate)).sum := by
  unfold calcTotalSql
  simp only [subq_eq]
  induction billedItems items with
  | nil => simp
  | cons it items ih =>
    simp only [List.map_cons, List.sum_cons]
    rw [← ih]
    unfold LineItem.sqlTax LineItem.taxedInSql
    cases it.itemType <;> cases it.isTaxable <;> simp <;> ring

/-- The two totals before they are rounded differ by the gap. -/
lemma calcTotalSql_eq_add_gap (items : List LineItem) (vatRate : ℚ) :
    calcTotalSql items vatRate = owedTotal items vatRate + statisticsGap items vatRate := by
  have hsum : ((billedItems items).map (fun it => it.sqlAmount + it.sqlTax vatRate)).sum =
      ((billedItems items).map LineItem.amount).sum +
        ((billedItems items).map (LineItem.tax vatRate)).sum +
        ((billedItems items).map (LineItem.gap vatRate)).sum := by
    induction billedItems items with
    | nil => simp
    | cons it items ih =>
      simp only [List.map_cons, List.sum_cons, ih, LineItem.gap]
      ring
  rw [calcTotalSql_eq, hsum, owedTotal, statisticsGap, exactTax]
  ring

/-- The statistics bill what the invoice says exactly when the gap keeps the total, in minor
units, within the unit it is rounded to. -/
lemma billedMinor_eq_iff (U : UpperTable) (items : List LineItem) (vatRate : ℚ)
    (currency : Option Text) :
    billedMinor U items vatRate currency = (computeTotalsMinor U items vatRate currency).2.2 ↔
      StaysInUnit (owedTotal items vatRate * 10 ^ scaleOf U currency)
        (statisticsGap items vatRate * 10 ^ scaleOf U currency) := by
  have htotal : (computeTotalsMinor U items vatRate currency).2.2 =
      roundHalfUp (owedTotal items vatRate * 10 ^ scaleOf U currency) := by
    rw [← computeTotals_total, ← toMinor_eq]
    rfl
  have hbilled : billedMinor U items vatRate currency =
      truncate (owedTotal items vatRate * 10 ^ scaleOf U currency +
        statisticsGap items vatRate * 10 ^ scaleOf U currency) := by
    rw [billedMinor, currencyMultiplierSql_eq, calcTotalSql_eq_add_gap, ← add_mul]
    push_cast
    rfl
  rw [htotal, hbilled]
  exact truncate_eq_roundHalfUp_iff _ _

lemma d_of_twoDecimals {v : Option ℚ} (h : TwoDecimals (v.getD 0)) : d v = v.getD 0 := by
  obtain ⟨n, hn⟩ := h
  have hscale : v.getD 0 * 10 ^ 2 = n := by
    rw [← hn]
    norm_num
  rw [d, quantize, hscale, roundHalfUp_intCast, div_eq_iff (by norm_num), hscale]

/-- A line that both read in the same way: its values have two decimal places, its discount is
between 0 and 100, and it is flagged taxable if it is a service and not if it is administrative. -/
structure LineItem.Regular (it : LineItem) : Prop where
  plain : it.usesFx = false → TwoDecimals it.qty ∧ TwoDecimals it.unitPrice ∧
    TwoDecimals (it.discount.getD 0) ∧ 0 ≤ it.discount.getD 0 ∧ it.discount.getD 0 ≤ 100
  fx : it.usesFx = true → TwoDecimals (it.fxFee.getD 0) ∧ TwoDecimals (it.fxGov.getD 0) ∧
    TwoDecimals (it.fxMarkup.getD 0)
  service : it.itemType = .service → it.isTaxable = true
  admin : it.itemType = .admin → it.isTaxable = false

lemma LineItem.Regular.taxed {it : LineItem} (h : it.Regular) : it.taxedInSql = it.isTaxable := by
  unfold LineItem.taxedInSql
  cases htype : it.itemType with
  | service => simp [h.service htype]
  | admin => simp [h.admin htype]
  | foreign => simp

lemma LineItem.Regular.amount_eq {it : LineItem} (h : it.Regular) : it.amount = it.sqlAmount := by
  unfold LineItem.amount LineItem.sqlAmount
  cases hfx : it.usesFx with
  | true =>
    obtain ⟨hfee, hgov, hmarkup⟩ := h.fx hfx
    rw [if_pos rfl, if_pos rfl, d_of_twoDecimals hfee, d_of_twoDecimals hgov,
      d_of_twoDecimals hmarkup]
  | false =>
    obtain ⟨hqty, hunit, hdiscount, hlow, hhigh⟩ := h.plain hfx
    have hclamp : clampDiscount (it.discount.getD 0) = it.discount.getD 0 := by
      rw [clampDiscount, min_eq_right hhigh, max_eq_right hlow]
    rw [if_neg Bool.false_ne_true, if_neg Bool.false_ne_true]
    dsimp only
    rw [d_of_twoDecimals (v := some it.qty) hqty, d_of_twoDecimals (v := some it.unitPrice) hunit,
      d_of_twoDecimals hdiscount, hclamp, Option.getD_some, Option.getD_some]
    ring

lemma LineItem.Regular.gap_eq_zero {it : LineItem} (h : it.Regular) {vatRate : ℚ}
    (hvat : d vatRate = vatRate) : it.gap vatRate = 0 := by
  have htax : it.tax vatRate = it.sqlTax vatRate := by
    unfold LineItem.tax LineItem.sqlTax
    rw [h.taxed, hvat, h.amount_eq]
  rw [LineItem.gap, h.amount_eq, htax]
  ring

/-- For regular lines the gap is what the tax loses when it is rounded to cents. -/
lemma statisticsGap_of_regular {items : List LineItem} {vatRate : ℚ}
    (hitems : ∀ it ∈ billedItems items, it.Regular) (hvat : d vatRate = vatRate) :
    statisticsGap items vatRate =
      exactTax items vatRate - quantize roundHalfEven 2 (exactTax items vatRate) := by
  have hzero : ((billedItems items).map (LineItem.gap vatRate)).sum = 0 := by
    apply List.sum_eq_zero
    intro x hx
    obtain ⟨it, hit, rfl⟩ := List.mem_map.mp hx
    exact (hitems it hit).gap_eq_zero hvat
  rw [statisticsGap, hzero, zero_add]

/-- What a line comes to, multiplied out. -/
def LineItem.worth (it : LineItem) : ℚ :=
  if it.usesFx then
    (it.fxFee.getD 0 + it.fxGov.getD 0) * it.fxRateUsed.getD 0 * (1 + it.fxMarkup.getD 0 / 100)
  else it.qty * it.unitPrice * (1 - it.discount.getD 0 / 100)

def netWorth (items : List LineItem) : ℚ := ((billedItems items).map LineItem.worth).sum

/-- The tax on the lines that are flagged, multiplied out. -/
def taxWorth (items : List LineItem) (vatRate : ℚ) : ℚ :=
  (((billedItems items).filter LineItem.isTaxable).map LineItem.worth).sum * vatMultiplier vatRate

/-- The lines are regular, the rate has two decimal places, and neither the tax, in cents, nor the
total, in minor units, leaves anything to round. -/
structure NothingToRound (U : UpperTable) (items : List LineItem) (vatRate : ℚ)
    (currency : Option Text) : Prop where
  lines : ∀ it ∈ billedItems items, it.Regular
  rate : TwoDecimals vatRate
  tax : TwoDecimals (taxWorth items vatRate)
  total : IsWhole ((netWorth items + taxWorth items vatRate) * 10 ^ scaleOf U currency)

/-- What the tax is without rounding, for regular lines. -/
lemma exactTax_of_regular {items : List LineItem} {vatRate : ℚ}
    (hitems : ∀ it ∈ billedItems items, it.Regular) (hvat : d vatRate = vatRate) :
    exactTax items vatRate = taxWorth items vatRate := by
  have htaxed : ((billedItems items).map (fun it => if it.isTaxable then it.amount else 0)).sum =
      (((billedItems items).filter LineItem.isTaxable).map LineItem.worth).sum := by
    have hworth : ((billedItems items).map (fun it => if it.isTaxable then it.amount else 0)).sum =
        ((billedItems items).map (fun it => if it.isTaxable then it.worth else 0)).sum := by
      refine congrArg List.sum (List.map_congr_left ?_)
      intro it hit
      rw [(hitems it hit).amount_eq]
      rfl
    rw [hworth, List.sum_map_ite]
    simp
  calc exactTax items vatRate
      = ((billedItems items).map (fun it => if it.isTaxable then it.amount else 0)).sum *
          vatMultiplier (d vatRate) := sum_map_ite_mul LineItem.isTaxable LineItem.amount _ _
    _ = taxWorth items vatRate := by rw [htaxed, hvat, taxWorth]

/-- Where the lines are regular and nothing is left to round, the statistics bill what the invoice
says. -/
theorem statistics_agree_of_regular (U : UpperTable) (items : List LineItem) (vatRate : ℚ)
    (currency : Option Text) (h : NothingToRound U items vatRate currency) :
    billedMinor U items vatRate currency = (computeTotalsMinor U items vatRate currency).2.2 := by
  have hvat : d vatRate = vatRate := d_of_twoDecimals (v := some vatRate) h.rate
  have htax := exactTax_of_regular h.lines hvat
  have hcents : quantize roundHalfEven 2 (taxWorth items vatRate) = taxWorth items vatRate := by
    obtain ⟨n, hn⟩ := h.tax
    have hscale : taxWorth items vatRate * 10 ^ 2 = n := by
      rw [← hn]
      norm_num
    rw [quantize, hscale, roundHalfEven_intCast, div_eq_iff (by norm_num), hscale]
  have hgap : statisticsGap items vatRate = 0 := by
    rw [statisticsGap_of_regular h.lines hvat, htax, hcents, sub_self]
  have howed : owedTotal items vatRate = netWorth items + taxWorth items vatRate := by
    rw [owedTotal, htax, hcents]
    congr 2
    exact List.map_congr_left (fun it hit => (h.lines it hit).amount_eq)
  obtain ⟨n, hn⟩ := h.total
  rw [billedMinor_eq_iff, howed, hgap, hn, zero_mul, ← truncate_eq_roundHalfUp_iff, add_zero,
    truncate_intCast, roundHalfUp_intCast]

/-- A service with a discount, an administrative line, a foreign fee and an estimate, in euros. -/
def plainItems : List LineItem :=
  [⟨.service, 2, 50, some 10, true, false, none, none, none, none⟩,
    ⟨.admin, 1, 25 / 2, none, false, false, none, none, none, none⟩,
    ⟨.foreign, 1, 0, none, false, false, some (9 / 10), some 100, some 50, some 10⟩,
    ⟨.service, 1, 999, none, true, true, none, none, none, none⟩]

theorem statistics_agree_plain :
    billedMinor asciiTable plainItems 10 (some "EUR".toList) = 26000 ∧
      billedMinor asciiTable plainItems 10 (some "EUR".toList) =
        (computeTotalsMinor asciiTable plainItems 10 (some "EUR".toList)).2.2 := by
  refine ⟨by decide +kernel, statistics_agree_of_regular asciiTable plainItems 10 _
    ⟨?_, by decide +kernel, by decide +kernel, by decide +kernel⟩⟩
  have hitems : billedItems plainItems = plainItems.take 3 := rfl
  rw [hitems]
  simp only [plainItems, List.take_succ_cons, List.take_zero, List.forall_mem_cons]
  refine ⟨?_, ?_, ?_, List.forall_mem_nil _⟩
  · exact ⟨by decide +kernel, by decide, by decide, by decide⟩
  · exact ⟨by decide +kernel, by decide, by decide, by decide⟩
  · exact ⟨by decide +kernel, by decide +kernel, by decide, by decide⟩

/-- A service of 100 that is not taxable, billed with a tax of ten percent. -/
theorem statistics_tax_untaxed_service :
    ¬∀ (items : List LineItem) (vatRate : ℚ) (currency : Option Text),
      billedMinor asciiTable items vatRate currency =
        (computeTotalsMinor asciiTable items vatRate currency).2.2 := by
  intro h
  have hsame := h [⟨.service, 1, 100, none, false, false, none, none, none, none⟩] 10
    (some "USD".toList)
  exact absurd hsame (by decide +kernel)

end IpDocket.Billing
