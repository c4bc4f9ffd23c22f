import IpDocket.Billing.Statistics
import IpDocket.Lib.DecimalContext

/-!
# Totals of an invoice in the decimal context

`compute_totals` adds the items up in decimal arithmetic and takes the tax, rounded half to even, on
those that are taxable; `compute_totals_minor` rounds the subtotal, the tax and their sum, half up, to the
unit of the currency, each for itself. Here the items are as they are given and every result has the
digits of the context. A number of `decimal` is finite; `none` stands for an exception.
-/

namespace IpDocket.Billing.InContext
open IpDocket.Lib

/-- The value of a field of an item: `None`, a number, or a text that is none. -/
inductive AmountValue
  | missing
  | number (x : ℚ)
  | unreadable
  deriving DecidableEq

structure TotalsItem where
  isEstimated : Bool := false
  itemType : Text := []
  qty : AmountValue := .missing
  unitPrice : AmountValue := .missing
  discount : AmountValue := .missing
  fxRateUsed : AmountValue := .missing
  fxFee : AmountValue := .missing
  fxGov : AmountValue := .missing
  fxMarkup : AmountValue := .missing
  isTaxable : Option Bool := none

/-- `quantize(Decimal("0.01"))` fails when the result does not fit into the 28 digits of the context. -/
def quantizeHundredths (round : ℚ → ℤ) (x : ℚ) : Option ℚ :=
  if (round (x * 100)).natAbs < 10 ^ 28 then some (round (x * 100) / 100) else none

/-- `d`. -/
def dValue : AmountValue → Option ℚ
  | .missing => some 0
  | .number x => quantizeHundredths roundHalfUp x
  | .unreadable => none

/-- A value as it is given, without `d`. -/
def givenValue : AmountValue → Option ℚ
  | .missing => some 0
  | .number x => some x
  | .unreadable => none

section Sums

-- the reading of a value and the rounding of a result; the exact sums have no rounding
variable (read : AmountValue → Option ℚ) (r : ℚ → ℚ)

/-- The type of an item, which is compared in small letters. -/
def isForeignItem (it : TotalsItem) : Bool := (pyStrip it.itemType).map asciiLower = "foreign".toList

def fxRate (it : TotalsItem) : ℚ :=
  match it.fxRateUsed with
  | .number x => x
  | _ => 0

/-- The amount of an item with a foreign fee, in the currency of the invoice. -/
def foreignAmount (it : TotalsItem) : ℚ :=
  let fee := (read it.fxFee).getD 0
  let gov := (read it.fxGov).getD 0
  let markup := (read it.fxMarkup).getD 0
  r (r (r (fee + gov) * fxRate it) * r (1 + r (markup / 100)))

/-- The amount of another item, after its discount. -/
def domesticAmount (it : TotalsItem) : Option ℚ := do
  let qty ← read it.qty
  let unit ← read it.unitPrice
  let discount ← read it.discount
  let disc := clampDiscount discount
  let amount := r (qty * unit)
  return r (amount - r (r (amount * disc) / 100))

/-- The amount of an item, and whether it is taxable. -/
def lineAmount (it : TotalsItem) : Option (ℚ × Bool) :=
  if isForeignItem it ∧ 0 < fxRate it then some (foreignAmount read r it, it.isTaxable.getD false)
  else (domesticAmount read r it).map (fun amount => (amount, it.isTaxable.getD true))

/-- The loop over the items: the subtotal and the taxable amount. -/
def lineSums : ℚ → ℚ → List TotalsItem → Option (ℚ × ℚ)
  | subtotal, taxable, [] => some (subtotal, taxable)
  | subtotal, taxable, it :: items =>
    if it.isEstimated then lineSums subtotal taxable items
    else do
      let (amount, counts) ← lineAmount read r it
      lineSums (r (subtotal + amount)) (if counts then r (taxable + amount) else taxable) items

end Sums

/-- A rate over one is a percentage. -/
def vatMultiplier (rate : ℚ) : ℚ := if 1 < rate then contextRound (rate / 100) else rate

def computeTotals (items : List TotalsItem) (vatRate : ℚ) : Option (ℚ × ℚ × ℚ) := do
  let (subtotal, taxable) ← lineSums dValue contextRound 0 0 items
  let rate ← dValue (.number vatRate)
  let tax ← quantizeHundredths roundHalfEven (contextRound (taxable * vatMultiplier rate))
  return (subtotal, tax, contextRound (subtotal + tax))

def computeTotalsMinor (U : UpperTable) (items : List TotalsItem) (vatRate : ℚ) (currency : Text) :
    Option (ℤ × ℤ × ℤ) := do
  let (subtotal, tax, total) ← computeTotals items vatRate
  let subtotalMinor ← toMinorInContext U subtotal currency
  let taxMinor ← toMinorInContext U tax currency
  let totalMinor ← toMinorInContext U total currency
  return (subtotalMinor, taxMinor, totalMinor)

/-- The tax on the taxable items without any rounding. -/
def exactTax (items : List TotalsItem) (vatRate : ℚ) : ℚ :=
  (((lineSums givenValue id 0 0 items).map Prod.snd).getD 0) * if 1 < vatRate then vatRate / 100 else vatRate

/-- The exact tax in minor units, rounded half up once. -/
def exactTaxMinor (U : UpperTable) (items : List TotalsItem) (vatRate : ℚ) (currency : Text) : ℤ :=
  roundHalfUp (exactTax items vatRate * 10 ^ scaleOf U (some currency))

/-- The totals are there and add up, and the tax is the exact one. -/
def TotalsAddUp (U : UpperTable) (items : List TotalsItem) (vatRate : ℚ) (currency : Text) : Prop :=
  ∃ subtotal tax total, computeTotalsMinor U items vatRate currency = some (subtotal, tax, total) ∧
    total = subtotal + tax ∧ tax = exactTaxMinor U items vatRate currency

/-- The tax to hundredths, half to even, is rounded to the exact tax: a tax in hundredths of a unit is
rounded once, one in units twice. -/
def TaxCell (U : UpperTable) (currency : Text) (n : ℤ) (product : ℚ) : Prop :=
  if scaleOf U (some currency) = 0 then TwiceCell n product else HalfEvenCell n (product * 100)

/-- The condition on the sums of the items and the rate: everything fits into 28 digits, the tax at the
rate of two decimals is rounded to the exact tax, and the subtotal with the tax to the sum of both. -/
def SumsRoundAlike (U : UpperTable) (items : List TotalsItem) (vatRate : ℚ) (currency : Text) : Prop :=
  ∃ subtotal taxable rate, lineSums dValue contextRound 0 0 items = some (subtotal, taxable) ∧
    dValue (.number vatRate) = some rate ∧
    (let scale : ℚ := 10 ^ scaleOf U (some currency)
     let product := contextRound (taxable * vatMultiplier rate)
     let hundredths := roundHalfEven (product * 100)
     let n := exactTaxMinor U items vatRate currency
     let m := roundHalfUp (subtotal * scale)
     hundredths.natAbs < 10 ^ 28 ∧ m.natAbs < 10 ^ 28 ∧ n.natAbs < 10 ^ 28 ∧ (m + n).natAbs < 10 ^ 28 ∧
       TaxCell U currency n product ∧
       HalfUpCell (m + n) (contextRound (subtotal + hundredths / 100) * scale))

section Totals

variable {U : UpperTable} {items : List TotalsItem} {vatRate : ℚ} {currency : Text}

/-- A currency has no decimal places or two. -/
lemma scaleOf_cases (U : UpperTable) (currency : Option Text) :
    scaleOf U currency = 0 ∨ scaleOf U currency = 2 := by
  have hscales : ∀ code : Text, (currencyScale.lookup code).getD 2 = 0 ∨
      (currencyScale.lookup code).getD 2 = 2 := by
    intro code
    cases h : currencyScale.lookup code with
    | none => exact .inr rfl
    | some scale =>
      obtain ⟨before, after, hsplit, -⟩ := List.lookup_eq_some_iff.mp h
      have hmem : (code, scale) ∈ currencyScale := by
        rw [hsplit]
        exact List.mem_append_right _ List.mem_cons_self
      simp only [currencyScale, List.mem_cons, List.not_mem_nil, or_false, Prod.mk.injEq] at hmem
      simp only [Option.getD_some]
      omega
  exact hscales _

lemma toMinorInContext_cell {amount : ℚ} {n : ℤ} :
    toMinorInContext U amount currency = some n ↔
      n.natAbs < 10 ^ 28 ∧ HalfUpCell n (amount * 10 ^ scaleOf U (some currency)) := by
  unfold toMinorInContext
  dsimp only
  rw [toMinor_eq, ← roundHalfUp_eq_iff]
  split
  · next h =>
    rw [Option.some_inj]
    constructor
    · rintro rfl
      exact ⟨h, rfl⟩
    · rintro ⟨-, heq⟩
      exact heq
  · next h =>
    refine iff_of_false (fun hnone => by cases hnone) ?_
    rintro ⟨hfits, rfl⟩
    exact h hfits

lemma quantizeHundredths_eq_some (round : ℚ → ℤ) {x y : ℚ} :
    quantizeHundredths round x = some y ↔ (round (x * 100)).natAbs < 10 ^ 28 ∧ round (x * 100) / 100 = y := by
  unfold quantizeHundredths
  split
  · next h =>
    rw [Option.some_inj]
    exact (and_iff_right h).symm
  · next h => exact iff_of_false (by simp) (fun hboth => h hboth.1)

/-- The tax in minor units is the number to whose cell the product belongs. -/
lemma tax_cell_iff (product : ℚ) (n : ℤ) :
    HalfUpCell n ((roundHalfEven (product * 100) / 100 : ℚ) * 10 ^ scaleOf U (some currency)) ↔
      TaxCell U currency n product := by
  unfold TaxCell
  rw [← roundHalfUp_eq_iff]
  obtain hscale | hscale := scaleOf_cases U (some currency)
  · rw [hscale, if_pos rfl, pow_zero, mul_one, roundHalfUp_roundHalfEven_iff]
  · have hunits : (roundHalfEven (product * 100) / 100 : ℚ) * 10 ^ 2 =
        (roundHalfEven (product * 100) : ℤ) := by ring
    rw [hscale, if_neg (by decide), hunits, roundHalfUp_intCast, roundHalfEven_eq_iff]

lemma computeTotals_eq_some {subtotal tax total : ℚ} :
    computeTotals items vatRate = some (subtotal, tax, total) ↔
      ∃ taxable rate, lineSums dValue contextRound 0 0 items = some (subtotal, taxable) ∧
        dValue (.number vatRate) = some rate ∧
        (roundHalfEven (contextRound (taxable * vatMultiplier rate) * 100)).natAbs < 10 ^ 28 ∧
        tax = roundHalfEven (contextRound (taxable * vatMultiplier rate) * 100) / 100 ∧
        total = contextRound (subtotal + tax) := by
  unfold computeTotals
  constructor
  · intro h
    obtain ⟨⟨s, x⟩, hsums, h⟩ := Option.bind_eq_some_iff.mp h
    obtain ⟨rate, hrate, h⟩ := Option.bind_eq_some_iff.mp h
    obtain ⟨t, htax, h⟩ := Option.bind_eq_some_iff.mp h
    obtain ⟨hfits, rfl⟩ := (quantizeHundredths_eq_some _).mp htax
    cases h
    exact ⟨x, rate, hsums, hrate, hfits, rfl, rfl⟩
  · rintro ⟨x, rate, hsums, hrate, hfits, rfl, rfl⟩
    have htax := (quantizeHundredths_eq_some roundHalfEven).mpr ⟨hfits, rfl⟩
    rw [hsums, hrate]
    simp only [Option.bind_eq_bind, Option.bind_some, htax]
    rfl

/-- The totals add up, and the tax is the exact one, exactly if the sums of the items and the rate are
rounded alike. -/
lemma totalsAddUp_iff (U : UpperTable) (items : List TotalsItem) (vatRate : ℚ) (currency : Text) :
    TotalsAddUp U items vatRate currency ↔ SumsRoundAlike U items vatRate currency := by
  unfold TotalsAddUp SumsRoundAlike computeTotalsMinor
  constructor
  · rintro ⟨s, t, total, h, hsum, hexact⟩
    obtain ⟨⟨subtotal, tax, sum⟩, htotals, h⟩ := Option.bind_eq_some_iff.mp h
    obtain ⟨taxable, rate, hsums, hrate, hfits, rfl, rfl⟩ := computeTotals_eq_some.mp htotals
    obtain ⟨s', hs, h⟩ := Option.bind_eq_some_iff.mp h
    obtain ⟨t', ht, h⟩ := Option.bind_eq_some_iff.mp h
    obtain ⟨sum', htotal, h⟩ := Option.bind_eq_some_iff.mp h
    cases h
    obtain ⟨hsfits, hscell⟩ := toMinorInContext_cell.mp hs
    obtain ⟨htfits, htcell⟩ := toMinorInContext_cell.mp ht
    obtain ⟨hfitsTotal, hcell⟩ := toMinorInContext_cell.mp htotal
    have hround := (roundHalfUp_eq_iff _ _).mpr hscell
    rw [hexact] at htfits htcell hsum
    rw [hsum] at hfitsTotal hcell
    refine ⟨subtotal, taxable, rate, hsums, hrate, ?_⟩
    dsimp only
    rw [hround]
    exact ⟨hfits, hsfits, htfits, hfitsTotal, (tax_cell_iff _ _).mp htcell, hcell⟩
  · rintro ⟨subtotal, taxable, rate, hsums, hrate, h⟩
    dsimp only at h
    obtain ⟨hfits, hsfits, htfits, hfitsTotal, htax, hcell⟩ := h
    have htotals := computeTotals_eq_some.mpr ⟨taxable, rate, hsums, hrate, hfits, rfl, rfl⟩
    have hs := toMinorInContext_cell.mpr ⟨hsfits, (roundHalfUp_eq_iff _ _).mp rfl⟩
    have ht := toMinorInContext_cell.mpr ⟨htfits, (tax_cell_iff _ _).mpr htax⟩
    have hsum := toMinorInContext_cell.mpr ⟨hfitsTotal, hcell⟩
    refine ⟨roundHalfUp (subtotal * 10 ^ scaleOf U (some currency)), exactTaxMinor U items vatRate currency,
      _, ?_, rfl, rfl⟩
    rw [htotals]
    simp only [Option.bind_eq_bind, Option.bind_some, hs, ht, hsum]
    rfl

/-! ### Items that leave nothing to round -/

/-- A value that is missing is zero. -/
def AmountValue.worth : AmountValue → ℚ
  | .number x => x
  | _ => 0

/-- Missing, or a number with two decimal places below the bound. -/
def AmountValue.Plain (bound : ℚ) (v : AmountValue) : Prop :=
  v ≠ .unreadable ∧ TwoDecimals v.worth ∧ |v.worth| < bound

instance (bound : ℚ) (v : AmountValue) : Decidable (v.Plain bound) :=
  inferInstanceAs (Decidable (v ≠ .unreadable ∧ TwoDecimals v.worth ∧ |v.worth| < bound))

def TotalsItem.usesFx (it : TotalsItem) : Bool := isForeignItem it ∧ 0 < fxRate it

/-- Every value that is used is a number of two decimal places, a rate of six, and none is larger than on
an invoice. -/
structure TotalsItem.Plain (it : TotalsItem) : Prop where
  own : it.usesFx = false →
    it.qty.Plain (10 ^ 4) ∧ it.unitPrice.Plain (10 ^ 9) ∧ it.discount.Plain (10 ^ 4)
  fx : it.usesFx = true → it.fxFee.Plain (10 ^ 7) ∧ it.fxGov.Plain (10 ^ 7) ∧
    it.fxMarkup.Plain (10 ^ 3) ∧ IsWhole (fxRate it * 10 ^ 6) ∧ fxRate it < 10 ^ 5

/-- What an item comes to, multiplied out. -/
def TotalsItem.worth (it : TotalsItem) : ℚ :=
  if it.usesFx then
    (it.fxFee.worth + it.fxGov.worth) * fxRate it * (1 + it.fxMarkup.worth / 100)
  else it.qty.worth * it.unitPrice.worth * (1 - clampDiscount it.discount.worth / 100)

/-- Unless its flag says otherwise, an item is taxable when it has no foreign fee. -/
def TotalsItem.taxed (it : TotalsItem) : Bool := it.isTaxable.getD (!it.usesFx)

def itemsWorth (items : List TotalsItem) : ℚ :=
  ((items.filter (fun it => !it.isEstimated)).map TotalsItem.worth).sum

def taxedWorth (items : List TotalsItem) : ℚ :=
  ((items.filter (fun it => !it.isEstimated && it.taxed)).map TotalsItem.worth).sum

def plainMultiplier (rate : ℚ) : ℚ := if 1 < rate then rate / 100 else rate

/-- Up to a hundred plain items and a rate of two decimal places. The subtotal is a whole number of minor
units, and the tax is no further than 0.49 from one. -/
structure PlainTotals (U : UpperTable) (items : List TotalsItem) (vatRate : ℚ) (currency : Text) :
    Prop where
  lines : ∀ it ∈ items, it.isEstimated = false → it.Plain
  few : items.length ≤ 100
  rate : TwoDecimals vatRate
  small : |vatRate| < 10 ^ 4
  subtotal : IsWhole (itemsWorth items * 10 ^ scaleOf U (some currency))
  tax : ∃ n : ℤ, |taxedWorth items * plainMultiplier vatRate * 10 ^ scaleOf U (some currency) - n| ≤
    49 / 100

section Plain

variable {it : TotalsItem}

lemma AmountValue.Plain.given {bound : ℚ} {v : AmountValue} (h : v.Plain bound) :
    givenValue v = some v.worth := by
  cases v with
  | missing => rfl
  | number x => rfl
  | unreadable => exact absurd rfl h.1

lemma AmountValue.Plain.places {bound : ℚ} {v : AmountValue} (h : v.Plain bound) :
    Places 2 bound v.worth := by
  refine ⟨?_, h.2.2⟩
  have hscale : v.worth * 10 ^ 2 = v.worth * 100 := by norm_num
  rw [hscale]
  exact h.2.1

lemma AmountValue.Plain.d_eq {bound : ℚ} {v : AmountValue} (h : v.Plain bound)
    (hbound : bound ≤ 10 ^ 10) : dValue v = some v.worth := by
  obtain ⟨hread, ⟨n, hn⟩, hsmall⟩ := h
  cases v with
  | missing => rfl
  | number x =>
    change x * 100 = n at hn
    have hfits : n.natAbs < 10 ^ 28 := by
      have habs : |(n : ℚ)| < 10 ^ 28 := by
        rw [← hn, abs_mul, abs_of_pos (by norm_num : (0 : ℚ) < 100)]
        have hx : |x| < bound := hsmall
        linarith
      rw [← Int.cast_abs, Int.abs_eq_natAbs] at habs
      exact_mod_cast habs
    refine (quantizeHundredths_eq_some _).mpr ⟨?_, ?_⟩
    · rw [hn, roundHalfUp_intCast]
      exact hfits
    · rw [hn, roundHalfUp_intCast, ← hn]
      exact mul_div_cancel_right₀ x (by norm_num)
  | unreadable => exact absurd rfl hread

/-- A reading of the values of an item that takes them as they are. -/
def ReadsPlain (read : AmountValue → Option ℚ) : Prop :=
  ∀ (bound : ℚ) (v : AmountValue), bound ≤ 10 ^ 10 → v.Plain bound → read v = some v.worth

/-- A rounding that leaves numbers of 28 digits alone. -/
def KeepsDigits (r : ℚ → ℚ) : Prop :=
  ∀ (s : Nat) (bound x : ℚ), bound * 10 ^ s ≤ 10 ^ 28 → Places s bound x → r x = x

lemma readsPlain_d : ReadsPlain dValue := fun _ _ hbound h => h.d_eq hbound

lemma readsPlain_given : ReadsPlain givenValue := fun _ _ _ h => h.given

lemma keepsDigits_context : KeepsDigits contextRound := fun _ _ _ hfits h => h.exact hfits

lemma keepsDigits_id : KeepsDigits id := fun _ _ _ _ _ => rfl

lemma places_clampDiscount {x : ℚ} (h : Places 2 (10 ^ 4) x) : Places 2 101 (clampDiscount x) := by
  have hscale : ∀ y : ℚ, y * 10 ^ 2 = y * 100 := fun y => by norm_num
  refine ⟨?_, ?_⟩
  · unfold clampDiscount
    rcases max_cases 0 (min 100 x) with ⟨heq, -⟩ | ⟨heq, -⟩
    · rw [heq]
      exact ⟨0, by simp⟩
    · rw [heq]
      rcases min_cases 100 x with ⟨heq, -⟩ | ⟨heq, -⟩
      · rw [heq]
        exact ⟨10000, by norm_num⟩
      · rw [heq]
        exact h.whole
  · have hlow : 0 ≤ clampDiscount x := le_max_left _ _
    have hhigh : clampDiscount x ≤ 100 := max_le (by norm_num) (min_le_left _ _)
    rw [abs_of_nonneg hlow]
    linarith

section Line

variable {read : AmountValue → Option ℚ} {r : ℚ → ℚ} (hread : ReadsPlain read) (hr : KeepsDigits r)

include hread hr

lemma domesticAmount_plain (hown : it.usesFx = false) (h : it.Plain) :
    domesticAmount read r it = some it.worth ∧ Places 12 (3 * 10 ^ 13) it.worth := by
  obtain ⟨hqty, hunit, hdiscount⟩ := h.own hown
  have hgross : Places 4 (10 ^ 13) (it.qty.worth * it.unitPrice.worth) :=
    (hqty.places.mul hunit.places).mono le_rfl (by norm_num)
  have hclamp := places_clampDiscount hdiscount.places
  have hproduct := hgross.mul hclamp
  have hoff := hproduct.percent
  have hwide : Places 8 (10 ^ 13) (it.qty.worth * it.unitPrice.worth) :=
    hgross.mono (by norm_num) le_rfl
  have hnet := hwide.add hoff.neg
  have hworth : it.qty.worth * it.unitPrice.worth +
      -(it.qty.worth * it.unitPrice.worth * clampDiscount it.discount.worth / 100) = it.worth := by
    rw [TotalsItem.worth, hown, if_neg Bool.false_ne_true]
    ring
  unfold domesticAmount
  rw [hread _ _ (by norm_num) hqty, hread _ _ (by norm_num) hunit, hread _ _ (by norm_num) hdiscount]
  simp only [Option.bind_eq_bind, Option.bind_some]
  rw [hr _ _ _ (by norm_num) hgross, hr _ _ _ (by norm_num) hproduct, hr _ _ _ (by norm_num) hoff,
    sub_eq_add_neg, hr _ _ _ (by norm_num) hnet, hworth]
  rw [hworth] at hnet
  exact ⟨rfl, hnet.mono (by norm_num) (by norm_num)⟩

lemma foreignAmount_plain (hfx : it.usesFx = true) (h : it.Plain) :
    foreignAmount read r it = it.worth ∧ Places 12 (3 * 10 ^ 13) it.worth := by
  obtain ⟨hfee, hgov, hmarkup, hwhole, hrate⟩ := h.fx hfx
  have hrate' : Places 6 (10 ^ 5) (fxRate it) := by
    refine ⟨hwhole, ?_⟩
    rw [abs_of_pos (of_decide_eq_true hfx).2]
    exact hrate
  have hfees := hfee.places.add hgov.places
  have hconverted := hfees.mul hrate'
  have hpercent := hmarkup.places.percent
  have hone : Places 4 2 (1 : ℚ) := ⟨⟨10 ^ 4, by norm_num⟩, by norm_num⟩
  have hfactor := hone.add hpercent
  have hall := hconverted.mul hfactor
  have hworth : (it.fxFee.worth + it.fxGov.worth) * fxRate it * (1 + it.fxMarkup.worth / 100) =
      it.worth := by
    rw [TotalsItem.worth, if_pos hfx]
  unfold foreignAmount
  rw [hread _ _ (by norm_num) hfee, hread _ _ (by norm_num) hgov, hread _ _ (by norm_num) hmarkup]
  dsimp only [Option.getD_some]
  rw [hr _ _ _ (by norm_num) hfees, hr _ _ _ (by norm_num) hconverted, hr _ _ _ (by norm_num) hpercent,
    hr _ _ _ (by norm_num) hfactor, hr _ _ _ (by norm_num) hall, hworth]
  rw [hworth] at hall
  exact ⟨rfl, hall.mono (by norm_num) (by norm_num)⟩

lemma lineAmount_plain (h : it.Plain) :
    lineAmount read r it = some (it.worth, it.taxed) ∧ Places 12 (3 * 10 ^ 13) it.worth := by
  unfold lineAmount TotalsItem.taxed
  cases hfx : it.usesFx with
  | true =>
    obtain ⟨hamount, hplaces⟩ := foreignAmount_plain hread hr hfx h
    rw [if_pos (of_decide_eq_true hfx), hamount]
    exact ⟨rfl, hplaces⟩
  | false =>
    obtain ⟨hamount, hplaces⟩ := domesticAmount_plain hread hr hfx h
    rw [if_neg (of_decide_eq_false hfx), hamount]
    exact ⟨rfl, hplaces⟩

/-- The loop over plain items multiplies out and adds up. -/
lemma lineSums_plain {items : List TotalsItem} (h : ∀ it ∈ items, it.isEstimated = false → it.Plain)
    {k : Nat} (hk : k + items.length ≤ 101) {s t : ℚ} (hs : Places 12 (k * (3 * 10 ^ 13)) s)
    (ht : Places 12 (k * (3 * 10 ^ 13)) t) :
    lineSums read r s t items = some (s + itemsWorth items, t + taxedWorth items) ∧
      Places 12 (101 * (3 * 10 ^ 13)) (s + itemsWorth items) ∧
      Places 12 (101 * (3 * 10 ^ 13)) (t + taxedWorth items) := by
  induction items generalizing k s t with
  | nil =>
    have hbound : (k : ℚ) * (3 * 10 ^ 13) ≤ 101 * (3 * 10 ^ 13) := by
      have hcast : (k : ℚ) ≤ 101 := by exact_mod_cast hk
      linarith
    simp only [itemsWorth, taxedWorth, List.filter_nil, List.map_nil, List.sum_nil, add_zero]
    exact ⟨rfl, hs.mono le_rfl hbound, ht.mono le_rfl hbound⟩
  | cons it items ih =>
    have htail : ∀ x ∈ items, x.isEstimated = false → x.Plain :=
      fun x hx => h x (List.mem_cons_of_mem it hx)
    rw [List.length_cons] at hk
    have hstep : (k : ℚ) * (3 * 10 ^ 13) + 3 * 10 ^ 13 = ((k + 1 : ℕ) : ℚ) * (3 * 10 ^ 13) := by
      push_cast
      ring
    have hgrow : (k : ℚ) * (3 * 10 ^ 13) ≤ ((k + 1 : ℕ) : ℚ) * (3 * 10 ^ 13) := by
      rw [← hstep]
      norm_num
    have hnext : ((k + 1 : ℕ) : ℚ) * (3 * 10 ^ 13) * 10 ^ 12 ≤ 10 ^ 28 := by
      have hcast : ((k + 1 : ℕ) : ℚ) ≤ 101 := by exact_mod_cast (by omega : k + 1 ≤ 101)
      linarith
    rw [lineSums]
    cases hestimated : it.isEstimated with
    | true =>
      obtain ⟨hsums, hplaces⟩ := ih htail (k := k + 1) (by omega) (hs.mono le_rfl hgrow)
        (ht.mono le_rfl hgrow)
      have hworth : itemsWorth (it :: items) = itemsWorth items := by
        simp [itemsWorth, hestimated]
      have htaxed : taxedWorth (it :: items) = taxedWorth items := by
        simp [taxedWorth, hestimated]
      rw [if_pos rfl, hworth, htaxed]
      exact ⟨hsums, hplaces⟩
    | false =>
      obtain ⟨hamount, hplaces⟩ := lineAmount_plain hread hr (h it List.mem_cons_self hestimated)
      have hs' := hs.add hplaces
      have ht' := ht.add hplaces
      rw [hstep] at hs' ht'
      have hworth : itemsWorth (it :: items) = it.worth + itemsWorth items := by
        simp [itemsWorth, hestimated]
      rw [if_neg Bool.false_ne_true, hamount]
      simp only [Option.bind_eq_bind, Option.bind_some]
      rw [hr _ _ _ hnext hs', hworth, ← add_assoc]
      cases htaxed : it.taxed with
      | true =>
        have hsum : taxedWorth (it :: items) = it.worth + taxedWorth items := by
          simp [taxedWorth, hestimated, htaxed]
        rw [if_pos rfl, hr _ _ _ hnext ht', hsum, ← add_assoc]
        exact ih htail (by omega) hs' ht'
      | false =>
        have hsum : taxedWorth (it :: items) = taxedWorth items := by
          simp [taxedWorth, hestimated, htaxed]
        rw [if_neg Bool.false_ne_true, hsum]
        exact ih htail (by omega) hs' (ht.mono le_rfl hgrow)

end Line

lemma exactTax_plain (h : PlainTotals U items vatRate currency) :
    exactTax items vatRate = taxedWorth items * plainMultiplier vatRate := by
  have hzero : Places 12 ((1 : ℕ) * (3 * 10 ^ 13)) (0 : ℚ) := ⟨⟨0, by norm_num⟩, by norm_num⟩
  obtain ⟨hsums, -⟩ := lineSums_plain readsPlain_given keepsDigits_id h.lines (k := 1)
    (Nat.add_le_add_left h.few 1) hzero hzero
  rw [exactTax, hsums, zero_add, zero_add]
  rfl

lemma abs_plainMultiplier_lt (h : PlainTotals U items vatRate currency) :
    |plainMultiplier vatRate| < 10 ^ 4 := by
  have hsmall := h.small
  unfold plainMultiplier
  split
  · rw [abs_div, abs_of_pos (by norm_num : (0 : ℚ) < 100)]
    linarith [abs_nonneg vatRate]
  · exact hsmall

/-- The multiplier of a plain rate is not rounded. -/
lemma vatMultiplier_plain (h : PlainTotals U items vatRate currency) :
    vatMultiplier vatRate = plainMultiplier vatRate := by
  have hplaces : Places 2 (10 ^ 4) vatRate := by
    refine ⟨?_, h.small⟩
    have hscale : vatRate * 10 ^ 2 = vatRate * 100 := by norm_num
    rw [hscale]
    exact h.rate
  unfold vatMultiplier plainMultiplier
  rw [hplaces.percent.exact (by norm_num)]

/-- The rounding of the context takes the tax hardly away from where it is. -/
lemma tax_near {x p n : ℚ} (hx : |x| < 101 * (3 * 10 ^ 13)) (hp : |p| < 10 ^ 4) {c : ℚ}
    (hc : c = 1 ∨ c = 100) (hnear : |x * p * c - n| ≤ 49 / 100) :
    |contextRound (x * p) * c - n| < 99 / 200 ∧ |contextRound (x * p)| < 10 ^ 20 ∧ |n| < 10 ^ 22 := by
  have hproduct : |x * p| < 101 * (3 * 10 ^ 13) * 10 ^ 4 := by
    rw [abs_mul]
    exact mul_lt_mul'' hx hp (abs_nonneg x) (abs_nonneg p)
  have herror : |contextRound (x * p) - x * p| < 1 / 10 ^ 6 := by
    refine (abs_contextRound_sub_le (x * p)).trans_lt ?_
    rw [div_lt_div_iff₀ (by norm_num) (by norm_num)]
    linarith
  rw [abs_lt] at hproduct herror ⊢
  rw [abs_le] at hnear
  rw [abs_lt, abs_lt]
  rcases hc with rfl | rfl <;> constructor
  · constructor <;> linarith [hnear.1, hnear.2, herror.1, herror.2]
  · constructor <;> constructor <;> linarith [hnear.1, hnear.2, hproduct.1, hproduct.2, herror.1, herror.2]
  · constructor <;> linarith [hnear.1, hnear.2, herror.1, herror.2]
  · constructor <;> constructor <;> linarith [hnear.1, hnear.2, hproduct.1, hproduct.2, herror.1, herror.2]

lemma natAbs_lt_of_abs {n : ℤ} {bound : ℕ} (h : |(n : ℚ)| < bound) : n.natAbs < bound := by
  rw [← Int.cast_abs, Int.abs_eq_natAbs] at h
  exact_mod_cast h

lemma twiceCell_of_near {n : ℤ} {z : ℚ} (h : |z - n| < 99 / 200) : TwiceCell n z := by
  unfold TwiceCell
  rw [abs_lt] at h
  rcases lt_trichotomy n 0 with hneg | rfl | hpos
  · exact .inr (.inr ⟨hneg, by linarith [h.1], by linarith [h.2]⟩)
  · refine .inl ⟨rfl, ?_⟩
    rw [Int.cast_zero, sub_zero] at h
    exact abs_lt.mpr h
  · exact .inr (.inl ⟨hpos, by linarith [h.1], h.2⟩)

/-- What the sums of plain items are rounded to. -/
lemma sumsRoundAlike_of_plain (h : PlainTotals U items vatRate currency) :
    SumsRoundAlike U items vatRate currency := by
  have hzero : Places 12 ((1 : ℕ) * (3 * 10 ^ 13)) (0 : ℚ) := ⟨⟨0, by norm_num⟩, by norm_num⟩
  obtain ⟨hsums, hnet, htaxed⟩ := lineSums_plain readsPlain_d keepsDigits_context h.lines (k := 1)
    (Nat.add_le_add_left h.few 1) hzero hzero
  rw [zero_add] at hsums hnet htaxed
  rw [zero_add] at hsums
  have hplain : (AmountValue.number vatRate).Plain (10 ^ 4) := ⟨by simp, h.rate, h.small⟩
  have hrate : dValue (.number vatRate) = some vatRate := hplain.d_eq (by norm_num)
  obtain ⟨n, hn⟩ := h.tax
  obtain ⟨m, hm⟩ := h.subtotal
  have hscale := scaleOf_cases U (some currency)
  have hc : (10 : ℚ) ^ scaleOf U (some currency) = 1 ∨ (10 : ℚ) ^ scaleOf U (some currency) = 100 := by
    rcases hscale with heq | heq
    · exact .inl (by rw [heq, pow_zero])
    · exact .inr (by rw [heq]; norm_num)
  obtain ⟨hnear, hproduct, hnsmall⟩ := tax_near htaxed.small (abs_plainMultiplier_lt h) hc hn
  have hexact : exactTaxMinor U items vatRate currency = n := by
    rw [exactTaxMinor, exactTax_plain h, roundHalfUp_eq_iff]
    exact .inl (hn.trans_lt (by norm_num))
  have hmsmall : |(m : ℚ)| < 10 ^ 22 := by
    have hbound := hnet.small
    rw [← hm, abs_mul]
    rcases hc with heq | heq <;> rw [heq] <;> norm_num <;> linarith
  refine ⟨_, _, _, hsums, hrate, ?_⟩
  dsimp only
  rw [vatMultiplier_plain h, hexact, hm, roundHalfUp_intCast]
  set product := contextRound (taxedWorth items * plainMultiplier vatRate)
  have hround := abs_roundHalfEven_sub_le (product * 100)
  have hhundredths : |((roundHalfEven (product * 100) : ℤ) : ℚ)| < 10 ^ 23 := by
    rw [abs_lt] at hproduct ⊢
    rw [abs_le] at hround
    constructor <;> linarith [hround.1, hround.2, hproduct.1, hproduct.2]
  have hsum : Places 2 (10 ^ 24) (itemsWorth items + roundHalfEven (product * 100) / 100) := by
    have hleft : Places 2 (101 * (3 * 10 ^ 13)) (itemsWorth items) := by
      have hplaces : Places (scaleOf U (some currency)) (101 * (3 * 10 ^ 13)) (itemsWorth items) :=
        ⟨⟨m, hm⟩, hnet.small⟩
      exact hplaces.mono (scaleOf_le U _) le_rfl
    have hright : Places 0 (10 ^ 23) ((roundHalfEven (product * 100) : ℤ) : ℚ) :=
      ⟨⟨roundHalfEven (product * 100), by rw [pow_zero, mul_one]⟩, hhundredths⟩
    exact (hleft.add hright.percent).mono le_rfl (by norm_num)
  rw [hsum.exact (by norm_num), add_mul, hm]
  have hmn : |((m + n : ℤ) : ℚ)| < 10 ^ 28 := by
    rw [Int.cast_add]
    exact (abs_add_le _ _).trans_lt (by linarith)
  refine ⟨natAbs_lt_of_abs (by push_cast; linarith), natAbs_lt_of_abs (by push_cast; linarith),
    natAbs_lt_of_abs (by push_cast; linarith), natAbs_lt_of_abs (by push_cast at hmn ⊢; exact hmn), ?_, ?_⟩
  · unfold TaxCell
    rcases hscale with heq | heq
    · rw [heq, pow_zero, mul_one] at hnear
      rw [if_pos heq]
      exact twiceCell_of_near hnear
    · rw [heq] at hnear
      rw [if_neg (by omega)]
      exact .inl (lt_of_eq_of_lt (by norm_num) (hnear.trans (by norm_num)))
  · left
    rw [abs_lt] at hnear ⊢
    rw [abs_le] at hround
    push_cast
    rcases hscale with heq | heq
    · rw [heq, pow_zero] at hnear ⊢
      constructor <;> linarith [hround.1, hround.2, hnear.1, hnear.2]
    · -- the tax in hundredths is the tax in minor units
      have htax : roundHalfEven (product * 100) = n := by
        rw [roundHalfEven_eq_iff]
        rw [heq] at hnear
        exact .inl (abs_lt.mpr ⟨by linarith [hnear.1], by linarith [hnear.2]⟩)
      rw [htax, heq]
      constructor <;> linarith

end Plain

/-- Two hours with a discount, a foreign fee that is not taxed, and an estimate. -/
def plainTotalsItems : List TotalsItem :=
  [{ qty := .number 2, unitPrice := .number (12355 / 100), discount := .number 10 },
    { itemType := "foreign".toList, fxRateUsed := .number (9 / 10), fxFee := .number 100,
      fxMarkup := .number 10 },
    { isEstimated := true, qty := .unreadable }]

end Totals

end IpDocket.Billing.InContext
