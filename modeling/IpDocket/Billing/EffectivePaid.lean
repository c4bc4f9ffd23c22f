import IpDocket.Billing.BankAllocations

/-!
# The amount an invoice is reported to have been paid

`_effective_paid_minor` takes the largest of three amounts: the payments of their own table, the
deposits in `payment_meta`, and the retainer that was applied. It reads the deposits with a
function of its own, which counts `USD` and `JPY` in whole units and rounds them to even.
-/

namespace IpDocket.Billing
open IpDocket.Lib

structure InvoicePayment where
  invoiceId : Nat
  amountMinor : ℤ
  isDeleted : Bool
  deriving DecidableEq

/-- `_normalized_payment_total_minor`. -/
def normalizedPaymentTotalMinor (payments : List InvoicePayment) (invoiceId : Nat) : ℤ :=
  ((payments.filter (fun p => p.invoiceId = invoiceId ∧ p.isDeleted = false)).map
    InvoicePayment.amountMinor).sum

/-- `_invoice_marked_paid`. -/
def invoiceMarkedPaid (inv : Invoice) : Bool :=
  inv.paymentVerified ∨ inv.paymentStatus = .paid ∨ inv.status = .paid

/-- `int(x.quantize(Decimal("1")))`. -/
def wholeUnits (x : ℚ) : Option ℤ :=
  let n := roundHalfEven x
  if n.natAbs < 10 ^ 28 then some n else none

section Report

variable (T : DigitTables) (H : PyHost T.toUnicodeTables)

def dropBlanks (t : Text) : Text := t.filter (fun c => c ≠ ' ')

/-- `(currency or "USD").strip().upper() or "USD"`. -/
def reportCurrency (currency : Value T H) : Option Text :=
  (paymentMetaCurrency T H currency).map (fun cur => if cur = [] then "USD".toList else cur)

def amountOfDecimal (currency : Text) (x : ℚ) : Option ℤ :=
  if currency = "USD".toList ∨ currency = "JPY".toList then wholeUnits x
  else toMinorInContext T.toUpperTable x currency

/-- `_amount_to_minor`; `none` when the currency is not a text. -/
def amountToMinor (value currency : Value T H) : Option ℤ := do
  let cur ← reportCurrency T H currency
  match value with
  | .null => some 0
  | value =>
    let raw := pyStrip (dropBlanks (dropCommas (pyStr H value)))
    if raw = [] then some 0
    else some (((pyDecimal T.toUnicodeTables raw).bind (amountOfDecimal T cur)).getD 0)

/-- The list of deposits, each in its own currency, that of the document or that of the
invoice. -/
def listedPaidMinor (fields : Fields T H) (currency : Text) : Option ℤ :=
  match get fields "deposits" with
  | .arr items => sumMinor (fun r => amountToMinor T H (get r "deposit")
      (pyOr H (pyOr H (get r "currency") (get fields "currency")) (.str currency)))
      (items.filterMap asFields)
  | _ => some 0

/-- `_payment_meta_paid_minor`. -/
def paymentMetaPaidMinor (fields : Fields T H) (currency : Text) : Option ℤ := do
  let total ← listedPaidMinor T H fields currency
  if total ≠ 0 then some total
  else amountToMinor T H (get fields "deposit") (pyOr H (get fields "currency") (.str currency))

/-- `(invoice.get("currency") or "USD").upper()`. -/
def upperCurrency (inv : Invoice) : Text := pyUpper T.toUpperTable (currencyOrDefault inv.currency)

/-- `_invoice_total_minor`. -/
def invoiceTotalMinor (inv : Invoice) (total : ℚ) : ℤ :=
  if 0 < inv.totalMinor then inv.totalMinor
  else ((reportCurrency T H (.str (upperCurrency T inv))).bind
    (fun cur => amountOfDecimal T cur total)).getD 0

/-- `_effective_paid_minor`. -/
def effectivePaidMinor (payments : List InvoicePayment) (entries : List LedgerEntry)
    (inv : PaidInvoice (Value T H)) : Option ℤ := do
  if inv.id = 0 then some 0
  else
    let metaPaid ← paymentMetaPaidMinor T H (existingFields inv.paymentMeta)
      (upperCurrency T inv.toInvoice)
    let paid := max (max (normalizedPaymentTotalMinor payments inv.id) metaPaid)
      (max 0 (-invoiceSum entries inv.id))
    let total := invoiceTotalMinor T H inv.toInvoice inv.total
    return if invoiceMarkedPaid inv.toInvoice ∧ 0 < total then max paid total else paid

end Report

section Reading

variable {T : DigitTables} {H : PyHost T.toUnicodeTables} {code : Text} {v c : Value T H}

variable (T) in
/-- The currency is blank or has the code of the invoice. -/
def nativeOrBlank (code : Text) (currency : Value T H) : Bool :=
  match currency with
  | .str t => t = [] ∨ stripUpper T.toUpperTable t = code
  | currency => !pyTruthy H currency

lemma paymentMetaCurrency_native {t : Text} (ht : t ≠ []) :
    paymentMetaCurrency T H (.str t) = some (stripUpper T.toUpperTable t) := by
  cases t with
  | nil => exact absurd rfl ht
  | cons a t => rfl

/-- A native currency, or a text that stands in for a blank one. -/
lemma pyOr_native {d : Value T H} (hc : nativeOrBlank T code c = true)
    (hd : ∃ t, d = .str t ∧ t ≠ [] ∧ stripUpper T.toUpperTable t = code) :
    ∃ t, pyOr H c d = .str t ∧ t ≠ [] ∧ stripUpper T.toUpperTable t = code := by
  unfold pyOr
  split
  · next htruthy =>
    unfold nativeOrBlank at hc
    split at hc
    · next t =>
      rcases of_decide_eq_true hc with rfl | hcode
      · cases htruthy
      · refine ⟨t, rfl, ?_, hcode⟩
        rintro rfl
        cases htruthy
    · rw [htruthy] at hc
      cases hc
  · exact hd

lemma reportCurrency_native {d : Value T H} (hcode : code ≠ [])
    (hd : ∃ t, d = .str t ∧ t ≠ [] ∧ stripUpper T.toUpperTable t = code) :
    reportCurrency T H d = some code := by
  obtain ⟨t, rfl, ht, htcode⟩ := hd
  rw [reportCurrency, paymentMetaCurrency_native ht, htcode, Option.map_some, if_neg hcode]

/-- Of the currency only the code matters. -/
lemma amountToMinor_native {d e : Value T H} (hd : reportCurrency T H d = some code)
    (he : reportCurrency T H e = some code) (v : Value T H) :
    amountToMinor T H v d = amountToMinor T H v e := by
  unfold amountToMinor
  rw [hd, he]

lemma wholeUnits_of_lt {k : ℤ} (h : k.natAbs < 10 ^ 28) : wholeUnits k = some k := by
  unfold wholeUnits
  rw [roundHalfEven_intCast]
  exact if_pos h

/-- A number of JSON whose text is a plain numeral. -/
lemma amountToMinor_of_plain (hc : reportCurrency T H c = some code) (hnull : v ≠ .null)
    (hne : pyStr H v ≠ []) (hplain : ∀ a ∈ pyStr H v, a ≠ ',' ∧ pyIsSpace a = false) :
    amountToMinor T H v c =
      some (((pyDecimal T.toUnicodeTables (pyStr H v)).bind (amountOfDecimal T code)).getD 0) := by
  have hcommas : dropCommas (pyStr H v) = pyStr H v := by
    apply List.filter_eq_self.mpr
    intro a ha
    simp [(hplain a ha).1]
  have hblanks : dropBlanks (pyStr H v) = pyStr H v := by
    apply List.filter_eq_self.mpr
    intro a ha
    have hblank : a ≠ ' ' := by
      rintro rfl
      cases (hplain ' ' ha).2
    simp [hblank]
  have hstrip : pyStrip (pyStr H v) = pyStr H v :=
    pyStrip_of_stripped ⟨fun a ha => (hplain a (List.mem_of_mem_head? ha)).2,
      fun a ha => (hplain a (List.mem_of_mem_getLast? ha)).2⟩
  unfold amountToMinor
  rw [hc]
  cases v with
  | null => exact absurd rfl hnull
  | _ =>
    simp only [Option.bind_eq_bind, Option.bind_some, hcommas, hblanks, hstrip]
    exact if_neg hne

lemma amountToMinor_int (hc : reportCurrency T H c = some code) (k : ℤ) :
    amountToMinor T H (.int k) c = some ((amountOfDecimal T code k).getD 0) := by
  have hplain : ∀ a ∈ pyStr H (.int k), a ≠ ',' ∧ pyIsSpace a = false :=
    fun a ha => ⟨(pyInt_char ha).2.1, (pyInt_char ha).1⟩
  rw [amountToMinor_of_plain (v := .int k) hc (by simp) (pyInt_ne_nil k) hplain]
  change some (((pyDecimal T.toUnicodeTables (pyInt k)).bind _).getD 0) = _
  rw [pyDecimal_pyInt]
  rfl

lemma scaleOf_jpy (U : UpperTable) : scaleOf U (some "JPY".toList) = 0 := by
  have hupper : pyUpper U "JPY".toList = "JPY".toList := pyUpper_of_lt (by decide)
  change (currencyScale.lookup (pyUpper U "JPY".toList)).getD 2 = 0
  rw [hupper]
  rfl

/-- Outside of `USD` both read a stored amount alike. In `JPY` it has no decimal places that
could be rounded. -/
lemma amountToMinor_value {n m : ℤ} (hfix : stripUpper T.toUpperTable code = code)
    (hne : code ≠ []) (husd : code ≠ "USD".toList) (hc : reportCurrency T H c = some code)
    (h : paymentDepositMinor T H (paymentDepositValueFromMinor T H n code) (.str code) = some m) :
    amountToMinor T H (paymentDepositValueFromMinor T H n code) c = some m := by
  have hcur : paymentMetaCurrency T H (.str code) = some code := by
    rw [paymentMetaCurrency_native hne, hfix]
  unfold paymentDepositValueFromMinor at h ⊢
  dsimp only at h ⊢
  split
  · next hden =>
    rw [if_pos hden, paymentDepositMinor_int hcur] at h
    rw [amountToMinor_int hc, amountOfDecimal]
    split
    · next hwhole =>
      have hjpy := hwhole.resolve_left husd
      have hm := toMinorInContext_eq_some h
      have hbound : m.natAbs < 10 ^ 28 := by
        unfold toMinorInContext at h
        dsimp only at h
        split at h
        · next hlt =>
          cases h
          exact hlt
        · cases h
      subst hjpy
      rw [scaleOf_jpy, pow_zero, mul_one, roundHalfUp_intCast] at hm
      rw [← hm, wholeUnits_of_lt hbound]
      rfl
    · rw [h]
      rfl
  · next hden =>
    rw [if_neg hden, paymentDepositMinor_float hcur] at h
    have hjpy : code ≠ "JPY".toList := by
      rintro rfl
      apply hden
      rw [hfix, fromMinor, scaleOf_jpy, pow_zero, div_one]
      exact Rat.den_intCast _
    have hplain := amountToMinor_of_plain (v := .float (H.floats.ofDecimal
      (fromMinor T.toUpperTable n (stripUpper T.toUpperTable code)))) hc (by simp)
      (H.floats.repr_ne_nil _) (H.floats.repr_plain _)
    rw [hplain]
    have hread : amountOfDecimal T code = fun x => toMinorInContext T.toUpperTable x code := by
      funext x
      exact if_neg (not_or.mpr ⟨husd, hjpy⟩)
    rw [hread]
    change some ((decimalToMinor T (H.floats.repr _) code).getD 0) = _
    rw [h]
    rfl

end Reading

end IpDocket.Billing
