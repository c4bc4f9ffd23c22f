import IpDocket.Lib.Rounding
import IpDocket.Lib.Text

/-!
# Decimals and floats of the host language

`pyDecimal` reads a text as Python's `Decimal` does. The special values `Infinity` and `NaN`
are left out: no amount can be made of them. Floats are a parameter. `PyFloat` says what is
known of a float that was made from a decimal with at most two places: its `repr` is a plain
numeral that is read back within the precision of a double.
-/

namespace IpDocket.Lib

/-- `str` of an integer. -/
def pyInt (n : ℤ) : Text := if n < 0 then '-' :: pyDigits n.natAbs else pyDigits n.natAbs

def splitSign : Text → Bool × Text
  | '-' :: t => (true, t)
  | '+' :: t => (false, t)
  | t => (false, t)

def withSign (neg : Bool) (n : Nat) : ℤ := if neg then -n else n

/-- `x` with the decimal point moved by `e` places. -/
def shiftPoint (x : ℚ) (e : ℤ) : ℚ := if 0 ≤ e then x * 10 ^ e.toNat else x / 10 ^ (-e).toNat

section Numerals

variable (T : UnicodeTables)

def isDecimalDigit (c : Char) : Bool := (T.decimal c).isSome

/-- The exponent at the end of a numeral. -/
def decimalExponent : Text → Option ℤ
  | [] => some 0
  | c :: t =>
    let (neg, ds) := splitSign t
    if (c = 'E' ∨ c = 'e') ∧ ds ≠ [] ∧ ds.all (isDecimalDigit T) then
      some (withSign neg (decimalValue T ds))
    else none

/-- The digits after the point, and the rest. -/
def decimalFraction : Text → Text × Text
  | '.' :: t => t.span (isDecimalDigit T)
  | t => ([], t)

def pyDecimal (t : Text) : Option ℚ :=
  let (neg, body) := splitSign ((pyStrip t).filter (fun c => c ≠ '_'))
  let (whole, rest) := body.span (isDecimalDigit T)
  let (frac, rest) := decimalFraction T rest
  if whole ++ frac = [] then none
  else (decimalExponent T rest).map (fun e =>
    shiftPoint (withSign neg (decimalValue T (whole ++ frac))) (e - frac.length))

end Numerals

/-- Floats made from decimals, and how they are printed. -/
structure PyFloat (T : UnicodeTables) where
  carrier : Type
  ofDecimal : ℚ → carrier
  repr : carrier → Text
  dumps : carrier → Text
  isZero : carrier → Bool
  repr_ne_nil : ∀ x, repr x ≠ []
  repr_plain : ∀ x, ∀ c ∈ repr x, c ≠ ',' ∧ pyIsSpace c = false
  repr_of_isZero : ∀ x, isZero x = true → pyDecimal T (repr x) = some 0
  decimal_repr : ∀ (n : ℤ) (s : Nat) (r : ℚ), s ≤ 2 →
    pyDecimal T (repr (ofDecimal (n / 10 ^ s))) = some r →
      |r - n / 10 ^ s| ≤ |(n : ℚ) / 10 ^ s| / 2 ^ 51

lemma isDigit_pyDigits (n : Nat) : ∀ c ∈ pyDigits n, c.isDigit = true :=
  fun _ hc => Nat.isDigit_of_mem_toDigits (by decide) (by decide) hc

lemma pyDigits_ne_nil (n : Nat) : pyDigits n ≠ [] := Nat.toDigits_ne_nil

lemma decimalValue_pyDigits (T : DigitTables) (n : Nat) :
    decimalValue T.toUnicodeTables (pyDigits n) = n := by
  rw [decimalValue_of_isDigit T (isDigit_pyDigits n)]
  exact Nat.ofDigitChars_toDigits (by decide) (by decide)

lemma pyDigits_inj {m n : Nat} (h : pyDigits m = pyDigits n) : m = n := by
  have hvalue : Nat.ofDigitChars 10 (pyDigits m) 0 = Nat.ofDigitChars 10 (pyDigits n) 0 := by rw [h]
  unfold pyDigits at hvalue
  rwa [Nat.ofDigitChars_toDigits (by decide) (by decide),
    Nat.ofDigitChars_toDigits (by decide) (by decide)] at hvalue

lemma splitSign_digits (n : Nat) (rest : Text) :
    splitSign (pyDigits n ++ rest) = (false, pyDigits n ++ rest) := by
  have hdigit := isDigit_pyDigits n
  cases hds : pyDigits n with
  | nil => exact absurd hds (pyDigits_ne_nil n)
  | cons c ds =>
    rw [hds] at hdigit
    have hc := hdigit c List.mem_cons_self
    rw [List.cons_append]
    unfold splitSign
    split
    · next heq =>
      cases heq
      cases hc
    · next heq =>
      cases heq
      cases hc
    · rfl

lemma splitSign_pyInt (n : ℤ) (rest : Text) :
    splitSign (pyInt n ++ rest) = (decide (n < 0), pyDigits n.natAbs ++ rest) := by
  unfold pyInt
  split
  · next hneg => simp [splitSign, hneg]
  · next hpos => rw [splitSign_digits, decide_eq_false hpos]

lemma pyInt_plain {n : ℤ} : ∀ c ∈ pyInt n, c = '-' ∨ c.isDigit = true := by
  intro c hc
  unfold pyInt at hc
  split at hc
  · rcases List.mem_cons.mp hc with rfl | hc
    · exact .inl rfl
    · exact .inr (isDigit_pyDigits _ c hc)
  · exact .inr (isDigit_pyDigits _ c hc)

/-- No character of a printed integer is white space, a comma or an underscore. -/
lemma pyInt_char {n : ℤ} {c : Char} (hc : c ∈ pyInt n) :
    pyIsSpace c = false ∧ c ≠ ',' ∧ c ≠ '_' := by
  rcases pyInt_plain c hc with rfl | hdigit
  · decide
  · refine ⟨isSpace_of_isDigit hdigit, ?_, ?_⟩
    · rintro rfl
      cases hdigit
    · rintro rfl
      cases hdigit

lemma withSign_natAbs (n : ℤ) : withSign (decide (n < 0)) n.natAbs = n := by
  unfold withSign
  simp only [decide_eq_true_eq]
  split <;> omega

/-- A printed integer, with an exponent or without, is read as what it is. -/
lemma pyDecimal_pyInt_append (T : DigitTables) (n : ℤ) {rest : Text} {e : ℤ}
    (hhead : ∀ c ∈ rest.head?, T.decimal c = none ∧ c ≠ '.')
    (hplain : ∀ c ∈ rest, pyIsSpace c = false ∧ c ≠ '_')
    (hexp : decimalExponent T.toUnicodeTables rest = some e) :
    pyDecimal T.toUnicodeTables (pyInt n ++ rest) = some (shiftPoint n e) := by
  have hchars : ∀ c ∈ pyInt n ++ rest, pyIsSpace c = false ∧ c ≠ '_' := by
    intro c hc
    rcases List.mem_append.mp hc with hn | hr
    · exact ⟨(pyInt_char hn).1, (pyInt_char hn).2.2⟩
    · exact hplain c hr
  have hstrip : pyStrip (pyInt n ++ rest) = pyInt n ++ rest :=
    pyStrip_of_stripped ⟨fun c hc => (hchars c (List.mem_of_mem_head? hc)).1,
      fun c hc => (hchars c (List.mem_of_mem_getLast? hc)).1⟩
  have hfilter : (pyInt n ++ rest).filter (fun c => c ≠ '_') = pyInt n ++ rest := by
    apply List.filter_eq_self.mpr
    intro c hc
    simp [(hchars c hc).2]
  have hdigits : ∀ c ∈ pyDigits n.natAbs, isDecimalDigit T.toUnicodeTables c = true := by
    intro c hc
    rw [isDecimalDigit, T.decimal_of_isDigit c (isDigit_pyDigits _ c hc)]
    rfl
  have hspan : (pyDigits n.natAbs ++ rest).span (isDecimalDigit T.toUnicodeTables) =
      (pyDigits n.natAbs, rest) := by
    rw [List.span_eq_takeWhile_dropWhile, List.takeWhile_append_of_pos hdigits,
      List.dropWhile_append_of_pos hdigits]
    cases rest with
    | nil => simp
    | cons c rest => simp [isDecimalDigit, (hhead c rfl).1]
  have hfrac : decimalFraction T.toUnicodeTables rest = ([], rest) := by
    unfold decimalFraction
    split
    · exact absurd rfl (hhead '.' rfl).2
    · rfl
  unfold pyDecimal
  simp only [hstrip, hfilter, splitSign_pyInt, hspan, hfrac, List.append_nil, hexp,
    pyDigits_ne_nil, decimalValue_pyDigits, withSign_natAbs]
  simp

lemma pyDecimal_pyInt (T : DigitTables) (n : ℤ) :
    pyDecimal T.toUnicodeTables (pyInt n) = some (n : ℚ) := by
  have h := @pyDecimal_pyInt_append T n [] 0 (by simp) (by simp) rfl
  rw [List.append_nil] at h
  simpa [shiftPoint] using h

/-- `x` in hundredths, with an exponent. -/
def hundredths (x : ℚ) : Text := pyInt ⌊x * 100⌋ ++ "E-2".toList

lemma pyDecimal_hundredths (x : ℚ) :
    pyDecimal asciiDigitTables.toUnicodeTables (hundredths x) =
      some ((⌊x * 100⌋ : ℚ) / 100) := by
  have h := @pyDecimal_pyInt_append asciiDigitTables ⌊x * 100⌋ "E-2".toList (-2) (by decide)
    (by decide) (by decide)
  have hplaces : (-(-2) : ℤ).toNat = 2 := by decide
  rw [hundredths, h, shiftPoint, if_neg (by decide), hplaces]
  norm_num

/-- Exact amounts in the place of floats. They agree with floats on the amounts that are printed
with two decimal places at most. -/
def centFloats : PyFloat asciiDigitTables.toUnicodeTables where
  carrier := ℚ
  ofDecimal := id
  repr := hundredths
  dumps := hundredths
  isZero x := x = 0
  repr_ne_nil x := by simp [hundredths]
  repr_plain x c hc := by
    rcases List.mem_append.mp hc with hn | hexp
    · exact ⟨(pyInt_char hn).2.1, (pyInt_char hn).1⟩
    · have hchars : ∀ a ∈ "E-2".toList, a ≠ ',' ∧ pyIsSpace a = false := by decide
      exact hchars c hexp
  repr_of_isZero x hx := by
    rw [of_decide_eq_true hx, pyDecimal_hundredths]
    norm_num
  decimal_repr n s r hs hr := by
    have hfloor : (⌊(n : ℚ) / 10 ^ s * 100⌋ : ℚ) / 100 = n / 10 ^ s := by
      have hint : (n : ℚ) / 10 ^ s * 100 = (n * 10 ^ (2 - s) : ℤ) := by
        push_cast
        rw [div_mul_eq_mul_div, div_eq_iff (by positivity), mul_assoc, ← pow_add,
          Nat.sub_add_cancel hs]
        norm_num
      rw [hint, Int.floor_intCast, ← hint, mul_div_cancel_right₀ _ (by norm_num)]
    rw [id, pyDecimal_hundredths, hfloor] at hr
    cases hr
    rw [sub_self, abs_zero]
    positivity

end IpDocket.Lib
