import IpDocket.Lib.Decimal
import IpDocket.Lib.DecimalContext
import Mathlib.Data.List.TakeWhile

/-!
# Numerals with blanks, and two ways of rounding

`int` of a text, and `Decimal` of a text with white space in it: white space around a numeral is
ignored, inside of it there can be none. What `int` reads, `Decimal` reads as the same number. The
last part compares half to even with half away from zero, and hundredths with units.
-/

namespace IpDocket.Lib

lemma pyStrip_append_spaces {a b : Text} (ha : ∀ c ∈ a, pyIsSpace c = true)
    (hb : ∀ c ∈ b, pyIsSpace c = true) (t : Text) : pyStrip (a ++ t ++ b) = pyStrip t := by
  have hback : ∀ c ∈ b.reverse, pyIsSpace c = true := fun c hc => hb c (List.mem_reverse.mp hc)
  have hnil : b.dropWhile pyIsSpace = [] := List.dropWhile_eq_nil_iff.mpr hb
  unfold pyStrip
  rw [List.append_assoc, List.dropWhile_append_of_pos ha, List.dropWhile_append]
  split
  · next hempty =>
    rw [List.isEmpty_iff.mp hempty, hnil]
  · rw [List.reverse_append, List.dropWhile_append_of_pos hback]

lemma exists_spaces (t : Text) :
    ∃ a b, t = a ++ pyStrip t ++ b ∧ (∀ c ∈ a, pyIsSpace c = true) ∧ ∀ c ∈ b, pyIsSpace c = true := by
  refine ⟨t.takeWhile pyIsSpace, ((t.dropWhile pyIsSpace).reverse.takeWhile pyIsSpace).reverse, ?_,
    fun c hc => List.mem_takeWhile_imp hc, fun c hc => List.mem_takeWhile_imp (List.mem_reverse.mp hc)⟩
  unfold pyStrip
  rw [List.append_assoc, ← List.reverse_append, List.takeWhile_append_dropWhile, List.reverse_reverse,
    List.takeWhile_append_dropWhile]

/-- Characters can be left out before or after the white space is dropped. -/
lemma pyStrip_filter (p : Char → Bool) (t : Text) :
    pyStrip (t.filter p) = pyStrip ((pyStrip t).filter p) := by
  obtain ⟨a, b, ht, ha, hb⟩ := exists_spaces t
  have hleft : ∀ c ∈ a.filter p, pyIsSpace c = true := fun c hc => ha c (List.mem_filter.mp hc).1
  have hright : ∀ c ∈ b.filter p, pyIsSpace c = true := fun c hc => hb c (List.mem_filter.mp hc).1
  conv_lhs => rw [ht]
  rw [List.filter_append, List.filter_append, pyStrip_append_spaces hleft hright]

section Decimals

variable {T : UnicodeTables}

lemma pyDecimal_congr {s t : Text} (h : pyStrip s = pyStrip t) : pyDecimal T s = pyDecimal T t := by
  unfold pyDecimal
  rw [h]

lemma pyDecimal_pyStrip (t : Text) : pyDecimal T (pyStrip t) = pyDecimal T t :=
  pyDecimal_congr (pyStrip_of_stripped (stripped_pyStrip t))

lemma mem_splitSign {t : Text} {c : Char} (h : c ∈ t) : c = '-' ∨ c = '+' ∨ c ∈ (splitSign t).2 := by
  unfold splitSign
  split
  · next u =>
    exact (List.mem_cons.mp h).imp_right .inr
  · next u =>
    rcases List.mem_cons.mp h with rfl | h
    · exact .inr (.inl rfl)
    · exact .inr (.inr h)
  · exact .inr (.inr h)

lemma mem_decimalFraction {t : Text} {c : Char} (h : c ∈ t) :
    c = '.' ∨ isDecimalDigit T c = true ∨ c ∈ (decimalFraction T t).2 := by
  unfold decimalFraction
  split
  · next u =>
    rw [List.span_eq_takeWhile_dropWhile]
    rcases List.mem_cons.mp h with rfl | h
    · exact .inl rfl
    · rw [← List.takeWhile_append_dropWhile (p := isDecimalDigit T) (l := u)] at h
      rcases List.mem_append.mp h with h | h
      · exact .inr (.inl (List.mem_takeWhile_imp h))
      · exact .inr (.inr h)
  · exact .inr (.inr h)

variable (hdigit : ∀ c, pyIsSpace c = true → T.decimal c = none)

include hdigit

lemma isSpace_of_isDecimalDigit {c : Char} (h : isDecimalDigit T c = true) : pyIsSpace c = false := by
  by_contra hspace
  rw [isDecimalDigit, hdigit c (by simpa using hspace)] at h
  cases h

lemma isSpace_of_decimalExponent {t : Text} {e : ℤ} (h : decimalExponent T t = some e) :
    ∀ c ∈ t, pyIsSpace c = false := by
  intro c hc
  cases t with
  | nil => cases hc
  | cons first t =>
    rw [decimalExponent] at h
    dsimp only at h
    split at h
    · next hvalid =>
      obtain ⟨hfirst, -, hall⟩ := hvalid
      rcases List.mem_cons.mp hc with rfl | hc
      · rcases hfirst with rfl | rfl <;> decide
      · rcases mem_splitSign hc with rfl | rfl | hc
        · decide
        · decide
        · exact isSpace_of_isDecimalDigit hdigit (List.all_eq_true.mp hall c hc)
    · cases h

/-- A numeral has no white space inside. -/
lemma isSpace_of_pyDecimal {t : Text} {x : ℚ} (h : pyDecimal T t = some x) :
    ∀ c ∈ pyStrip t, pyIsSpace c = false := by
  intro c hc
  by_cases hunder : c = '_'
  · rw [hunder]
    decide
  have hmem : c ∈ (pyStrip t).filter (fun c => c ≠ '_') := List.mem_filter.mpr ⟨hc, by simpa using hunder⟩
  unfold pyDecimal at h
  rcases mem_splitSign hmem with rfl | rfl | hbody
  · decide
  · decide
  · generalize splitSign ((pyStrip t).filter (fun c => c ≠ '_')) = signed at h hbody
    obtain ⟨neg, body⟩ := signed
    dsimp only at h hbody
    rw [List.span_eq_takeWhile_dropWhile] at h
    dsimp only at h
    split at h
    · cases h
    · obtain ⟨e, hexp, -⟩ := Option.map_eq_some_iff.mp h
      rw [← List.takeWhile_append_dropWhile (p := isDecimalDigit T) (l := body)] at hbody
      rcases List.mem_append.mp hbody with hwhole | hrest
      · exact isSpace_of_isDecimalDigit hdigit (List.mem_takeWhile_imp hwhole)
      · rcases mem_decimalFraction (T := T) hrest with rfl | hfrac | hrest
        · decide
        · exact isSpace_of_isDecimalDigit hdigit hfrac
        · exact isSpace_of_decimalExponent hdigit hexp c hrest

omit hdigit

lemma pyDecimal_nil : pyDecimal T [] = none := rfl

end Decimals

section Integers

variable (T : UnicodeTables)

/-- Digits with single underscores between them. -/
def isIntBody : (afterDigit : Bool) → Text → Bool
  | afterDigit, [] => afterDigit
  | afterDigit, c :: t =>
    if c = '_' then afterDigit && isIntBody false t else isDecimalDigit T c && isIntBody true t

/-- `int` of a text; a text of more than 4300 digits raises. -/
def pyIntOf (t : Text) : Option ℤ :=
  let (neg, body) := splitSign (pyStrip t)
  let digits := body.filter (fun c => c ≠ '_')
  if isIntBody T false body ∧ digits.length ≤ 4300 then some (withSign neg (decimalValue T digits))
  else none

variable {T}

lemma isDecimalDigit_of_isIntBody {afterDigit : Bool} {t : Text} (h : isIntBody T afterDigit t = true) :
    ∀ c ∈ t.filter (fun c => c ≠ '_'), isDecimalDigit T c = true := by
  intro c hc
  obtain ⟨hmem, hne⟩ := List.mem_filter.mp hc
  have hunder : c ≠ '_' := by simpa using hne
  induction t generalizing afterDigit with
  | nil => cases hmem
  | cons d t ih =>
    rw [isIntBody] at h
    split at h
    · next hd =>
      have hrest : c ∈ t := (List.mem_cons.mp hmem).resolve_left (fun heq => hunder (heq.trans hd))
      exact ih (Bool.and_eq_true_iff.mp h).2 (List.mem_filter.mpr ⟨hrest, hne⟩) hrest
    · obtain ⟨hd, ht⟩ := Bool.and_eq_true_iff.mp h
      rcases List.mem_cons.mp hmem with rfl | hrest
      · exact hd
      · exact ih ht (List.mem_filter.mpr ⟨hrest, hne⟩) hrest

/-- A body starts with a digit. -/
lemma exists_head_of_isIntBody {t : Text} (h : isIntBody T false t = true) :
    ∃ c u, t = c :: u ∧ c ≠ '_' := by
  cases t with
  | nil => cases h
  | cons c u =>
    refine ⟨c, u, rfl, ?_⟩
    rintro rfl
    cases h

/-- Underscores in the body do not touch the sign. -/
lemma splitSign_filter {t : Text} (h : isIntBody T false (splitSign t).2 = true) :
    splitSign (t.filter (fun c => c ≠ '_')) =
      ((splitSign t).1, (splitSign t).2.filter (fun c => c ≠ '_')) := by
  unfold splitSign at h ⊢
  split at h
  · rfl
  · rfl
  · next hminus hplus =>
    obtain ⟨c, u, rfl, hc⟩ := exists_head_of_isIntBody h
    have hfilter : (c :: u).filter (fun c => c ≠ '_') = c :: u.filter (fun c => c ≠ '_') :=
      List.filter_cons_of_pos (by simpa using hc)
    rw [hfilter]
    split
    · next heq =>
      cases heq
      exact absurd rfl (hminus u)
    · next heq =>
      cases heq
      exact absurd rfl (hplus u)
    · rfl

lemma isIntBody_of_digits {t : Text} (h : ∀ c ∈ t, isDecimalDigit T c = true ∧ c ≠ '_') :
    isIntBody T true t = true := by
  induction t with
  | nil => rfl
  | cons c t ih =>
    obtain ⟨hdigit, hne⟩ := h c List.mem_cons_self
    rw [isIntBody, if_neg hne, hdigit, ih (fun d hd => h d (List.mem_cons_of_mem c hd))]
    rfl

/-- A printed integer of up to 4300 digits is read as what it is. -/
lemma pyIntOf_pyInt (T : DigitTables) {n : ℤ} (h : (pyDigits n.natAbs).length ≤ 4300) :
    pyIntOf T.toUnicodeTables (pyInt n) = some n := by
  have hstrip : pyStrip (pyInt n) = pyInt n :=
    pyStrip_of_stripped ⟨fun c hc => (pyInt_char (List.mem_of_mem_head? hc)).1,
      fun c hc => (pyInt_char (List.mem_of_mem_getLast? hc)).1⟩
  have hdigits : ∀ c ∈ pyDigits n.natAbs, isDecimalDigit T.toUnicodeTables c = true ∧ c ≠ '_' := by
    intro c hc
    have hdigit := isDigit_pyDigits _ c hc
    refine ⟨?_, ?_⟩
    · rw [isDecimalDigit, T.decimal_of_isDigit c hdigit]
      rfl
    · rintro rfl
      cases hdigit
  have hbody : isIntBody T.toUnicodeTables false (pyDigits n.natAbs) = true := by
    cases hds : pyDigits n.natAbs with
    | nil => exact absurd hds (pyDigits_ne_nil _)
    | cons c ds =>
      rw [hds] at hdigits
      obtain ⟨hdigit, hne⟩ := hdigits c List.mem_cons_self
      rw [isIntBody, if_neg hne, hdigit,
        isIntBody_of_digits (fun d hd => hdigits d (List.mem_cons_of_mem c hd))]
      rfl
  have hfilter : (pyDigits n.natAbs).filter (fun c => c ≠ '_') = pyDigits n.natAbs := by
    apply List.filter_eq_self.mpr
    intro c hc
    simp [(hdigits c hc).2]
  have hsign := splitSign_pyInt n []
  rw [List.append_nil, List.append_nil] at hsign
  unfold pyIntOf
  rw [hstrip, hsign]
  dsimp only
  rw [hfilter, if_pos ⟨hbody, h⟩, decimalValue_pyDigits, withSign_natAbs]

/-- What `int` reads is read by `Decimal` as the same number. -/
theorem pyDecimal_of_pyIntOf {t : Text} {n : ℤ} (h : pyIntOf T t = some n) :
    pyDecimal T t = some (n : ℚ) := by
  unfold pyIntOf at h
  dsimp only at h
  split at h
  · next hvalid =>
    obtain ⟨hbody, -⟩ := hvalid
    cases h
    have hdigits := isDecimalDigit_of_isIntBody hbody
    have hne : (splitSign (pyStrip t)).2.filter (fun c => c ≠ '_') ≠ [] := by
      obtain ⟨c, u, heq, hc⟩ := exists_head_of_isIntBody hbody
      rw [heq, List.filter_cons_of_pos (by simpa using hc)]
      exact List.cons_ne_nil _ _
    unfold pyDecimal
    rw [splitSign_filter hbody]
    dsimp only
    rw [List.span_eq_takeWhile_dropWhile, List.takeWhile_eq_self_iff.mpr hdigits,
      List.dropWhile_eq_nil_iff.mpr hdigits]
    simp only [decimalFraction, List.append_nil, if_neg hne, decimalExponent, Option.map_some]
    simp [shiftPoint]
  · cases h

end Integers

lemma abs_roundHalfUp_sub_le (x : ℚ) : |(roundHalfUp x : ℚ) - x| ≤ 1 / 2 := by
  have hcell := (roundHalfUp_eq_iff x (roundHalfUp x)).mp rfl
  rw [abs_sub_comm]
  rcases hcell with hlt | ⟨heq, -⟩ | ⟨heq, -⟩
  · exact hlt.le
  · rw [heq]
    norm_num
  · rw [heq]
    norm_num

lemma roundHalfUp_eq_zero_iff (x : ℚ) : roundHalfUp x = 0 ↔ |x| < 1 / 2 := by
  rw [roundHalfUp_eq_iff]
  unfold HalfUpCell
  simp

lemma roundHalfEven_eq_zero_iff (x : ℚ) : roundHalfEven x = 0 ↔ |x| ≤ 1 / 2 := by
  rw [roundHalfEven_eq_iff, le_iff_lt_or_eq]
  unfold HalfEvenCell
  simp

/-- A rounded amount is the number of its hundredths only when both are zero. -/
lemma roundHalfUp_hundredths_iff {x : ℚ} {n : ℤ} (hn : |(n : ℚ) - x| ≤ 1 / 2) :
    roundHalfUp (x * 100) = n ↔ |x| < 1 / 200 := by
  have hsmall : |x| < 1 / 200 → n = 0 := by
    intro h
    have hlt : |(n : ℚ)| < 1 := by
      calc |(n : ℚ)| = |(n - x) + x| := by ring_nf
        _ ≤ |(n : ℚ) - x| + |x| := abs_add_le _ _
        _ < 1 := by linarith
    have hint : |n| < 1 := by exact_mod_cast hlt
    exact Int.abs_lt_one_iff.mp hint
  have hzero : roundHalfUp (x * 100) = 0 ↔ |x| < 1 / 200 := by
    rw [roundHalfUp_eq_zero_iff, abs_mul, abs_of_pos (by norm_num : (0 : ℚ) < 100)]
    constructor <;> intro h <;> linarith
  constructor
  · intro h
    have hround := abs_roundHalfUp_sub_le (x * 100)
    rw [h] at hround
    have hbounds := abs_le.mp hround
    have hbounds' := abs_le.mp hn
    -- both are within half a unit, so that ninety-nine times the amount is at most one
    have hlt : |(n : ℚ)| < 1 := abs_lt.mpr ⟨by linarith, by linarith⟩
    have hint : |n| < 1 := by exact_mod_cast hlt
    rw [Int.abs_lt_one_iff.mp hint] at h
    exact hzero.mp h
  · intro h
    rw [hsmall h]
    exact hzero.mpr h

lemma natAbs_roundHalfUp_lt_iff (x : ℚ) (bound : Nat) :
    (roundHalfUp x).natAbs < bound ↔ |x| + 1 / 2 < bound := by
  have hfloor : ((roundHalfUp x).natAbs : ℤ) = ⌊|x| + 1 / 2⌋ := by
    unfold roundHalfUp
    split
    · next hpos =>
      rw [abs_of_nonneg hpos]
      exact Int.natAbs_of_nonneg (Int.floor_nonneg.mpr (by linarith))
    · next hneg =>
      rw [abs_of_neg (not_le.mp hneg), Int.natAbs_neg]
      exact Int.natAbs_of_nonneg (Int.floor_nonneg.mpr (by linarith))
  have hcast : (roundHalfUp x).natAbs < bound ↔ ⌊|x| + 1 / 2⌋ < (bound : ℤ) := by
    rw [← hfloor]
    exact Int.ofNat_lt.symm
  rw [hcast, Int.floor_lt]
  norm_cast

/-- Below an even bound both ways stay alike. -/
lemma natAbs_roundHalfEven_lt_iff (x : ℚ) {bound : Nat} (heven : bound % 2 = 0) :
    (roundHalfEven x).natAbs < bound ↔ |x| + 1 / 2 < bound := by
  have hlow := roundHalfEven_le_iff (k := -bound) (by omega) x
  have hhigh := le_roundHalfEven_iff (k := bound) (by omega) x
  push_cast at hlow hhigh
  have hint : (roundHalfEven x).natAbs < bound ↔
      ¬(roundHalfEven x ≤ -bound) ∧ ¬((bound : ℤ) ≤ roundHalfEven x) := by omega
  have habs : |x| + 1 / 2 < bound ↔ |x| < bound - 1 / 2 := by constructor <;> intro h <;> linarith
  rw [hint, hlow, hhigh, habs, abs_lt, not_le, not_le]
  constructor <;> rintro ⟨hneg, hpos⟩ <;> constructor <;> linarith

/-- Halfway above an even number, or below its negative, both ways part. -/
lemma roundHalfEven_eq_roundHalfUp_iff (x : ℚ) :
    roundHalfEven x = roundHalfUp x ↔ ∀ k : Nat, |x| ≠ 2 * k + 1 / 2 := by
  constructor
  · intro h k habs
    have hnonneg : (0 : ℚ) ≤ 2 * k + 1 / 2 := by positivity
    rcases (abs_eq hnonneg).mp habs with hx | hx
    · have heven : roundHalfEven x = 2 * k := by
        rw [roundHalfEven_eq_iff, hx]
        refine .inr ⟨?_, by omega⟩
        push_cast
        norm_num
      have hup : roundHalfUp x = 2 * k + 1 := by
        rw [roundHalfUp_eq_iff, hx]
        refine .inr (.inr ⟨?_, by omega⟩)
        push_cast
        ring
      omega
    · have heven : roundHalfEven x = -(2 * k) := by
        rw [roundHalfEven_eq_iff, hx]
        refine .inr ⟨?_, by omega⟩
        push_cast
        norm_num
      have hup : roundHalfUp x = -(2 * k + 1) := by
        rw [roundHalfUp_eq_iff, hx]
        refine .inr (.inl ⟨?_, by omega⟩)
        push_cast
        ring
      omega
  · intro h
    have hcell := (roundHalfUp_eq_iff x (roundHalfUp x)).mp rfl
    rw [roundHalfEven_eq_iff]
    generalize roundHalfUp x = n at hcell
    rcases hcell with hlt | ⟨hx, hn⟩ | ⟨hx, hn⟩
    · exact .inl hlt
    · refine .inr ⟨by rw [hx]; norm_num, ?_⟩
      by_contra hodd
      obtain ⟨k, hk⟩ : ∃ k : Nat, n = -(2 * k + 1) := ⟨((-n - 1) / 2).toNat, by omega⟩
      have hcast : (n : ℚ) = -(2 * k + 1) := by exact_mod_cast congrArg (Int.cast (R := ℚ)) hk
      apply h k
      have hvalue : x = -(2 * k + 1 / 2) := by linarith
      rw [hvalue, abs_neg, abs_of_nonneg (by positivity)]
    · refine .inr ⟨by rw [hx]; norm_num, ?_⟩
      by_contra hodd
      obtain ⟨k, hk⟩ : ∃ k : Nat, n = 2 * k + 1 := ⟨((n - 1) / 2).toNat, by omega⟩
      have hcast : (n : ℚ) = 2 * k + 1 := by exact_mod_cast congrArg (Int.cast (R := ℚ)) hk
      apply h k
      have hvalue : x = 2 * k + 1 / 2 := by linarith
      rw [hvalue, abs_of_nonneg (by positivity)]

end IpDocket.Lib
