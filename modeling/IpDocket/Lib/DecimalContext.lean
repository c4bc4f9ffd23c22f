import IpDocket.Lib.Rounding
import Mathlib.Data.Int.Log
import Mathlib.Tactic.NormNum
import Mathlib.Tactic.Positivity

/-!
# Decimal arithmetic in a context

The results of decimal arithmetic have 28 digits at most and are rounded half to even. The numbers that
are rounded to an integer, half away from zero, half to even, or first to hundredths and then to units,
make up its cell.
-/

namespace IpDocket.Lib

/-- The place of the last digit of a result. -/
def lastPlace (x : ℚ) : ℤ := Int.log 10 |x| - 27

/-- An exact result in the default context of `decimal`, which has 28 digits. -/
def contextRound (x : ℚ) : ℚ := roundHalfEven (x / 10 ^ lastPlace x) * 10 ^ lastPlace x

/-- A number of 28 digits is not rounded. -/
lemma contextRound_of_digits {n : ℤ} {s : Nat} (h : n.natAbs < 10 ^ 28) :
    contextRound (n / 10 ^ s) = n / 10 ^ s := by
  by_cases hzero : n = 0
  · subst hzero
    have hround := roundHalfEven_intCast 0
    unfold contextRound
    rw [Int.cast_zero] at hround
    simp [hround]
  · have hpow : (0 : ℚ) < 10 ^ s := by positivity
    have hne : (n : ℚ) ≠ 0 := by exact_mod_cast hzero
    have hpos : (0 : ℚ) < |(n : ℚ) / 10 ^ s| := abs_pos.mpr (div_ne_zero hne hpow.ne')
    have hlog : Int.log 10 |(n : ℚ) / 10 ^ s| < 28 - s := by
      rw [← Int.lt_zpow_iff_log_lt (by norm_num) hpos, abs_div, abs_of_pos hpow, div_lt_iff₀ hpow]
      have hsplit : ((10 : ℕ) : ℚ) ^ (28 - (s : ℤ)) * 10 ^ s = 10 ^ 28 := by
        rw [Nat.cast_ofNat, ← zpow_natCast (10 : ℚ) s, ← zpow_add₀ (by norm_num)]
        norm_num
      rw [hsplit, ← Int.cast_abs, Int.abs_eq_natAbs]
      exact_mod_cast h
    obtain ⟨k, hk⟩ : ∃ k : Nat, lastPlace ((n : ℚ) / 10 ^ s) = -(s : ℤ) - k := by
      refine ⟨(-(s : ℤ) - lastPlace ((n : ℚ) / 10 ^ s)).toNat, ?_⟩
      unfold lastPlace at *
      omega
    have hinteger : (n : ℚ) / 10 ^ s / 10 ^ (-(s : ℤ) - k) = ((n * 10 ^ k : ℤ) : ℚ) := by
      rw [zpow_sub₀ (by norm_num), zpow_neg, zpow_natCast, zpow_natCast]
      push_cast
      field_simp
    unfold contextRound
    rw [hk, hinteger, roundHalfEven_intCast, zpow_sub₀ (by norm_num), zpow_neg, zpow_natCast,
      zpow_natCast]
    push_cast
    field_simp

/-- A number with so many decimal places and few enough digits is not rounded. -/
lemma contextRound_of_places {x : ℚ} {n : ℤ} {s : Nat} (h : x * 10 ^ s = n)
    (hfits : |x| * 10 ^ s < 10 ^ 28) : contextRound x = x := by
  have hpow : (0 : ℚ) < 10 ^ s := by positivity
  have hx : x = n / 10 ^ s := by
    rw [← h, mul_div_cancel_right₀ _ hpow.ne']
  have hdigits : n.natAbs < 10 ^ 28 := by
    rw [← abs_of_pos hpow, ← abs_mul, h, ← Int.cast_abs, Int.abs_eq_natAbs] at hfits
    exact_mod_cast hfits
  rw [hx]
  exact contextRound_of_digits hdigits

lemma contextRound_of_isWhole {x : ℚ} {s : Nat} (h : IsWhole (x * 10 ^ s))
    (hfits : |x| * 10 ^ s < 10 ^ 28) : contextRound x = x := by
  obtain ⟨n, hn⟩ := h
  exact contextRound_of_places hn hfits

/-- `x` has at most `s` decimal places and is smaller than `bound`. -/
structure Places (s : Nat) (bound x : ℚ) : Prop where
  whole : IsWhole (x * 10 ^ s)
  small : |x| < bound

section Places

variable {s s' : Nat} {a b x y : ℚ}

lemma Places.mul (hx : Places s a x) (hy : Places s' b y) : Places (s + s') (a * b) (x * y) := by
  refine ⟨?_, ?_⟩
  · have hsplit : x * y * 10 ^ (s + s') = x * 10 ^ s * (y * 10 ^ s') := by ring
    rw [hsplit]
    exact hx.whole.mul hy.whole
  · rw [abs_mul]
    exact mul_lt_mul'' hx.small hy.small (abs_nonneg x) (abs_nonneg y)

lemma Places.add (hx : Places s a x) (hy : Places s b y) : Places s (a + b) (x + y) := by
  refine ⟨?_, (abs_add_le x y).trans_lt (add_lt_add hx.small hy.small)⟩
  rw [add_mul]
  exact hx.whole.add hy.whole

lemma Places.neg (hx : Places s a x) : Places s a (-x) := by
  obtain ⟨n, hn⟩ := hx.whole
  refine ⟨⟨-n, ?_⟩, by rw [abs_neg]; exact hx.small⟩
  rw [neg_mul, hn]
  push_cast
  rfl

/-- Two places more, a hundredth of the size. -/
lemma Places.percent (hx : Places s a x) : Places (s + 2) (a / 100) (x / 100) := by
  refine ⟨?_, ?_⟩
  · have hsplit : x / 100 * 10 ^ (s + 2) = x * 10 ^ s := by ring
    rw [hsplit]
    exact hx.whole
  · rw [abs_div, abs_of_pos (by norm_num : (0 : ℚ) < 100)]
    exact div_lt_div_of_pos_right hx.small (by norm_num)

lemma Places.mono (hx : Places s a x) (hs : s ≤ s') (hab : a ≤ b) : Places s' b x := by
  refine ⟨?_, hx.small.trans_le hab⟩
  obtain ⟨k, rfl⟩ := Nat.exists_eq_add_of_le hs
  have hsplit : x * 10 ^ (s + k) = x * 10 ^ s * ((10 ^ k : ℕ) : ℚ) := by
    push_cast
    ring
  rw [hsplit]
  exact hx.whole.mul (isWhole_natCast _)

lemma Places.exact (hx : Places s a x) (hfits : a * 10 ^ s ≤ 10 ^ 28) : contextRound x = x := by
  apply contextRound_of_isWhole hx.whole
  have hpow : (0 : ℚ) < 10 ^ s := by positivity
  exact (mul_lt_mul_of_pos_right hx.small hpow).trans_le hfits

end Places

/-- The numbers that are rounded to an integer, half away from zero. -/
def HalfUpCell (n : ℤ) (z : ℚ) : Prop :=
  |z - n| < 1 / 2 ∨ (z - n = 1 / 2 ∧ n < 0) ∨ (z - n = -1 / 2 ∧ 0 < n)

/-- The numbers that are rounded to an integer, half to even. -/
def HalfEvenCell (n : ℤ) (z : ℚ) : Prop := |z - n| < 1 / 2 ∨ (|z - n| = 1 / 2 ∧ n % 2 = 0)

/-- The numbers that are rounded to an integer if they are rounded to hundredths before, half to even. -/
def TwiceCell (n : ℤ) (z : ℚ) : Prop :=
  (n = 0 ∧ |z| < 99 / 200) ∨ (0 < n ∧ -101 / 200 ≤ z - n ∧ z - n < 99 / 200) ∨
    (n < 0 ∧ -99 / 200 < z - n ∧ z - n ≤ 101 / 200)

instance (n : ℤ) (z : ℚ) : Decidable (HalfUpCell n z) :=
  inferInstanceAs (Decidable (|z - n| < 1 / 2 ∨ (z - n = 1 / 2 ∧ n < 0) ∨ (z - n = -1 / 2 ∧ 0 < n)))

instance (n : ℤ) (z : ℚ) : Decidable (HalfEvenCell n z) :=
  inferInstanceAs (Decidable (|z - n| < 1 / 2 ∨ (|z - n| = 1 / 2 ∧ n % 2 = 0)))

instance (n : ℤ) (z : ℚ) : Decidable (TwiceCell n z) :=
  inferInstanceAs (Decidable ((n = 0 ∧ |z| < 99 / 200) ∨
    (0 < n ∧ -101 / 200 ≤ z - n ∧ z - n < 99 / 200) ∨
    (n < 0 ∧ -99 / 200 < z - n ∧ z - n ≤ 101 / 200)))

lemma roundHalfUp_neg (x : ℚ) : roundHalfUp (-x) = -roundHalfUp x := by
  unfold roundHalfUp
  rcases lt_trichotomy x 0 with hneg | rfl | hpos
  · rw [if_pos (by linarith), if_neg (by linarith), neg_neg]
  · norm_num
  · rw [if_neg (by linarith), if_pos (by linarith), neg_neg]

lemma roundHalfUp_of_nonneg {x : ℚ} (h : 0 ≤ x) (n : ℤ) :
    roundHalfUp x = n ↔ n - 1 / 2 ≤ x ∧ x < n + 1 / 2 := by
  rw [roundHalfUp, if_pos h, Int.floor_eq_iff]
  constructor
  · rintro ⟨hlow, hhigh⟩
    exact ⟨by linarith, by linarith⟩
  · rintro ⟨hlow, hhigh⟩
    exact ⟨by linarith, by linarith⟩

lemma halfUpCell_of_nonneg {x : ℚ} (h : 0 ≤ x) (n : ℤ) :
    HalfUpCell n x ↔ n - 1 / 2 ≤ x ∧ x < n + 1 / 2 := by
  unfold HalfUpCell
  rw [abs_lt]
  constructor
  · rintro (⟨hlow, hhigh⟩ | ⟨heq, hn⟩ | ⟨heq, hn⟩)
    · exact ⟨by linarith, by linarith⟩
    · have hcast : (n : ℚ) ≤ -1 := by exact_mod_cast Int.le_sub_one_of_lt hn
      linarith
    · exact ⟨by linarith, by linarith⟩
  · rintro ⟨hlow, hhigh⟩
    rcases hlow.lt_or_eq with hlt | heq
    · exact .inl ⟨by linarith, by linarith⟩
    · refine .inr (.inr ⟨by linarith, ?_⟩)
      have hcast : (0 : ℚ) < n := by linarith
      exact_mod_cast hcast

lemma halfUpCell_neg (n : ℤ) (x : ℚ) : HalfUpCell (-n) (-x) ↔ HalfUpCell n x := by
  have habs : |-x - ((-n : ℤ) : ℚ)| = |x - n| := by
    rw [← abs_neg]
    push_cast
    congr 1
    ring
  have hhigh : -x - ((-n : ℤ) : ℚ) = 1 / 2 ↔ x - n = -1 / 2 := by
    push_cast
    constructor <;> intro h <;> linarith
  have hlow : -x - ((-n : ℤ) : ℚ) = -1 / 2 ↔ x - n = 1 / 2 := by
    push_cast
    constructor <;> intro h <;> linarith
  unfold HalfUpCell
  rw [habs, hhigh, hlow, Int.neg_neg_iff_pos, Int.neg_pos]
  grind

theorem roundHalfUp_eq_iff (x : ℚ) (n : ℤ) : roundHalfUp x = n ↔ HalfUpCell n x := by
  rcases le_or_gt 0 x with hpos | hneg
  · rw [roundHalfUp_of_nonneg hpos, halfUpCell_of_nonneg hpos]
  · have hpos : 0 ≤ -x := by linarith
    rw [← halfUpCell_neg, halfUpCell_of_nonneg hpos, ← roundHalfUp_of_nonneg hpos, roundHalfUp_neg,
      neg_inj]

lemma halfEvenCell_round (x : ℚ) : HalfEvenCell (roundHalfEven x) x := by
  have hlow := Int.floor_le x
  have hhigh := Int.lt_floor_add_one x
  unfold HalfEvenCell roundHalfEven
  dsimp only
  split
  · exact .inl (abs_lt.mpr ⟨by linarith, by linarith⟩)
  · next hge =>
    split
    · next hgt =>
      left
      push_cast
      exact abs_lt.mpr ⟨by linarith, by linarith⟩
    · next hle =>
      have heq : x - ⌊x⌋ = 1 / 2 := by linarith
      split
      · next heven =>
        right
        rw [heq]
        exact ⟨by norm_num, heven⟩
      · next hodd =>
        right
        refine ⟨?_, by omega⟩
        push_cast
        have hhalf : x - (⌊x⌋ + 1) = -1 / 2 := by linarith
        rw [hhalf]
        norm_num

lemma HalfEvenCell.unique {m n : ℤ} {x : ℚ} (hm : HalfEvenCell m x) (hn : HalfEvenCell n x) : m = n := by
  unfold HalfEvenCell at hm hn
  rcases lt_trichotomy m n with hlt | heq | hgt
  · exfalso
    have hcast : (m : ℚ) + 1 ≤ n := by exact_mod_cast hlt
    rw [abs_lt, abs_eq (by norm_num)] at hm hn
    rcases hm with ⟨-, hm⟩ | ⟨hm | hm, hevenm⟩ <;> rcases hn with ⟨hn, -⟩ | ⟨hn | hn, hevenn⟩ <;>
      try linarith
    have hsucc : (m : ℚ) + 1 = n := by linarith
    have hint : m + 1 = n := by exact_mod_cast hsucc
    omega
  · exact heq
  · exfalso
    have hcast : (n : ℚ) + 1 ≤ m := by exact_mod_cast hgt
    rw [abs_lt, abs_eq (by norm_num)] at hm hn
    rcases hm with ⟨hm, -⟩ | ⟨hm | hm, hevenm⟩ <;> rcases hn with ⟨-, hn⟩ | ⟨hn | hn, hevenn⟩ <;>
      try linarith
    have hsucc : (n : ℚ) + 1 = m := by linarith
    have hint : n + 1 = m := by exact_mod_cast hsucc
    omega

theorem roundHalfEven_eq_iff (x : ℚ) (n : ℤ) : roundHalfEven x = n ↔ HalfEvenCell n x := by
  constructor
  · rintro rfl
    exact halfEvenCell_round x
  · exact (halfEvenCell_round x).unique

lemma abs_roundHalfEven_sub_le (x : ℚ) : |(roundHalfEven x : ℚ) - x| ≤ 1 / 2 := by
  rw [abs_sub_comm]
  rcases halfEvenCell_round x with hlt | ⟨heq, -⟩
  · exact hlt.le
  · exact heq.le

/-- What is rounded away is small against the number. -/
lemma abs_contextRound_sub_le (x : ℚ) : |contextRound x - x| ≤ |x| / (2 * 10 ^ 27) := by
  rcases eq_or_ne x 0 with rfl | hne
  · have hround := roundHalfEven_intCast 0
    rw [Int.cast_zero] at hround
    simp [contextRound, hround]
  · have hplace : (0 : ℚ) < 10 ^ lastPlace x := zpow_pos (by norm_num) _
    have hsplit : contextRound x - x =
        (roundHalfEven (x / 10 ^ lastPlace x) - x / 10 ^ lastPlace x) * 10 ^ lastPlace x := by
      rw [contextRound, sub_mul, div_mul_cancel₀ _ hplace.ne']
    have hunit : (10 : ℚ) ^ lastPlace x ≤ |x| / 10 ^ 27 := by
      have hlog := Int.zpow_log_le_self (b := 10) (by norm_num) (abs_pos.mpr hne)
      have hdiv := div_le_div_of_nonneg_right hlog (by positivity : (0 : ℚ) ≤ 10 ^ 27)
      rw [Nat.cast_ofNat] at hdiv
      rw [lastPlace, zpow_sub₀ (by norm_num)]
      exact_mod_cast hdiv
    rw [hsplit, abs_mul, abs_of_pos hplace]
    calc |(roundHalfEven (x / 10 ^ lastPlace x) : ℚ) - x / 10 ^ lastPlace x| * 10 ^ lastPlace x
        ≤ 1 / 2 * (|x| / 10 ^ 27) := by
          gcongr
          exact abs_roundHalfEven_sub_le _
      _ = |x| / (2 * 10 ^ 27) := by ring

/-- An even number is reached from half a unit below on. -/
lemma le_roundHalfEven_iff {k : ℤ} (hk : k % 2 = 0) (x : ℚ) : k ≤ roundHalfEven x ↔ k - 1 / 2 ≤ x := by
  have hcell := halfEvenCell_round x
  unfold HalfEvenCell at hcell
  rw [abs_lt, abs_eq (by norm_num)] at hcell
  constructor
  · intro h
    have hcast : (k : ℚ) ≤ roundHalfEven x := by exact_mod_cast h
    rcases hcell with ⟨hlow, -⟩ | ⟨heq | heq, -⟩ <;> linarith
  · intro h
    by_contra hlt
    have hle : roundHalfEven x + 1 ≤ k := by omega
    have hcast : (roundHalfEven x : ℚ) + 1 ≤ k := by exact_mod_cast hle
    rcases hcell with ⟨-, hhigh⟩ | ⟨heq | heq, heven⟩
    · linarith
    · have hsucc : (roundHalfEven x : ℚ) + 1 = k := by linarith
      have hint : roundHalfEven x + 1 = k := by exact_mod_cast hsucc
      omega
    · linarith

lemma roundHalfEven_le_iff {k : ℤ} (hk : k % 2 = 0) (x : ℚ) : roundHalfEven x ≤ k ↔ x ≤ k + 1 / 2 := by
  have hcell := halfEvenCell_round x
  unfold HalfEvenCell at hcell
  rw [abs_lt, abs_eq (by norm_num)] at hcell
  constructor
  · intro h
    have hcast : (roundHalfEven x : ℚ) ≤ k := by exact_mod_cast h
    rcases hcell with ⟨-, hhigh⟩ | ⟨heq | heq, -⟩ <;> linarith
  · intro h
    by_contra hlt
    have hle : k + 1 ≤ roundHalfEven x := by omega
    have hcast : (k : ℚ) + 1 ≤ roundHalfEven x := by exact_mod_cast hle
    rcases hcell with ⟨hlow, -⟩ | ⟨heq | heq, heven⟩
    · linarith
    · linarith
    · have hsucc : (k : ℚ) + 1 = roundHalfEven x := by linarith
      have hint : k + 1 = roundHalfEven x := by exact_mod_cast hsucc
      omega

/-- The hundredths that are rounded to a unit. -/
lemma halfUpCell_hundredths (h n : ℤ) :
    HalfUpCell n (h / 100) ↔
      (n = 0 ∧ -50 < h ∧ h < 50) ∨ (0 < n ∧ 100 * n - 50 ≤ h ∧ h < 100 * n + 50) ∨
        (n < 0 ∧ 100 * n - 50 < h ∧ h ≤ 100 * n + 50) := by
  have hlow : -(1 / 2 : ℚ) < h / 100 - n ↔ 100 * n - 50 < h := by
    rw [← Int.cast_lt (R := ℚ)]
    push_cast
    constructor <;> intro <;> linarith
  have hhigh : (h : ℚ) / 100 - n < 1 / 2 ↔ h < 100 * n + 50 := by
    rw [← Int.cast_lt (R := ℚ)]
    push_cast
    constructor <;> intro <;> linarith
  have hup : (h : ℚ) / 100 - n = 1 / 2 ↔ h = 100 * n + 50 := by
    rw [← Int.cast_inj (α := ℚ)]
    push_cast
    constructor <;> intro <;> linarith
  have hdown : (h : ℚ) / 100 - n = -1 / 2 ↔ h = 100 * n - 50 := by
    rw [← Int.cast_inj (α := ℚ)]
    push_cast
    constructor <;> intro <;> linarith
  unfold HalfUpCell
  rw [abs_lt, hlow, hhigh, hup, hdown]
  omega

/-- Rounding to hundredths, half to even, and then to units, half away from zero. -/
theorem roundHalfUp_roundHalfEven_iff (z : ℚ) (n : ℤ) :
    roundHalfUp (roundHalfEven (z * 100) / 100) = n ↔ TwiceCell n z := by
  have hlow := le_roundHalfEven_iff (k := 100 * n - 50) (by omega) (z * 100)
  have hhigh := le_roundHalfEven_iff (k := 100 * n + 50) (by omega) (z * 100)
  have hlow' := roundHalfEven_le_iff (k := 100 * n - 50) (by omega) (z * 100)
  have hhigh' := roundHalfEven_le_iff (k := 100 * n + 50) (by omega) (z * 100)
  push_cast at hlow hhigh hlow' hhigh'
  rw [roundHalfUp_eq_iff, halfUpCell_hundredths]
  unfold TwiceCell
  generalize roundHalfEven (z * 100) = h at hlow hhigh hlow' hhigh'
  rw [abs_lt]
  apply or_congr
  · apply and_congr_right
    rintro rfl
    rw [← not_le, ← not_le]
    norm_num at hhigh hlow'
    rw [hlow', hhigh]
    constructor <;> rintro ⟨hneg, hpos⟩ <;> constructor <;> linarith
  · apply or_congr
    · apply and_congr_right
      intro _
      rw [← not_le, hlow, hhigh]
      constructor <;> rintro ⟨hneg, hpos⟩ <;> constructor <;> linarith
    · apply and_congr_right
      intro _
      rw [← not_le, hlow', hhigh']
      constructor <;> rintro ⟨hneg, hpos⟩ <;> constructor <;> linarith

end IpDocket.Lib
