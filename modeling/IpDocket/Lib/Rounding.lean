import Mathlib.Data.Rat.Floor
import Mathlib.Tactic.Linarith
import Mathlib.Tactic.Ring

/-!
# Rounding of exact amounts

The rounding rules of decimal arithmetic on rationals: towards zero, half away from zero
(`ROUND_HALF_UP`) and half to even. A rounded amount and a truncated one are the same integer
when the second amount stays in the unit interval that the first one is rounded to.
-/

namespace IpDocket.Lib

/-- `int` of an exact amount: towards zero. -/
def truncate (x : ℚ) : ℤ := if 0 ≤ x then ⌊x⌋ else -⌊-x⌋

/-- Half away from zero. -/
def roundHalfUp (x : ℚ) : ℤ := if 0 ≤ x then ⌊x + 1 / 2⌋ else -⌊-x + 1 / 2⌋

def roundHalfEven (x : ℚ) : ℤ :=
  let below := ⌊x⌋
  if x - below < 1 / 2 then below
  else if 1 / 2 < x - below then below + 1
  else if below % 2 = 0 then below
  else below + 1

/-- An amount with `scale` decimal places. -/
def quantize (round : ℚ → ℤ) (scale : Nat) (x : ℚ) : ℚ := round (x * 10 ^ scale) / 10 ^ scale

/-- `x` moved by `gap` lies in the unit interval that `x` is rounded to, half away from zero. -/
def StaysInUnit (x gap : ℚ) : Prop :=
  if 1 / 2 ≤ x then ⌊x + gap⌋ = ⌊x + 1 / 2⌋
  else if x ≤ -1 / 2 then ⌊-(x + gap)⌋ = ⌊-x + 1 / 2⌋
  else -1 < x + gap ∧ x + gap < 1

lemma truncate_neg (x : ℚ) : truncate (-x) = -truncate x := by
  unfold truncate
  rcases lt_trichotomy x 0 with hneg | rfl | hpos
  · rw [if_pos (by linarith), if_neg (by linarith), neg_neg]
  · simp
  · rw [if_neg (by linarith), if_pos (by linarith), neg_neg]

lemma truncate_intCast (k : ℤ) : truncate k = k := by
  unfold truncate
  split
  · exact Int.floor_intCast k
  · rw [← Int.cast_neg, Int.floor_intCast, neg_neg]

lemma roundHalfUp_intCast (k : ℤ) : roundHalfUp k = k := by
  have hhalf : ∀ l : ℤ, ⌊(l : ℚ) + 1 / 2⌋ = l := by
    intro l
    rw [Int.floor_intCast_add]
    norm_num
  unfold roundHalfUp
  split
  · exact hhalf k
  · rw [← Int.cast_neg, hhalf, neg_neg]

lemma roundHalfUp_nonneg {x : ℚ} (h : 0 ≤ x) : 0 ≤ roundHalfUp x := by
  rw [roundHalfUp, if_pos h]
  exact Int.floor_nonneg.mpr (by linarith)

lemma le_roundHalfUp {x : ℚ} {k : ℤ} (hk : 0 < k) (h : k - 1 / 2 ≤ x) : k ≤ roundHalfUp x := by
  have hone : (1 : ℚ) ≤ k := by exact_mod_cast hk
  rw [roundHalfUp, if_pos (by linarith)]
  exact Int.le_floor.mpr (by linarith)

lemma le_roundHalfEven {x : ℚ} {k : ℤ} (h : k ≤ x) : k ≤ roundHalfEven x := by
  have hfloor : k ≤ ⌊x⌋ := Int.le_floor.mpr h
  unfold roundHalfEven
  dsimp only
  split_ifs <;> omega

lemma roundHalfEven_intCast (k : ℤ) : roundHalfEven k = k := by
  unfold roundHalfEven
  simp

/-- A truncated amount is a positive integer when the amount has it as its floor. -/
lemma truncate_eq_of_pos {x : ℚ} {k : ℤ} (hk : 0 < k) : truncate x = k ↔ ⌊x⌋ = k := by
  unfold truncate
  split
  · rfl
  · next hneg =>
    constructor
    · intro h
      have hfloor : 0 ≤ ⌊-x⌋ := Int.floor_nonneg.mpr (by linarith)
      omega
    · intro h
      have hfloor : ⌊x⌋ < 0 := Int.floor_lt_zero.mpr (by linarith)
      omega

lemma truncate_eq_zero {x : ℚ} : truncate x = 0 ↔ -1 < x ∧ x < 1 := by
  unfold truncate
  split
  · next hpos =>
    rw [Int.floor_eq_zero_iff]
    constructor
    · rintro ⟨-, hlt⟩
      exact ⟨by linarith, hlt⟩
    · rintro ⟨-, hlt⟩
      exact ⟨hpos, hlt⟩
  · next hneg =>
    rw [neg_eq_zero, Int.floor_eq_zero_iff]
    constructor
    · rintro ⟨-, hlt⟩
      exact ⟨by linarith, by linarith⟩
    · rintro ⟨hlt, -⟩
      exact ⟨by linarith, by linarith⟩

/-- Truncating the moved amount gives what rounding the amount gives. -/
theorem truncate_eq_roundHalfUp_iff (x gap : ℚ) :
    truncate (x + gap) = roundHalfUp x ↔ StaysInUnit x gap := by
  unfold StaysInUnit
  by_cases hhigh : 1 / 2 ≤ x
  · have hround : roundHalfUp x = ⌊x + 1 / 2⌋ := if_pos (by linarith)
    have hpos : 0 < ⌊x + 1 / 2⌋ := Int.floor_pos.mpr (by linarith)
    rw [if_pos hhigh, hround, truncate_eq_of_pos hpos]
  · rw [if_neg hhigh]
    by_cases hlow : x ≤ -1 / 2
    · have hround : roundHalfUp x = -⌊-x + 1 / 2⌋ := if_neg (by linarith)
      have hpos : 0 < ⌊-x + 1 / 2⌋ := Int.floor_pos.mpr (by linarith)
      rw [if_pos hlow, hround, ← neg_neg (x + gap), truncate_neg, neg_inj,
        truncate_eq_of_pos hpos, neg_neg]
    · have hround : roundHalfUp x = 0 := by
        unfold roundHalfUp
        split
        · exact Int.floor_eq_zero_iff.mpr ⟨by linarith, by linarith⟩
        · rw [neg_eq_zero]
          exact Int.floor_eq_zero_iff.mpr ⟨by linarith, by linarith⟩
      rw [if_neg hlow, hround, truncate_eq_zero]

/-- Nothing is left to round. -/
def IsWhole (x : ℚ) : Prop := ∃ n : ℤ, x = n

instance (x : ℚ) : Decidable (IsWhole x) :=
  decidable_of_iff (x.den = 1)
    ⟨fun h => ⟨x.num, (Rat.coe_int_num_of_den_eq_one h).symm⟩, fun ⟨n, h⟩ => by rw [h, Rat.den_intCast]⟩

/-- At most two decimal places. -/
def TwoDecimals (x : ℚ) : Prop := IsWhole (x * 100)

instance (x : ℚ) : Decidable (TwoDecimals x) := inferInstanceAs (Decidable (IsWhole (x * 100)))

lemma IsWhole.mul {x y : ℚ} (hx : IsWhole x) (hy : IsWhole y) : IsWhole (x * y) := by
  obtain ⟨m, rfl⟩ := hx
  obtain ⟨n, rfl⟩ := hy
  exact ⟨m * n, by push_cast; rfl⟩

lemma IsWhole.add {x y : ℚ} (hx : IsWhole x) (hy : IsWhole y) : IsWhole (x + y) := by
  obtain ⟨m, rfl⟩ := hx
  obtain ⟨n, rfl⟩ := hy
  exact ⟨m + n, by push_cast; rfl⟩

lemma isWhole_natCast (n : ℕ) : IsWhole n := ⟨n, by simp⟩

end IpDocket.Lib
