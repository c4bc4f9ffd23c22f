import Mathlib.Algebra.BigOperators.Group.List.Basic
import Mathlib.Algebra.Order.BigOperators.Group.List
import Mathlib.Algebra.Order.Ring.Rat
import Mathlib.Tactic.Linarith
import Mathlib.Tactic.Ring
import IpDocket.Lib.Keyed

/-!
# Sums over the rows of tables

A sum over rows is split along a foreign key: the rows that refer to one row of another table
are summed first. Rows with small values may be left out of a sum, at a price for each of them.
-/

namespace IpDocket.Lib

variable {ρ ι κ M : Type*} [DecidableEq κ] {key : ρ → κ}

lemma sum_ite_key_eq [AddCommMonoid M] {rows : List ρ}
    (hrows : rows.Pairwise (fun r q => key r ≠ key q)) {k : κ} {r : ρ} (hr : r ∈ rows)
    (hk : key r = k) (x : M) : (rows.map (fun q => if k = key q then x else 0)).sum = x := by
  induction rows with
  | nil => cases hr
  | cons q rows ih =>
    obtain ⟨hq, hrest⟩ := List.pairwise_cons.mp hrows
    rw [List.map_cons, List.sum_cons]
    by_cases hqr : r = q
    · subst hqr
      have hzero : ∀ y ∈ rows.map (fun q => if k = key q then x else 0), y = 0 := by
        intro y hy
        obtain ⟨p, hp, rfl⟩ := List.mem_map.mp hy
        rw [if_neg (hk ▸ hq p hp)]
      rw [if_pos hk.symm, List.sum_eq_zero hzero, add_zero]
    · have hmem : r ∈ rows := (List.mem_cons.mp hr).resolve_left hqr
      have hne : k ≠ key q := hk ▸ (hq r hmem).symm
      rw [if_neg hne, zero_add, ih hrest hmem]

/-- A sum over items, each of which refers to one of the rows, grouped by the row. -/
lemma sum_map_eq_sum_groups [AddCommMonoid M] {rows : List ρ} {ref : ι → κ}
    (hrows : rows.Pairwise (fun r q => key r ≠ key q)) (f : ι → M) {items : List ι}
    (href : ∀ i ∈ items, ∃ r ∈ rows, key r = ref i) :
    (items.map f).sum =
      (rows.map (fun r => ((items.filter (fun i => ref i = key r)).map f).sum)).sum := by
  induction items with
  | nil => simp
  | cons i items ih =>
    obtain ⟨r, hr, hk⟩ := href i List.mem_cons_self
    have htail := ih (fun j hj => href j (List.mem_cons_of_mem _ hj))
    have hgroup : ∀ q, (((i :: items).filter (fun j => ref j = key q)).map f).sum =
        (if ref i = key q then f i else 0) +
          ((items.filter (fun j => ref j = key q)).map f).sum := by
      intro q
      by_cases hq : ref i = key q
      · rw [List.filter_cons_of_pos (by simpa using hq), List.map_cons, List.sum_cons, if_pos hq]
      · rw [List.filter_cons_of_neg (by simpa using hq), if_neg hq, zero_add]
    simp only [hgroup]
    rw [List.sum_map_add, sum_ite_key_eq hrows hr hk, ← htail, List.map_cons, List.sum_cons]

/-- Rows whose value is zero may be left out. -/
lemma sum_map_filter_of_zero [AddCommMonoid M] {p : ι → Bool} {f : ι → M} {items : List ι}
    (h : ∀ i ∈ items, p i = false → f i = 0) :
    ((items.filter p).map f).sum = (items.map f).sum := by
  induction items with
  | nil => rfl
  | cons i items ih =>
    have htail := ih (fun j hj => h j (List.mem_cons_of_mem _ hj))
    cases hp : p i with
    | true => rw [List.filter_cons_of_pos hp, List.map_cons, List.map_cons, List.sum_cons,
        List.sum_cons, htail]
    | false =>
      rw [List.filter_cons_of_neg (by simp [hp]), List.map_cons, List.sum_cons,
        h i List.mem_cons_self hp, zero_add, htail]

lemma abs_sum_le_of_forall {xs : List ℚ} {c : ℚ} (h : ∀ x ∈ xs, |x| ≤ c) :
    |xs.sum| ≤ xs.length * c := by
  induction xs with
  | nil => simp
  | cons x xs ih =>
    have hx := h x List.mem_cons_self
    have htail := ih (fun y hy => h y (List.mem_cons_of_mem _ hy))
    have habs := abs_add_le x xs.sum
    rw [List.sum_cons, List.length_cons]
    push_cast
    linarith

/-- Leaving out items whose value is at most `c` changes a sum by at most `c` for each. -/
lemma abs_sum_filter_sub_sum_le {p : ι → Bool} {f : ι → ℚ} {c : ℚ} {items : List ι}
    (h : ∀ i ∈ items, p i = false → |f i| ≤ c) :
    |((items.filter p).map f).sum - (items.map f).sum| ≤
      (items.length - (items.filter p).length) * c := by
  induction items with
  | nil => simp
  | cons i items ih =>
    have htail := ih (fun j hj => h j (List.mem_cons_of_mem _ hj))
    rw [abs_le] at htail ⊢
    cases hp : p i with
    | true =>
      rw [List.filter_cons_of_pos hp, List.map_cons, List.map_cons, List.sum_cons, List.sum_cons,
        List.length_cons, List.length_cons]
      push_cast
      constructor <;> linarith [htail.1, htail.2]
    | false =>
      have hi := abs_le.mp (h i List.mem_cons_self hp)
      rw [List.filter_cons_of_neg (by simp [hp]), List.map_cons, List.sum_cons, List.length_cons]
      push_cast
      constructor <;> linarith [htail.1, htail.2, hi.1, hi.2]

end IpDocket.Lib
