import Mathlib

/-!
# Merging ranges of numbers

Ranges with gaps between them are determined by the numbers that they cover. Merging ranges that are
sorted by their first number gives such a list, and a search by bisection finds the range of a number.
-/

namespace IpDocket.Lib

/-- The numbers from the first to the last. -/
structure Range where
  first : ℕ
  last : ℕ
  first_le : first ≤ last

namespace Range

variable {r q : Range} {rs qs : List Range} {x : ℕ}

lemma eq_of (hfirst : r.first = q.first) (hlast : r.last = q.last) : r = q := by
  obtain ⟨first, last, h⟩ := r
  obtain ⟨first', last', h'⟩ := q
  obtain rfl : first = first' := hfirst
  obtain rfl : last = last' := hlast
  rfl

def Covers (rs : List Range) (x : ℕ) : Prop := ∃ r ∈ rs, r.first ≤ x ∧ x ≤ r.last

/-- There is a gap after each range. -/
def Separated (rs : List Range) : Prop := rs.Pairwise (fun r q => r.last + 1 < q.first)

@[simp] lemma not_covers_nil : ¬Covers [] x := by simp [Covers]

lemma covers_cons : Covers (r :: rs) x ↔ (r.first ≤ x ∧ x ≤ r.last) ∨ Covers rs x := by
  simp [Covers]

lemma covers_first : Covers (r :: rs) r.first := covers_cons.mpr (.inl ⟨le_rfl, r.first_le⟩)

lemma first_le_of_covers (h : Separated (r :: rs)) (hx : Covers (r :: rs) x) : r.first ≤ x := by
  rcases covers_cons.mp hx with ⟨hle, _⟩ | ⟨q, hq, hle, _⟩
  · exact hle
  · have hgap := (List.pairwise_cons.mp h).1 q hq
    have hr := r.first_le
    omega

lemma lt_of_covers_tail (h : Separated (r :: rs)) (hx : Covers rs x) : r.last + 1 < x := by
  obtain ⟨q, hq, hle, _⟩ := hx
  have hgap := (List.pairwise_cons.mp h).1 q hq
  omega

/-- The first range ends where the covered numbers have their first gap. -/
lemma last_le_of_covers (h : Separated (r :: rs)) (hfirst : r.first = q.first)
    (hsame : ∀ x, Covers (r :: rs) x ↔ Covers (q :: qs) x) : q.last ≤ r.last := by
  by_contra hlt
  have hq := q.first_le
  have hr := r.first_le
  have hcovered : Covers (r :: rs) (r.last + 1) :=
    (hsame _).mpr (covers_cons.mpr (.inl ⟨by omega, by omega⟩))
  rcases covers_cons.mp hcovered with ⟨_, hle⟩ | htail
  · omega
  · have := lt_of_covers_tail h htail
    omega

/-- Ranges with gaps between them are determined by what they cover. -/
theorem eq_of_covers (h : Separated rs) (h' : Separated qs) (hsame : ∀ x, Covers rs x ↔ Covers qs x) :
    rs = qs := by
  induction rs generalizing qs with
  | nil =>
    cases qs with
    | nil => rfl
    | cons q qs => exact absurd ((hsame q.first).mpr covers_first) not_covers_nil
  | cons r rs ih =>
    cases qs with
    | nil => exact absurd ((hsame r.first).mp covers_first) not_covers_nil
    | cons q qs =>
      have hfirst : r.first = q.first := by
        apply Nat.le_antisymm
        · exact first_le_of_covers h ((hsame q.first).mpr covers_first)
        · exact first_le_of_covers h' ((hsame r.first).mp covers_first)
      have hlast : r.last = q.last := by
        apply Nat.le_antisymm
        · exact last_le_of_covers h' hfirst.symm (fun x => (hsame x).symm)
        · exact last_le_of_covers h hfirst hsame
      have htail : ∀ x, Covers rs x ↔ Covers qs x := by
        intro x
        constructor
        · intro hx
          have hgap := lt_of_covers_tail h hx
          rcases covers_cons.mp ((hsame x).mp (covers_cons.mpr (.inr hx))) with ⟨_, hle⟩ | hx'
          · omega
          · exact hx'
        · intro hx
          have hgap := lt_of_covers_tail h' hx
          rcases covers_cons.mp ((hsame x).mpr (covers_cons.mpr (.inr hx))) with ⟨_, hle⟩ | hx'
          · omega
          · exact hx'
      rw [eq_of hfirst hlast, ih (List.pairwise_cons.mp h).2 (List.pairwise_cons.mp h').2 htail]

lemma first_le_max (r q : Range) : r.first ≤ max r.last q.last := le_trans r.first_le (le_max_left _ _)

/-- The range with what a later one adds to it. -/
def extend (r q : Range) : Range := ⟨r.first, max r.last q.last, first_le_max r q⟩

/-- One step over ranges that come in the order of their first numbers; the last one merged stands first. -/
def mergeStep : List Range → Range → List Range
  | [], r => [r]
  | top :: rest, r => if top.last + 1 < r.first then r :: top :: rest else extend top r :: rest

lemma mergeStep_cons (top : Range) (rest : List Range) (r : Range) : mergeStep (top :: rest) r =
    if top.last + 1 < r.first then r :: top :: rest else extend top r :: rest := rfl

/-- What merging keeps, from the top down. -/
def Stacked (rs : List Range) : Prop := rs.Pairwise (fun r q => q.last + 1 < r.first)

lemma stacked_mergeStep (h : Stacked rs) : Stacked (mergeStep rs r) := by
  cases rs with
  | nil => exact List.pairwise_singleton _ _
  | cons top rest =>
    obtain ⟨htop, hrest⟩ := List.pairwise_cons.mp h
    rw [mergeStep_cons]
    split
    · next hgap =>
      refine List.pairwise_cons.mpr ⟨?_, h⟩
      intro q hq
      rcases List.mem_cons.mp hq with rfl | hq
      · exact hgap
      · have hbelow := htop q hq
        have hfirst := top.first_le
        omega
    · exact List.pairwise_cons.mpr ⟨fun q hq => htop q hq, hrest⟩

lemma covers_mergeStep (horder : ∀ top ∈ rs.head?, top.first ≤ r.first) :
    Covers (mergeStep rs r) x ↔ Covers rs x ∨ r.first ≤ x ∧ x ≤ r.last := by
  cases rs with
  | nil => simp [mergeStep, Covers]
  | cons top rest =>
    have hfirst := horder top rfl
    rw [mergeStep_cons]
    split
    · rw [covers_cons]
      exact or_comm
    · next hgap =>
      have hle : top.first ≤ x ∧ x ≤ max top.last r.last ↔
          (top.first ≤ x ∧ x ≤ top.last) ∨ r.first ≤ x ∧ x ≤ r.last := by
        omega
      rw [covers_cons, covers_cons, extend, hle]
      exact or_right_comm

lemma head_mergeStep (horder : ∀ top ∈ rs.head?, top.first ≤ r.first) :
    ∀ top ∈ (mergeStep rs r).head?, top.first ≤ r.first := by
  cases rs with
  | nil =>
    rintro top ⟨⟩
    exact le_rfl
  | cons below rest =>
    rw [mergeStep_cons]
    split
    · rintro top ⟨⟩
      exact le_rfl
    · rintro top ⟨⟩
      exact horder below rfl

lemma foldl_mergeStep {todo : List Range} (hsorted : todo.Pairwise (fun r q => r.first ≤ q.first))
    (h : Stacked rs) (horder : ∀ top ∈ rs.head?, ∀ q ∈ todo, top.first ≤ q.first) :
    Stacked (todo.foldl mergeStep rs) ∧
      ∀ x, Covers (todo.foldl mergeStep rs) x ↔ Covers rs x ∨ Covers todo x := by
  induction todo generalizing rs with
  | nil => exact ⟨h, by simp⟩
  | cons r todo ih =>
    obtain ⟨hr, htodo⟩ := List.pairwise_cons.mp hsorted
    have hnow : ∀ top ∈ rs.head?, top.first ≤ r.first := fun top ht => horder top ht r List.mem_cons_self
    obtain ⟨hstacked, hcovers⟩ := ih htodo (stacked_mergeStep (r := r) h)
      (fun top ht q hq => (head_mergeStep hnow top ht).trans (hr q hq))
    refine ⟨hstacked, fun x => ?_⟩
    rw [List.foldl_cons, hcovers, covers_mergeStep hnow, covers_cons, or_assoc]

/-- Merged ranges have gaps between them and cover what they have been merged from. -/
theorem merged_spec {todo : List Range} (hsorted : todo.Pairwise (fun r q => r.first ≤ q.first)) :
    Separated (todo.foldl mergeStep []).reverse ∧
      ∀ x, Covers (todo.foldl mergeStep []).reverse x ↔ Covers todo x := by
  obtain ⟨hstacked, hcovers⟩ := @foldl_mergeStep [] todo hsorted .nil (by simp)
  refine ⟨List.pairwise_reverse.mpr hstacked, fun x => ?_⟩
  have hreverse : Covers (todo.foldl mergeStep []).reverse x ↔ Covers (todo.foldl mergeStep []) x := by
    simp [Covers]
  rw [hreverse, hcovers]
  simp

end Range

/-- The loop of a bisection to the right of `x`, over at most so many steps. -/
def bisectLoop (a : List ℕ) (x : ℕ) : ℕ → ℕ → ℕ → ℕ
  | 0, lo, _ => lo
  | n + 1, lo, hi =>
    if lo < hi then
      if x < a.getD ((lo + hi) / 2) 0 then bisectLoop a x n lo ((lo + hi) / 2)
      else bisectLoop a x n ((lo + hi) / 2 + 1) hi
    else lo

/-- The place after the numbers that are not larger than `x`. -/
def bisectRight (a : List ℕ) (x : ℕ) : ℕ := bisectLoop a x a.length 0 a.length

lemma bisectLoop_spec {a : List ℕ} {x n lo hi : ℕ} (hsorted : ∀ i j, i ≤ j → j < a.length → a.getD i 0 ≤ a.getD j 0)
    (hn : hi - lo ≤ n) (hle : lo ≤ hi) (hhi : hi ≤ a.length) (hlow : ∀ i < lo, a.getD i 0 ≤ x)
    (hhigh : ∀ i, hi ≤ i → i < a.length → x < a.getD i 0) :
    bisectLoop a x n lo hi ≤ a.length ∧ (∀ i < bisectLoop a x n lo hi, a.getD i 0 ≤ x) ∧
      ∀ i, bisectLoop a x n lo hi ≤ i → i < a.length → x < a.getD i 0 := by
  induction n generalizing lo hi with
  | zero =>
    obtain rfl : lo = hi := by omega
    exact ⟨hhi, hlow, hhigh⟩
  | succ n ih =>
    unfold bisectLoop
    by_cases hlt : lo < hi
    · rw [if_pos hlt]
      have hmid : lo ≤ (lo + hi) / 2 ∧ (lo + hi) / 2 < hi := by omega
      by_cases hx : x < a.getD ((lo + hi) / 2) 0
      · rw [if_pos hx]
        apply ih (by omega) (by omega) (by omega) hlow
        intro i hi' hlen
        exact lt_of_lt_of_le hx (hsorted _ i hi' hlen)
      · rw [if_neg hx]
        apply ih (by omega) (by omega) hhi _ hhigh
        intro i hi'
        exact le_trans (hsorted i _ (by omega) (by omega)) (Nat.le_of_not_lt hx)
    · rw [if_neg hlt]
      obtain rfl : lo = hi := by omega
      exact ⟨hhi, hlow, hhigh⟩

/-- Everything before the place is not larger, everything after it is. -/
theorem bisectRight_spec {a : List ℕ} {x : ℕ} (hsorted : a.Pairwise (· ≤ ·)) :
    bisectRight a x ≤ a.length ∧ (∀ i < bisectRight a x, a.getD i 0 ≤ x) ∧
      ∀ i, bisectRight a x ≤ i → i < a.length → x < a.getD i 0 := by
  apply bisectLoop_spec
  · intro i j hij hj
    rw [List.getD_eq_getElem a 0 hj, List.getD_eq_getElem a 0 (by omega)]
    rcases Nat.lt_or_eq_of_le hij with hlt | rfl
    · exact List.pairwise_iff_getElem.mp hsorted i j (by omega) hj hlt
    · exact le_rfl
  · omega
  · omega
  · exact le_rfl
  · intro i hi
    omega
  · intro i hi hlen
    omega

namespace Range

variable {rs : List Range} {x : ℕ}

lemma sorted_of_separated (h : Separated rs) : (rs.map first).Pairwise (· ≤ ·) := by
  rw [List.pairwise_map]
  apply h.imp
  intro r q hgap
  have hr := r.first_le
  omega

lemma bisectRight_le (h : Separated rs) : bisectRight (rs.map first) x ≤ rs.length := by
  simpa using (@bisectRight_spec _ x (sorted_of_separated h)).1

/-- The ranges before the place are the ones that start in time. -/
lemma lt_bisectRight_iff (h : Separated rs) {i : ℕ} (hi : i < rs.length) :
    i < bisectRight (rs.map first) x ↔ rs[i].first ≤ x := by
  obtain ⟨-, hlow, hhigh⟩ := @bisectRight_spec _ x (sorted_of_separated h)
  have hfirst : (rs.map first).getD i 0 = rs[i].first := by
    rw [List.getD_eq_getElem _ _ (by simpa using hi), List.getElem_map]
  constructor
  · intro hlt
    rw [← hfirst]
    exact hlow i hlt
  · intro hstart
    by_contra hge
    have hlt := hhigh i (by omega) (by simpa using hi)
    omega

/-- The only range that can cover a number is the last one that starts in time. -/
theorem covers_iff_bisectRight (h : Separated rs) : Covers rs x ↔ 0 < bisectRight (rs.map first) x ∧
    x ≤ (rs.map last).getD (bisectRight (rs.map first) x - 1) 0 := by
  have hle := @bisectRight_le rs x h
  have hlast : ∀ i (hi : i < rs.length), (rs.map last).getD i 0 = rs[i].last := by
    intro i hi
    rw [List.getD_eq_getElem _ _ (by simpa using hi), List.getElem_map]
  constructor
  · rintro ⟨r, hr, hstart, hend⟩
    obtain ⟨i, hi, rfl⟩ := List.mem_iff_getElem.mp hr
    have hbefore := (lt_bisectRight_iff h hi).mpr hstart
    have hk : bisectRight (rs.map first) x - 1 < rs.length := by omega
    refine ⟨by omega, ?_⟩
    rw [hlast _ hk]
    rcases Nat.lt_or_eq_of_le (Nat.le_sub_one_of_lt hbefore) with hlt | heq
    · -- an earlier range ends before the last one that starts in time
      have hgap := List.pairwise_iff_getElem.mp h i _ hi hk hlt
      have hafter := (@lt_bisectRight_iff rs x h _ hk).mp (by omega)
      omega
    · subst heq
      exact hend
  · rintro ⟨hpos, hend⟩
    have hk : bisectRight (rs.map first) x - 1 < rs.length := by omega
    rw [hlast _ hk] at hend
    exact ⟨_, List.getElem_mem hk, (lt_bisectRight_iff h hk).mp (by omega), hend⟩

end Range

end IpDocket.Lib
