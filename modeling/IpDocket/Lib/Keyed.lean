import Mathlib.Algebra.Ring.Int.Defs
import Mathlib.Logic.Function.Basic
import Mathlib.Tactic.Common

/-!
# Tables with a natural primary key

Lookup by key in a list of rows with different keys, and the table whose key comes from
the caller: `INSERT ... ON CONFLICT (key) DO UPDATE` is `upsert`, a `DELETE` keeps the rows
that its `WHERE` clause does not select.
-/

namespace IpDocket.Lib

variable {ρ κ : Type*} [DecidableEq κ] {key : ρ → κ}

/-- Apply `f` to the rows a `WHERE` clause selects. -/
def onRows (p : ρ → Bool) (f : ρ → ρ) (r : ρ) : ρ := if p r then f r else r

omit [DecidableEq κ] in
lemma key_onRows {p : ρ → Bool} {f : ρ → ρ} (hf : ∀ r, key (f r) = key r) (r : ρ) :
    key (onRows p f r) = key r := by
  unfold onRows
  split
  · exact hf r
  · rfl

def findKey (key : ρ → κ) (k : κ) (rows : List ρ) : Option ρ := rows.find? (fun r => key r = k)

variable {rows : List ρ} {k : κ} {r q : ρ} {f : ρ → ρ}

omit [DecidableEq κ] in
lemma eq_of_key_eq_of_pairwise (hrows : rows.Pairwise (fun r q => key r ≠ key q)) (hr : r ∈ rows)
    (hq : q ∈ rows) (h : key r = key q) : r = q := by
  by_contra hne
  obtain ⟨i, hi, rfl⟩ := List.mem_iff_getElem.mp hr
  obtain ⟨j, hj, rfl⟩ := List.mem_iff_getElem.mp hq
  rw [List.pairwise_iff_getElem] at hrows
  rcases Nat.lt_trichotomy i j with hij | rfl | hij
  · exact hrows i j hi hj hij h
  · exact hne rfl
  · exact hrows j i hj hi hij h.symm

lemma findKey_mem (h : findKey key k rows = some r) : r ∈ rows ∧ key r = k :=
  ⟨List.mem_of_find?_eq_some h, by simpa using List.find?_some h⟩

lemma findKey_eq_some (hrows : rows.Pairwise (fun r q => key r ≠ key q)) :
    findKey key k rows = some r ↔ r ∈ rows ∧ key r = k := by
  constructor
  · exact findKey_mem
  · rintro ⟨hr, hk⟩
    cases h : findKey key k rows with
    | none =>
      have := List.find?_eq_none.mp h r hr
      simp [hk] at this
    | some q =>
      have hq := findKey_mem h
      rw [eq_of_key_eq_of_pairwise hrows hr hq.1 (hk.trans hq.2.symm)]

lemma findKey_map (hf : ∀ r, key (f r) = key r) :
    findKey key k (rows.map f) = (findKey key k rows).map f := by
  unfold findKey
  rw [List.find?_map]
  congr 2
  funext r
  simp [hf]

/-- Leaving out the row with the key of `r`. -/
lemma sum_filter_key_ne {f : ρ → Int} (hrows : rows.Pairwise (fun r q => key r ≠ key q))
    (hr : r ∈ rows) :
    ((rows.filter (fun q => key q ≠ key r)).map f).sum = (rows.map f).sum - f r := by
  induction rows with
  | nil => cases hr
  | cons q rows ih =>
    obtain ⟨hq, hrest⟩ := List.pairwise_cons.mp hrows
    rw [List.map_cons, List.sum_cons]
    by_cases hqr : r = q
    · subst hqr
      have hall : rows.filter (fun q => key q ≠ key r) = rows :=
        List.filter_eq_self.mpr (fun p hp => decide_eq_true (Ne.symm (hq p hp)))
      rw [List.filter_cons_of_neg (by simp), hall]
      omega
    · have hmem : r ∈ rows := (List.mem_cons.mp hr).resolve_left hqr
      rw [List.filter_cons_of_pos (by simpa using hq r hmem), List.map_cons, List.sum_cons,
        ih hrest hmem]
      omega

structure Keyed (key : ρ → κ) where
  rows : List ρ
  unique : rows.Pairwise (fun r q => key r ≠ key q)

namespace Keyed

def empty (key : ρ → κ) : Keyed key := ⟨[], .nil⟩

def find (t : Keyed key) (k : κ) : Option ρ := findKey key k t.rows

/-- An `UPDATE` that leaves the key alone. -/
def update (t : Keyed key) (f : ρ → ρ) (hf : ∀ r, key (f r) = key r) : Keyed key where
  rows := t.rows.map f
  unique := by
    rw [List.pairwise_map]
    simpa only [hf] using t.unique

/-- `DELETE ... WHERE p`. -/
def delete (t : Keyed key) (p : ρ → Bool) : Keyed key where
  rows := t.rows.filter (fun r => !p r)
  unique := t.unique.filter _

/-- Insert the row `make`, or change the row with its key. -/
def upsert (t : Keyed key) (make : ρ) (change : ρ → ρ) (hf : ∀ r, key (change r) = key r) :
    Keyed key :=
  if h : (t.find (key make)).isSome then
    t.update (onRows (fun r => key r = key make) change) (key_onRows hf)
  else
    { rows := t.rows ++ [make]
      unique := by
        rw [List.pairwise_append]
        refine ⟨t.unique, List.pairwise_singleton _ _, ?_⟩
        intro r hr q hq hkey
        rw [List.mem_singleton.mp hq] at hkey
        have hfind : findKey key (key make) t.rows = some r :=
          (findKey_eq_some t.unique).mpr ⟨hr, hkey⟩
        simp [find, hfind] at h }

variable {t : Keyed key}

lemma find_eq_some : t.find k = some r ↔ r ∈ t.rows ∧ key r = k := findKey_eq_some t.unique

lemma mem_of_find (h : t.find k = some r) : r ∈ t.rows := (find_eq_some.mp h).1

lemma key_of_find (h : t.find k = some r) : key r = k := (find_eq_some.mp h).2

lemma find_of_mem (h : r ∈ t.rows) : t.find (key r) = some r := find_eq_some.mpr ⟨h, rfl⟩

@[simp] lemma find_update (hf : ∀ r, key (f r) = key r) :
    (t.update f hf).find k = (t.find k).map f :=
  findKey_map hf

/-- The row under `k` after an update of the rows that satisfy `p`. -/
lemma find_update_onRows {p : ρ → Bool} (hf : ∀ r, key (f r) = key r) :
    (t.update (onRows p f) (key_onRows hf)).find k =
      (t.find k).map (fun r => if p r then f r else r) :=
  find_update _

lemma find_delete {p : ρ → Bool} :
    (t.delete p).find k = (t.find k).filter (fun r => !p r) := by
  cases h : t.find k with
  | none =>
    apply List.find?_eq_none.mpr
    intro r hr
    exact List.find?_eq_none.mp h r (List.mem_filter.mp hr).1
  | some r =>
    obtain ⟨hr, hk⟩ := find_eq_some.mp h
    rw [Option.filter_some]
    by_cases hp : p r
    · simp only [hp, Bool.not_true, Bool.false_eq_true, if_false]
      apply List.find?_eq_none.mpr
      intro q hq
      obtain ⟨hmem, hnot⟩ := List.mem_filter.mp hq
      simp only [decide_eq_true_eq]
      intro hqk
      rw [eq_of_key_eq_of_pairwise t.unique hmem hr (hqk.trans hk.symm), hp] at hnot
      cases hnot
    · simp only [hp, Bool.not_false, if_true]
      exact find_eq_some.mpr ⟨List.mem_filter.mpr ⟨hr, by simp [hp]⟩, hk⟩

lemma find_upsert (make : ρ) (change : ρ → ρ) (hf : ∀ r, key (change r) = key r) :
    (t.upsert make change hf).find k =
      if k = key make then some ((t.find k).elim make change) else t.find k := by
  unfold upsert
  split
  · next h =>
    obtain ⟨q, hq⟩ := Option.isSome_iff_exists.mp h
    rw [find_update_onRows hf]
    by_cases hk : k = key make
    · subst hk
      simp [hq, key_of_find hq]
    · rw [if_neg hk]
      cases hr : t.find k with
      | none => rfl
      | some r =>
        have hne : key r ≠ key make := by
          rw [key_of_find hr]
          exact hk
        simp [hne]
  · next h =>
    have hnone : t.find (key make) = none := by simpa using h
    change findKey key k (t.rows ++ [make]) = _
    unfold findKey
    rw [List.find?_append, List.find?_singleton]
    change (t.find k).or _ = _
    by_cases hk : k = key make
    · subst hk
      simp [hnone]
    · have hne : key make ≠ k := Ne.symm hk
      simp [hk, hne]

lemma isSome_find_upsert {make : ρ} {change : ρ → ρ} (hf : ∀ r, key (change r) = key r)
    (h : k = key make ∨ (t.find k).isSome) : ((t.upsert make change hf).find k).isSome := by
  rw [find_upsert]
  by_cases hk : k = key make
  · rw [if_pos hk]
    rfl
  · rw [if_neg hk]
    exact h.resolve_left hk

lemma unique_concat (t : Keyed key) (make : ρ) (h : t.find (key make) = none) :
    (t.rows ++ [make]).Pairwise (fun r q => key r ≠ key q) := by
  rw [List.pairwise_append]
  refine ⟨t.unique, List.pairwise_singleton _ _, ?_⟩
  intro r hr q hq hkey
  rw [List.mem_singleton.mp hq] at hkey
  rw [find_eq_some.mpr ⟨hr, hkey⟩] at h
  cases h

/-- An `INSERT` fails if there is a row with the key. -/
def insertNew (t : Keyed key) (make : ρ) : Option (Keyed key) :=
  if h : t.find (key make) = none then some ⟨t.rows ++ [make], unique_concat t make h⟩ else none

lemma insertNew_eq_some {u : Keyed key} {make : ρ} (h : t.insertNew make = some u) :
    t.find (key make) = none ∧ u.rows = t.rows ++ [make] := by
  unfold insertNew at h
  split at h
  · next hnone =>
    cases h
    exact ⟨hnone, rfl⟩
  · cases h

omit [DecidableEq κ] in
lemma eq_of_key {q : ρ} (hr : r ∈ t.rows) (hq : q ∈ t.rows) (h : key r = key q) : r = q :=
  eq_of_key_eq_of_pairwise t.unique hr hq h

/-- The rows after an `UPDATE` of one of them. -/
lemma mem_update_row {q : ρ} (hf : ∀ r, key (f r) = key r) (hr : r ∈ t.rows) :
    q ∈ (t.update (onRows (fun p => key p = key r) f) (key_onRows hf)).rows ↔
      q = f r ∨ q ∈ t.rows ∧ q ≠ r := by
  unfold update
  rw [List.mem_map]
  constructor
  · rintro ⟨p, hp, rfl⟩
    unfold onRows
    by_cases hkey : key p = key r
    · obtain rfl := eq_of_key hp hr hkey
      simp
    · rw [if_neg (by simpa using hkey)]
      exact .inr ⟨hp, fun h => hkey (congrArg key h)⟩
  · rintro (rfl | ⟨hq, hne⟩)
    · exact ⟨r, hr, by simp [onRows]⟩
    · exact ⟨q, hq, if_neg (by simpa using fun h => hne (eq_of_key hq hr h))⟩

/-- The rows after a `DELETE` of one of them. -/
lemma mem_delete_row {q : ρ} (hr : r ∈ t.rows) :
    q ∈ (t.delete (fun p => key p = key r)).rows ↔ q ∈ t.rows ∧ q ≠ r := by
  unfold delete
  rw [List.mem_filter]
  simp only [Bool.not_eq_true', decide_eq_false_iff_not, and_congr_right_iff]
  exact fun hq => not_congr ⟨eq_of_key hq hr, congrArg key⟩

end Keyed

/-- The row is added unless one of its key is there. -/
def keepFirst (key : ρ → κ) (kept : List ρ) (r : ρ) : List ρ :=
  if kept.any (fun q => key q = key r) then kept else kept ++ [r]

lemma subset_foldl_keepFirst (kept : List ρ) : kept ⊆ rows.foldl (keepFirst key) kept := by
  induction rows generalizing kept with
  | nil => exact List.Subset.refl _
  | cons r rows ih =>
    rw [List.foldl_cons]
    apply List.Subset.trans _ (ih (keepFirst key kept r))
    unfold keepFirst
    split
    · exact List.Subset.refl _
    · exact List.subset_append_left kept [r]

lemma mem_of_mem_foldl_keepFirst {kept : List ρ} (hq : q ∈ rows.foldl (keepFirst key) kept) :
    q ∈ kept ∨ q ∈ rows := by
  induction rows generalizing kept with
  | nil => exact .inl hq
  | cons r rows ih =>
    obtain h | h := ih hq
    · unfold keepFirst at h
      split at h
      · exact .inl h
      · obtain h | h := List.mem_append.mp h
        · exact .inl h
        · rw [List.mem_singleton.mp h]
          exact .inr List.mem_cons_self
    · exact .inr (List.mem_cons_of_mem r h)

lemma exists_key_foldl_keepFirst (kept : List ρ) (hr : r ∈ rows) :
    ∃ q ∈ rows.foldl (keepFirst key) kept, key q = key r := by
  induction rows generalizing kept with
  | nil => cases hr
  | cons p rows ih =>
    obtain rfl | hr := List.mem_cons.mp hr
    · have hkept : ∃ q ∈ keepFirst key kept r, key q = key r := by
        unfold keepFirst
        split
        · next h => simpa using h
        · exact ⟨r, List.mem_append_right _ (List.mem_singleton_self r), rfl⟩
      obtain ⟨q, hq, hkey⟩ := hkept
      rw [List.foldl_cons]
      exact ⟨q, subset_foldl_keepFirst _ hq, hkey⟩
    · exact ih _ hr

lemma pairwise_foldl_keepFirst {kept : List ρ} (hkept : kept.Pairwise (fun r q => key r ≠ key q)) :
    (rows.foldl (keepFirst key) kept).Pairwise (fun r q => key r ≠ key q) := by
  induction rows generalizing kept with
  | nil => exact hkept
  | cons p rows ih =>
    apply ih
    unfold keepFirst
    split
    · exact hkept
    · next h =>
      refine List.pairwise_append.mpr ⟨hkept, List.pairwise_singleton _ _, ?_⟩
      intro r hr q hq
      rw [List.mem_singleton.mp hq]
      intro hkey
      exact h (List.any_eq_true.mpr ⟨r, hr, decide_eq_true hkey⟩)

end IpDocket.Lib
