import IpDocket.Lib.Keyed

/-!
# Tables with a serial primary key

The rows of a table are kept in the order of their primary keys, and `next` is the value
the sequence hands out next. Both facts are part of the structure: an `UPDATE` is a map on
the rows that keeps their keys, an `INSERT` appends a row with the key `next`.

`flushColumn` is one column of an object-relational flush: a column whose value was not
changed since it was loaded is left out of the `UPDATE`, so that the stored value stays.
-/

namespace IpDocket.Lib

variable {ρ : Type*} {key : ρ → Nat}

structure Table (key : ρ → Nat) where
  rows : List ρ
  next : Nat
  ordered : rows.Pairwise (fun r q => key r < key q)
  fresh : ∀ r ∈ rows, key r < next

namespace Table

def empty (key : ρ → Nat) : Table key := ⟨[], 1, .nil, by simp⟩

/-- Lookup by primary key. -/
def find (t : Table key) (k : Nat) : Option ρ := findKey key k t.rows

/-- An `UPDATE` that leaves the primary key alone. -/
def update (t : Table key) (f : ρ → ρ) (hf : ∀ r, key (f r) = key r) : Table key where
  rows := t.rows.map f
  next := t.next
  ordered := by
    rw [List.pairwise_map]
    simpa only [hf] using t.ordered
  fresh := by
    intro r hr
    obtain ⟨q, hq, rfl⟩ := List.mem_map.mp hr
    rw [hf]
    exact t.fresh q hq

/-- An `INSERT` of the row `make id`, where `id` comes from the sequence. -/
def insert (t : Table key) (make : Nat → ρ) (hm : ∀ k, key (make k) = k) : Table key where
  rows := t.rows ++ [make t.next]
  next := t.next + 1
  ordered := by
    rw [List.pairwise_append]
    refine ⟨t.ordered, List.pairwise_singleton _ _, ?_⟩
    intro r hr q hq
    rw [List.mem_singleton.mp hq, hm]
    exact t.fresh r hr
  fresh := by
    intro r hr
    rcases List.mem_append.mp hr with h | h
    · have := t.fresh r h
      omega
    · rw [List.mem_singleton.mp h, hm]
      omega

/-- A `DELETE` by primary key. -/
def delete (t : Table key) (k : Nat) : Table key where
  rows := t.rows.filter (fun r => key r ≠ k)
  next := t.next
  ordered := t.ordered.filter _
  fresh := by
    intro r hr
    exact t.fresh r (List.mem_filter.mp hr).1

/-- A row that took its id from the sequence before becomes part of the table. -/
def put (t : Table key) (r : ρ) : Table key where
  rows := t.rows.filter (fun q => key q < key r) ++ r :: t.rows.filter (fun q => key r < key q)
  next := max t.next (key r + 1)
  ordered := by
    rw [List.pairwise_append, List.pairwise_cons]
    refine ⟨t.ordered.filter _, ⟨?_, t.ordered.filter _⟩, ?_⟩
    · intro q hq
      simpa using (List.mem_filter.mp hq).2
    · intro p hp q hq
      have hlt : key p < key r := by simpa using (List.mem_filter.mp hp).2
      rcases List.mem_cons.mp hq with rfl | hq
      · exact hlt
      · have hgt : key r < key q := by simpa using (List.mem_filter.mp hq).2
        omega
  fresh := by
    intro q hq
    rcases List.mem_append.mp hq with hq | hq
    · have hlt := t.fresh q (List.mem_filter.mp hq).1
      omega
    · rcases List.mem_cons.mp hq with rfl | hq
      · omega
      · have hlt := t.fresh q (List.mem_filter.mp hq).1
        omega

/-- An `INSERT` that fails after it has taken its id from the sequence. -/
def burn (t : Table key) : Table key where
  rows := t.rows
  next := t.next + 1
  ordered := t.ordered
  fresh := by
    intro r hr
    have := t.fresh r hr
    omega

variable {t : Table key} {k : Nat} {r q : ρ} {f : ρ → ρ} {make : Nat → ρ}

lemma unique : t.rows.Pairwise (fun r q => key r ≠ key q) :=
  t.ordered.imp (fun h => Nat.ne_of_lt h)

lemma eq_of_key_eq (hr : r ∈ t.rows) (hq : q ∈ t.rows) (h : key r = key q) : r = q :=
  eq_of_key_eq_of_pairwise t.unique hr hq h

lemma find_eq_some : t.find k = some r ↔ r ∈ t.rows ∧ key r = k := findKey_eq_some t.unique

lemma mem_of_find (h : t.find k = some r) : r ∈ t.rows := (find_eq_some.mp h).1

lemma key_of_find (h : t.find k = some r) : key r = k := (find_eq_some.mp h).2

lemma find_of_mem (h : r ∈ t.rows) : t.find (key r) = some r := find_eq_some.mpr ⟨h, rfl⟩

lemma find_lt_next (h : t.find k = some r) : k < t.next := by
  have hr := find_eq_some.mp h
  rw [← hr.2]
  exact t.fresh r hr.1

lemma find_next : t.find t.next = none := by
  cases h : t.find t.next with
  | none => rfl
  | some r => exact absurd (find_lt_next h) (Nat.lt_irrefl _)

@[simp] lemma rows_update (hf : ∀ r, key (f r) = key r) : (t.update f hf).rows = t.rows.map f :=
  rfl

/-- An update acts on the row found under `k`, if there is one. -/
@[simp] lemma find_update (hf : ∀ r, key (f r) = key r) :
    (t.update f hf).find k = (t.find k).map f :=
  findKey_map hf

/-- An `UPDATE` by primary key. -/
lemma find_update_key {k' : Nat} (hf : ∀ r, key (f r) = key r) :
    (t.update (onRows (fun r => key r = k') f) (key_onRows hf)).find k =
      if k = k' then (t.find k).map f else t.find k := by
  rw [find_update]
  cases h : t.find k with
  | none =>
    rw [Option.map_none, Option.map_none, ite_self]
  | some r =>
    rw [Option.map_some, Option.map_some, onRows, key_of_find h]
    by_cases hk : k = k'
    · rw [if_pos hk, if_pos (decide_eq_true hk)]
    · rw [if_neg hk, if_neg (by simpa using hk)]

/-- A sum over the rows after an `UPDATE` by primary key. -/
lemma sum_update_key (hf : ∀ r, key (f r) = key r) (h : t.find k = some r) (g : ρ → Int) :
    ((t.update (onRows (fun r => key r = k) f) (key_onRows hf)).rows.map g).sum =
      (t.rows.map g).sum - g r + g (f r) := by
  obtain ⟨hr, hk⟩ := find_eq_some.mp h
  have hothers : ((t.rows.filter (fun q => key q ≠ key r)).map
      (fun q => g (onRows (fun r => key r = k) f q))) =
        (t.rows.filter (fun q => key q ≠ key r)).map g := by
    apply List.map_congr_left
    intro q hq
    have hne : key q ≠ k := by
      have hkey := (List.mem_filter.mp hq).2
      rw [← hk]
      simpa using hkey
    rw [onRows, if_neg (by simpa using hne)]
  have hafter := sum_filter_key_ne t.unique hr (f := fun q => g (onRows (fun r => key r = k) f q))
  have hbefore := sum_filter_key_ne t.unique hr (f := g)
  rw [hothers, hbefore, onRows, if_pos (by simpa using hk)] at hafter
  rw [rows_update, List.map_map]
  change (t.rows.map (fun q => g (onRows (fun r => key r = k) f q))).sum = _
  omega

lemma find_insert_of_ne (hm : ∀ k, key (make k) = k) (hk : k ≠ t.next) :
    (t.insert make hm).find k = t.find k := by
  have hne : key (make t.next) ≠ k := by
    rw [hm]
    exact Ne.symm hk
  simp only [find, findKey, insert, List.find?_append, List.find?_singleton, hne, decide_false,
    Bool.false_eq_true, if_false, Option.or_none]

lemma find_insert_next (hm : ∀ k, key (make k) = k) :
    (t.insert make hm).find t.next = some (make t.next) :=
  find_eq_some.mpr ⟨by simp [insert], hm t.next⟩

lemma find_insert_some (hm : ∀ k, key (make k) = k) (h : t.find k = some r) :
    (t.insert make hm).find k = some r := by
  rw [find_insert_of_ne hm (Nat.ne_of_lt (find_lt_next h)), h]

lemma mem_put : q ∈ (t.put r).rows ↔ q = r ∨ (q ∈ t.rows ∧ key q ≠ key r) := by
  simp only [put, List.mem_append, List.mem_cons, List.mem_filter, decide_eq_true_eq]
  constructor
  · rintro (⟨hq, hlt⟩ | rfl | ⟨hq, hlt⟩)
    · exact .inr ⟨hq, Nat.ne_of_lt hlt⟩
    · exact .inl rfl
    · exact .inr ⟨hq, Nat.ne_of_gt hlt⟩
  · rintro (rfl | ⟨hq, hne⟩)
    · exact .inr (.inl rfl)
    · rcases Nat.lt_or_gt_of_ne hne with hlt | hgt
      · exact .inl ⟨hq, hlt⟩
      · exact .inr (.inr ⟨hq, hgt⟩)

lemma find_delete_of_ne {k' : Nat} (hne : k' ≠ k) : (t.delete k).find k' = t.find k' := by
  apply Option.ext
  intro r
  have hkeep : r ∈ (t.delete k).rows ↔ r ∈ t.rows ∧ key r ≠ k := by
    simp [delete]
  rw [find_eq_some, find_eq_some, hkeep]
  constructor
  · rintro ⟨⟨hmem, _⟩, hkey⟩
    exact ⟨hmem, hkey⟩
  · rintro ⟨hmem, hkey⟩
    exact ⟨⟨hmem, hkey ▸ hne⟩, hkey⟩

end Table

def flushColumn {β : Type*} [DecidableEq β] (loaded new stored : β) : β :=
  if new = loaded then stored else new

@[simp] lemma flushColumn_self {β : Type*} [DecidableEq β] (loaded new : β) :
    flushColumn loaded new loaded = new := by
  unfold flushColumn
  split
  · next h => exact h.symm
  · rfl

end IpDocket.Lib
