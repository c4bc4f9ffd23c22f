import IpDocket.Lib.Json

/-!
# Equality of JSON values

`==` of the host language on the values that `json.loads` returns: numbers and booleans are equal by
their value, and a `dict` is equal to another if both have the same keys with equal values, whatever
their order.
-/

namespace IpDocket.Lib

/-- `==` between floats, and between a float and an integer. Within a container a float is equal to
itself even if it is no number. -/
structure FloatEquality {T : UnicodeTables} (H : PyHost T) where
  floatFloat : H.floats.carrier → H.floats.carrier → Bool
  floatInt : H.floats.carrier → ℤ → Bool
  floatFloat_self : ∀ x, floatFloat x x = true
  isZero_of_floatInt : ∀ x n, floatInt x n = true → (H.floats.isZero x = true ↔ n = 0)

/-- `del fields[key]`, if it is there. -/
def popField {F : Type} (key : Text) (fields : List (Text × Json F)) : List (Text × Json F) :=
  fields.filter (fun kv => kv.1 ≠ key)

section Equality

variable {T : UnicodeTables} {H : PyHost T} (E : FloatEquality H)

def intEq (n : ℤ) : Json H.floats.carrier → Bool
  | .bool b => n = if b then 1 else 0
  | .int m => n = m
  | .float x => E.floatInt x n
  | _ => false

mutual

/-- `v == w`. -/
def pyEq : Json H.floats.carrier → Json H.floats.carrier → Bool
  | .null, w => match w with
    | .null => true
    | _ => false
  | .bool b, w => intEq E (if b then 1 else 0) w
  | .int n, w => intEq E n w
  | .float x, w => match w with
    | .float y => E.floatFloat x y
    | .int n => E.floatInt x n
    | .bool b => E.floatInt x (if b then 1 else 0)
    | _ => false
  | .str t, w => match w with
    | .str u => t = u
    | _ => false
  | .arr items, w => match w with
    | .arr items' => pyEqItems items items'
    | _ => false
  | .obj fields, w => match w with
    | .obj fields' =>
      pyEqFields [] fields fields' && fields'.all (fun kv => (fields.lookup kv.1).isSome)
    | _ => false

def pyEqItems : List (Json H.floats.carrier) → List (Json H.floats.carrier) → Bool
  | [], [] => true
  | v :: items, w :: items' => pyEq v w && pyEqItems items items'
  | _, _ => false

/-- Every field has an equal one under its key; a key counts where it stands first. -/
def pyEqFields (seen : List Text) :
    List (Text × Json H.floats.carrier) → List (Text × Json H.floats.carrier) → Bool
  | [], _ => true
  | (k, v) :: fields, fields' =>
    (decide (k ∈ seen) || match fields'.lookup k with
      | some w => pyEq v w
      | none => false) && pyEqFields (k :: seen) fields fields'

end

lemma intEq_self (n : ℤ) : intEq E n (.int n) = true := decide_eq_true rfl

mutual

lemma pyEq_self : ∀ v : Json H.floats.carrier, pyEq E v v = true
  | .null => by rw [pyEq]
  | .bool b => by
    rw [pyEq, intEq]
    exact decide_eq_true rfl
  | .int n => by rw [pyEq, intEq_self]
  | .float x => by rw [pyEq, E.floatFloat_self]
  | .str t => by
    rw [pyEq]
    exact decide_eq_true rfl
  | .arr items => by rw [pyEq, pyEqItems_self items]
  | .obj fields => by
    have hkeys : fields.all (fun kv => (fields.lookup kv.1).isSome) = true := by
      rw [List.all_eq_true]
      intro kv hkv
      rw [List.lookup_isSome_iff]
      exact ⟨kv, hkv, beq_self_eq_true kv.1⟩
    have hfields := pyEqFields_self fields [] [] (fun _ _ => rfl)
    rw [List.nil_append] at hfields
    rw [pyEq, hfields, hkeys, Bool.and_self]

lemma pyEqItems_self : ∀ items : List (Json H.floats.carrier), pyEqItems E items items = true
  | [] => by rw [pyEqItems]
  | v :: items => by rw [pyEqItems, pyEq_self v, pyEqItems_self items, Bool.and_self]

lemma pyEqFields_self : ∀ (fields before : List (Text × Json H.floats.carrier)) (seen : List Text),
    (∀ k, k ∉ seen → before.lookup k = none) → pyEqFields E seen fields (before ++ fields) = true
  | [], _, _ => fun _ => by rw [pyEqFields]
  | (k, v) :: fields, before, seen => by
    intro hseen
    have hhead : (decide (k ∈ seen) || match (before ++ (k, v) :: fields).lookup k with
        | some w => pyEq E v w
        | none => false) = true := by
      by_cases hk : k ∈ seen
      · rw [decide_eq_true hk, Bool.true_or]
      · have hlookup : (before ++ (k, v) :: fields).lookup k = some v := by
          rw [List.lookup_append, hseen k hk, List.lookup_cons_self]
          rfl
        simp only [hlookup, pyEq_self v, Bool.or_true]
    have hrest := pyEqFields_self fields (before ++ [(k, v)]) (k :: seen) (by
      intro l hl
      rw [List.mem_cons, not_or] at hl
      have hne : (l == k) = false := by simpa using hl.1
      rw [List.lookup_append, hseen l hl.2, List.lookup_cons, hne]
      rfl)
    rw [List.append_assoc, List.singleton_append] at hrest
    rw [pyEqFields, hhead, hrest, Bool.and_self]

end

variable {E}

lemma pyTruthy_of_intEq {n : ℤ} {v : Json H.floats.carrier} (h : intEq E n v = true) :
    pyTruthy H v = decide (n ≠ 0) := by
  cases v with
  | bool b =>
    have hn : n = if b then 1 else 0 := of_decide_eq_true h
    rw [hn]
    cases b <;> rfl
  | int m => rw [of_decide_eq_true h]; rfl
  | float x =>
    have hzero := E.isZero_of_floatInt x n h
    by_cases hn : n = 0
    · simp [pyTruthy, hzero.mpr hn, hn]
    · have hx : H.floats.isZero x = false := by
        rw [← Bool.not_eq_true, hzero]
        exact hn
      simp [pyTruthy, hx, hn]
  | _ => cases h

/-- What is equal to a boolean is true as that is. -/
lemma pyTruthy_of_pyEq_bool {b : Bool} {v : Json H.floats.carrier} (h : pyEq E (.bool b) v = true) :
    pyTruthy H v = b := by
  rw [pyEq] at h
  rw [pyTruthy_of_intEq h]
  cases b <;> rfl

lemma eq_of_pyEq_str {t : Text} {v : Json H.floats.carrier} (h : pyEq E (.str t) v = true) :
    v = .str t := by
  cases v with
  | str u =>
    rw [pyEq, decide_eq_true_iff] at h
    rw [h]
  | _ => simp [pyEq] at h

lemma lookup_of_pyEqFields {fields fields' : List (Text × Json H.floats.carrier)} {seen : List Text}
    (h : pyEqFields E seen fields fields' = true) {k : Text} {v : Json H.floats.carrier}
    (hk : k ∉ seen) (hv : fields.lookup k = some v) :
    ∃ w, fields'.lookup k = some w ∧ pyEq E v w = true := by
  induction fields generalizing seen with
  | nil => cases hv
  | cons kv fields ih =>
    obtain ⟨l, u⟩ := kv
    rw [pyEqFields, Bool.and_eq_true] at h
    obtain ⟨hhead, hrest⟩ := h
    by_cases hl : k = l
    · subst hl
      rw [List.lookup_cons_self, Option.some_inj] at hv
      rw [decide_eq_false hk, Bool.false_or, hv] at hhead
      cases hw : fields'.lookup k with
      | none =>
        rw [hw] at hhead
        cases hhead
      | some w =>
        rw [hw] at hhead
        exact ⟨w, rfl, hhead⟩
    · have hne : (k == l) = false := by simpa using hl
      rw [List.lookup_cons, hne] at hv
      exact ih hrest (by simp [hl, hk]) hv

/-- The fields of a `dict` that is equal to another have equal values. -/
lemma field_of_pyEq {fields fields' : List (Text × Json H.floats.carrier)}
    (h : pyEq E (.obj fields) (.obj fields') = true) (k : Text) :
    pyEq E (field fields k) (field fields' k) = true := by
  rw [pyEq, Bool.and_eq_true] at h
  obtain ⟨hfields, hkeys⟩ := h
  unfold field
  cases hv : fields.lookup k with
  | some v =>
    obtain ⟨w, hw, heq⟩ := lookup_of_pyEqFields hfields List.not_mem_nil hv
    rw [hw]
    exact heq
  | none =>
    have hnone : fields'.lookup k = none := by
      rw [← Option.not_isSome_iff_eq_none]
      intro hsome
      rw [List.lookup_isSome_iff] at hsome
      obtain ⟨kv, hkv, hk⟩ := hsome
      have hmem := List.all_eq_true.mp hkeys kv hkv
      rw [← (beq_iff_eq.mp hk), hv] at hmem
      cases hmem
    rw [hnone]
    exact pyEq_self E _

lemma eq_null_of_pyEq {v : Json H.floats.carrier} (h : pyEq E .null v = true) : v = .null := by
  cases v with
  | null => rfl
  | _ => simp [pyEq] at h

lemma exists_of_pyEq_obj {fields : List (Text × Json H.floats.carrier)} {v : Json H.floats.carrier}
    (h : pyEq E (.obj fields) v = true) : ∃ fields', v = .obj fields' := by
  cases v with
  | obj fields' => exact ⟨fields', rfl⟩
  | _ => simp [pyEq] at h

end Equality

section Fields

variable {F : Type}

lemma field_popField (key key' : Text) (fields : List (Text × Json F)) :
    field (popField key fields) key' = if key' = key then .null else field fields key' := by
  induction fields with
  | nil =>
    rw [popField, List.filter_nil]
    split <;> rfl
  | cons kv fields ih =>
    obtain ⟨k, v⟩ := kv
    unfold popField at ih ⊢
    by_cases hk : k = key
    · rw [List.filter_cons_of_neg (by simp [hk]), ih, field_cons]
      split
      · rfl
      · next h => rw [if_neg (fun heq => h (heq.symm.trans hk))]
    · rw [List.filter_cons_of_pos (by simp [hk]), field_cons, field_cons, ih]
      split
      · next h => rw [if_neg (fun heq => hk (h.trans heq))]
      · rfl

lemma lookup_setField (key : Text) (v : Json F) (fields : List (Text × Json F)) :
    (setField key v fields).lookup key = some v := by
  induction fields with
  | nil => rw [setField, List.lookup_cons_self]
  | cons kv fields ih =>
    obtain ⟨k, u⟩ := kv
    rw [setField]
    split
    · rw [List.lookup_cons_self]
    · next h =>
      have hne : (key == k) = false := by simpa using Ne.symm h
      rw [List.lookup_cons, hne]
      exact ih

/-- Writing what is there already changes nothing. -/
lemma setField_of_lookup {key : Text} {v : Json F} {fields : List (Text × Json F)}
    (h : fields.lookup key = some v) : setField key v fields = fields := by
  induction fields with
  | nil => cases h
  | cons kv fields ih =>
    obtain ⟨k, u⟩ := kv
    rw [setField]
    split
    · next hk =>
      rw [hk, List.lookup_cons_self, Option.some_inj] at h
      rw [h, hk]
    · next hk =>
      have hne : (key == k) = false := by simpa using Ne.symm hk
      rw [List.lookup_cons, hne] at h
      rw [ih h]

lemma lookup_setField_of_ne {key key' : Text} (hne : key' ≠ key) (v : Json F)
    (fields : List (Text × Json F)) : (setField key v fields).lookup key' = fields.lookup key' := by
  induction fields with
  | nil =>
    have hkey : (key' == key) = false := by simpa using hne
    rw [setField, List.lookup_cons, hkey]
  | cons kv fields ih =>
    obtain ⟨k, u⟩ := kv
    rw [setField]
    split
    · next hk =>
      have hkey : (key' == key) = false := by simpa using hne
      rw [List.lookup_cons, List.lookup_cons, hk, hkey]
    · rw [List.lookup_cons, List.lookup_cons, ih]

lemma lookup_popField (key : Text) (fields : List (Text × Json F)) :
    (popField key fields).lookup key = none := by
  rw [← Option.not_isSome_iff_eq_none, List.lookup_isSome_iff]
  rintro ⟨kv, hkv, hk⟩
  unfold popField at hkv
  rw [List.mem_filter] at hkv
  exact absurd (beq_iff_eq.mp hk).symm (of_decide_eq_true hkv.2)

lemma popField_of_lookup {key : Text} {fields : List (Text × Json F)}
    (h : fields.lookup key = none) : popField key fields = fields := by
  unfold popField
  rw [List.filter_eq_self]
  intro kv hkv
  apply decide_eq_true
  intro heq
  have hsome : (fields.lookup key).isSome = true :=
    List.lookup_isSome_iff.mpr ⟨kv, hkv, beq_iff_eq.mpr heq.symm⟩
  rw [h] at hsome
  cases hsome

end Fields
end IpDocket.Lib
