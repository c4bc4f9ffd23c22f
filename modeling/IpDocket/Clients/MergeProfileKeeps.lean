import IpDocket.Clients.MergeProfile

/-!
# What a merge of profiles keeps

A value of the target is kept when it stays, an object grows key by key and a list keeps its elements.
A value of a source is covered when all of it is found at its place in the target, leaf by leaf and
element by element, or is written down for that place. Both hold after a merge in which no step takes
a branch that drops a value: an object or a list in the place of something else, two elements of a list
with one key, a key that is passed over, or an overflow that cannot be read.
-/

namespace IpDocket.Clients
open IpDocket.Lib

section Kept

variable {F : Type}

/-- No value of `v` that is not blank is changed or removed in `w`. -/
inductive Kept : Json F → Json F → Prop
  | blank {v w : Json F} (h : isBlank v = true) : Kept v w
  | same (v : Json F) : Kept v v
  | obj {fields fields' : List (Text × Json F)} (hne : fields' = [] → fields = [])
      (h : ∀ k, Kept (field fields k) (field fields' k)) : Kept (.obj fields) (.obj fields')
  | arr {items items' : List (Json F)} (h : ∀ v ∈ items, isBlank v = false → v ∈ items') :
      Kept (.arr items) (.arr items')

lemma allBlank_iff (items : List (Json F)) : allBlank items = true ↔ ∀ v ∈ items, isBlank v = true := by
  induction items with
  | nil => simp [allBlank]
  | cons v items ih => simp [allBlank, ih]

lemma isBlank_arr_iff (items : List (Json F)) :
    isBlank (.arr items) = true ↔ ∀ v ∈ items, isBlank v = true := by
  rw [isBlank, allBlank_iff]

lemma isBlank_obj_iff (fields : List (Text × Json F)) : isBlank (.obj fields) = true ↔ fields = [] := by
  rw [isBlank, List.isEmpty_iff]

lemma Kept.trans {u v w : Json F} (huv : Kept u v) (hvw : Kept v w) : Kept u w := by
  induction huv generalizing w with
  | blank h => exact .blank h
  | same => exact hvw
  | obj hne _ ih =>
    cases hvw with
    | blank hblank => exact .blank ((isBlank_obj_iff _).mpr (hne ((isBlank_obj_iff _).mp hblank)))
    | same => exact .obj hne (fun k => ih k (.same _))
    | obj hne' h' => exact .obj (fun hnil => hne (hne' hnil)) (fun k => ih k (h' k))
  | @arr items items' h =>
    cases hvw with
    | blank hblank =>
      rw [isBlank_arr_iff] at hblank
      refine .blank ((isBlank_arr_iff _).mpr (fun v hv => ?_))
      by_contra hfilled
      exact hfilled (hblank v (h v hv (by simpa using hfilled)))
    | same => exact .arr h
    | arr h' => exact .arr (fun v hv hfilled => h' v (h v hv hfilled) hfilled)

lemma Kept.field {v w : Json F} (h : Kept v w) (k : Text) :
    Kept (field (fieldsOf v) k) (field (fieldsOf w) k) := by
  cases h with
  | blank hblank =>
    cases v with
    | obj fields =>
      rw [isBlank_obj_iff] at hblank
      subst hblank
      exact .blank rfl
    | _ => exact .blank rfl
  | same => exact .same _
  | obj _ h => exact h k
  | arr => exact .blank rfl

lemma Kept.mem_itemsOf {v w u : Json F} (h : Kept v w) (hu : u ∈ itemsOf v) (hfilled : isBlank u = false) :
    u ∈ itemsOf w := by
  cases h with
  | blank hblank =>
    cases v with
    | arr items =>
      rw [isBlank_arr_iff] at hblank
      rw [hblank u hu] at hfilled
      cases hfilled
    | _ => cases hu
  | same => exact hu
  | obj => cases hu
  | arr h => exact h u hu hfilled

end Kept

section Covered

variable {T : UnicodeTables} {H : PyHost T} (E : FloatEquality H)

def isScalar : Json H.floats.carrier → Bool
  | .arr _ => false
  | .obj _ => false
  | _ => true

/-- All of `source` is equal, up to trimming, to what `target` has at its place, or `recorded` for that
place. -/
inductive Covered (recorded : Text → Text → Prop) :
    Text → Json H.floats.carrier → Json H.floats.carrier → Prop
  | blank {path : Text} {target source : Json H.floats.carrier} (h : isBlank source = true) :
      Covered recorded path target source
  | equal {path : Text} {target source : Json H.floats.carrier} (hscalar : isScalar source = true)
      (h : valuesEqual E target source = true) : Covered recorded path target source
  | recorded {path t : Text} {target source : Json H.floats.carrier}
      (h : stringifyOverflowValue source = some t) (hrecorded : recorded path t) :
      Covered recorded path target source
  | obj {path : Text} {target : Json H.floats.carrier} {fields : List (Text × Json H.floats.carrier)}
      (h : ∀ kv ∈ fields, Covered recorded (below path kv.1) (field (fieldsOf target) kv.1) kv.2) :
      Covered recorded path target (.obj fields)
  | arr {path : Text} {target : Json H.floats.carrier} {items : List (Json H.floats.carrier)}
      (h : ∀ v ∈ items, isBlank v = false → (∃ w ∈ itemsOf target, valuesEqual E w v = true) ∨
        ∃ t, stringifyOverflowValue v = some t ∧ recorded path t) :
      Covered recorded path target (.arr items)

variable {E}

lemma isBlank_of_intEq {n : ℤ} {v : Json H.floats.carrier} (h : intEq E n v = true) : isBlank v = false := by
  cases v with
  | bool => rfl
  | int => rfl
  | float => rfl
  | _ => cases h

mutual

lemma isBlank_of_pyEq : ∀ {v w : Json H.floats.carrier}, pyEq E v w = true → isBlank v = isBlank w
  | .null, w, h => by rw [eq_null_of_pyEq h]
  | .bool b, w, h => by
    rw [pyEq] at h
    rw [isBlank_of_intEq h]
    rfl
  | .int n, w, h => by
    rw [pyEq] at h
    rw [isBlank_of_intEq h]
    rfl
  | .float x, w, h => by
    cases w with
    | bool => rfl
    | int => rfl
    | float => rfl
    | _ => simp [pyEq] at h
  | .str t, w, h => by rw [eq_of_pyEq_str h]
  | .arr items, w, h => by
    cases w with
    | arr items' =>
      rw [pyEq] at h
      rw [isBlank, isBlank]
      exact allBlank_of_pyEqItems h
    | _ => simp [pyEq] at h
  | .obj fields, w, h => by
    obtain ⟨fields', rfl⟩ := exists_of_pyEq_obj h
    rw [pyEq, Bool.and_eq_true] at h
    rw [isBlank, isBlank]
    cases fields with
    | nil =>
      cases fields' with
      | nil => rfl
      | cons kv fields' => simp at h
    | cons kv fields =>
      cases fields' with
      | nil =>
        obtain ⟨k, v⟩ := kv
        simp [pyEqFields] at h
      | cons kv' fields' => rfl

lemma allBlank_of_pyEqItems : ∀ {items items' : List (Json H.floats.carrier)},
    pyEqItems E items items' = true → allBlank items = allBlank items'
  | [], [], _ => rfl
  | [], _ :: _, h => by simp [pyEqItems] at h
  | _ :: _, [], h => by simp [pyEqItems] at h
  | v :: items, w :: items', h => by
    rw [pyEqItems, Bool.and_eq_true] at h
    rw [allBlank, allBlank, isBlank_of_pyEq h.1, allBlank_of_pyEqItems h.2]

end

lemma isBlank_normalizeScalar (v : Json H.floats.carrier) : isBlank (normalizeScalar v) = isBlank v := by
  cases v with
  | str t =>
    rw [normalizeScalar, isBlank, isBlank, pyStrip_of_stripped (stripped_pyStrip t)]
  | _ => rfl

lemma isBlank_of_valuesEqual {v w : Json H.floats.carrier} (h : valuesEqual E v w = true) :
    isBlank v = isBlank w := by
  rw [← isBlank_normalizeScalar v, ← isBlank_normalizeScalar w]
  exact isBlank_of_pyEq h

lemma valuesEqual_self (v : Json H.floats.carrier) : valuesEqual E v v = true := pyEq_self E _

/-- What is equal to a scalar is a scalar. -/
lemma isScalar_of_valuesEqual {v w : Json H.floats.carrier} (h : valuesEqual E v w = true)
    (hw : isScalar w = true) : isScalar v = true := by
  cases v with
  | arr items =>
    cases w with
    | arr => cases hw
    | _ => simp [valuesEqual, normalizeScalar, pyEq] at h
  | obj fields =>
    cases w with
    | obj => cases hw
    | _ => simp [valuesEqual, normalizeScalar, pyEq] at h
  | _ => rfl

lemma Kept.eq_of_isScalar {v w : Json H.floats.carrier} (h : Kept v w) (hv : isBlank v = false)
    (hscalar : isScalar v = true) : w = v := by
  cases h with
  | blank hblank =>
    rw [hv] at hblank
    cases hblank
  | same => rfl
  | obj => cases hscalar
  | arr => cases hscalar

/-- A value stays covered when the target is kept and what is written down stays. -/
lemma Covered.mono {recorded recorded' : Text → Text → Prop} {path : Text}
    {target target' source : Json H.floats.carrier} (h : Covered E recorded path target source)
    (hrecorded : ∀ path t, recorded path t → recorded' path t) (hkept : Kept target target') :
    Covered E recorded' path target' source := by
  induction h generalizing target' with
  | blank hblank => exact .blank hblank
  | @equal path target source hscalar heq =>
    cases hblank : isBlank source with
    | true => exact .blank hblank
    | false =>
      have htarget : isBlank target = false := (isBlank_of_valuesEqual heq).trans hblank
      rw [hkept.eq_of_isScalar htarget (isScalar_of_valuesEqual heq hscalar)]
      exact .equal hscalar heq
  | recorded hstring hrec => exact .recorded hstring (hrecorded _ _ hrec)
  | obj _ ih => exact .obj (fun kv hkv => ih kv hkv (hkept.field kv.1))
  | arr hitems =>
    refine .arr (fun v hv hfilled => ?_)
    rcases hitems v hv hfilled with ⟨w, hw, heq⟩ | ⟨t, ht, hrec⟩
    · have hblank : isBlank w = false := (isBlank_of_valuesEqual heq).trans hfilled
      exact .inl ⟨w, hkept.mem_itemsOf hw hblank, heq⟩
    · exact .inr ⟨t, ht, hrecorded _ _ hrec⟩

lemma field_of_mem {F : Type} {fields : List (Text × Json F)} (hkeys : (fields.map Prod.fst).Nodup)
    {kv : Text × Json F} (h : kv ∈ fields) : field fields kv.1 = kv.2 := by
  have hmap := field_map hkeys Prod.snd h
  rwa [List.map_id'' (fun kv => rfl)] at hmap

/-- A copy covers what was copied. -/
lemma Covered.self {recorded : Text → Text → Prop} {v : Json H.floats.carrier} (h : WellKeyed v)
    (path : Text) : Covered E recorded path v v := by
  induction h generalizing path with
  | arr _ _ => exact .arr (fun v hv _ => .inl ⟨v, hv, valuesEqual_self v⟩)
  | obj hkeys _ ih =>
    refine .obj (fun kv hkv => ?_)
    rw [fieldsOf, field_of_mem hkeys hkv]
    exact ih kv hkv _
  | _ => exact .equal rfl (valuesEqual_self _)

end Covered

section Overflow

variable {T : UnicodeTables} {H : PyHost T} {E : FloatEquality H}

/-- The text is written down under the path. -/
def recordedIn (overflow : List (Text × Json H.floats.carrier)) (path t : Text) : Prop :=
  ∃ item, .obj item ∈ itemsOf (field overflow path) ∧ field item "value".toList = .str t

/-- An overflow is a `dict` of lists, and the lists to which something can be added are those of
`writable`. -/
structure Readable (writable : Text → Text → Prop) (overflow : List (Text × Json H.floats.carrier)) :
    Prop where
  lists : ∀ k, field overflow k = .null ∨ ∃ items, field overflow k = .arr items
  opens : ∀ path t, writable path t → (bucketHas t (itemsOf (field overflow path))).isSome = true

/-- Everything that was written down stays. -/
def Grows (overflow overflow' : List (Text × Json H.floats.carrier)) : Prop :=
  ∀ k, Kept (field overflow k) (field overflow' k)

lemma Grows.refl (overflow : List (Text × Json H.floats.carrier)) : Grows overflow overflow :=
  fun _ => .same _

lemma Grows.trans {o o' o'' : List (Text × Json H.floats.carrier)} (h : Grows o o') (h' : Grows o' o'') :
    Grows o o'' := fun k => (h k).trans (h' k)

lemma Grows.recordedIn {o o' : List (Text × Json H.floats.carrier)} (h : Grows o o') {path t : Text}
    (hr : recordedIn o path t) : recordedIn o' path t := by
  obtain ⟨item, hitem, hvalue⟩ := hr
  refine ⟨item, (h path).mem_itemsOf hitem ?_, hvalue⟩
  rw [← Bool.not_eq_true, isBlank_obj_iff]
  rintro rfl
  cases hvalue

/-- Objects at the end of a list do not stop the search. -/
lemma isSome_bucketHas_append {t : Text} {items : List (Json H.floats.carrier)}
    (h : (bucketHas t items).isSome = true) (item : List (Text × Json H.floats.carrier)) :
    (bucketHas t (items ++ [.obj item])).isSome = true := by
  induction items with
  | nil =>
    rw [List.nil_append, bucketHas]
    split
    · split <;> rfl
    · rfl
  | cons v items ih =>
    rw [List.cons_append]
    cases v with
    | obj fields =>
      rw [bucketHas] at h ⊢
      split at h
      · split at h
        · next ht => rw [if_pos ht]; rfl
        · next ht =>
          rw [if_neg ht]
          exact ih h
      · exact ih h
    | _ => cases h

lemma recorded_of_bucketHas {t : Text} {items : List (Json H.floats.carrier)}
    (h : bucketHas t items = some true) :
    ∃ item, Json.obj item ∈ items ∧ field item "value".toList = .str t := by
  induction items with
  | nil => cases h
  | cons v items ih =>
    cases v with
    | obj fields =>
      rw [bucketHas] at h
      split at h
      · next u hu =>
        split at h
        · next ht => exact ⟨fields, List.mem_cons_self, ht ▸ hu⟩
        · obtain ⟨item, hitem, hvalue⟩ := ih h
          exact ⟨item, List.mem_cons_of_mem _ hitem, hvalue⟩
      · obtain ⟨item, hitem, hvalue⟩ := ih h
        exact ⟨item, List.mem_cons_of_mem _ hitem, hvalue⟩
    | _ => cases h

variable {writable : Text → Text → Prop}

/-- What can be written down is written down, and nothing is lost by it. -/
lemma addOverflow_spec {overflow : List (Text × Json H.floats.carrier)} {key t : Text}
    {v : Json H.floats.carrier} (sourceId : Nat) (hread : Readable writable overflow)
    (ht : stringifyOverflowValue v = some t) (hw : writable key t) :
    ∃ overflow', addOverflow overflow key v sourceId = some overflow' ∧ Grows overflow overflow' ∧
      Readable writable overflow' ∧ recordedIn overflow' key t := by
  obtain ⟨found, hfound⟩ := Option.isSome_iff_exists.mp (hread.opens key t hw)
  unfold addOverflow
  rw [ht]
  dsimp only
  rw [hfound, Option.map_some]
  cases found with
  | true => exact ⟨overflow, rfl, .refl _, hread, recorded_of_bucketHas hfound⟩
  | false =>
    simp only [Bool.false_eq_true, if_false]
    refine ⟨_, rfl, ?_, ⟨?_, ?_⟩, ?_⟩
    · intro k
      rw [field_setField]
      split
      · next hk =>
        subst hk
        rcases hread.lists k with hnull | ⟨items, hitems⟩
        · rw [hnull]
          exact .blank rfl
        · rw [hitems]
          exact .arr (fun u hu _ => List.mem_append_left _ hu)
      · exact .same _
    · intro k
      rw [field_setField]
      split
      · exact .inr ⟨_, rfl⟩
      · exact hread.lists k
    · intro path u hu
      rw [field_setField]
      split
      · next hk =>
        rw [hk] at hu
        exact isSome_bucketHas_append (hread.opens key u hu) _
      · exact hread.opens path u hu
    · refine ⟨[("value".toList, .str t), ("source_id".toList, .int sourceId)], ?_, rfl⟩
      rw [field_setField, if_pos rfl]
      exact List.mem_append_right _ List.mem_cons_self

end Overflow

section Lists

variable {T : UnicodeTables} {H : PyHost T} (E : FloatEquality H)

/-- Elements of one key are equal, so that none of the source is taken for another one; and those of the
target are the same where the list of the target is written anew. -/
def ListSafe (targetList sourceList : List (Json H.floats.carrier)) : Prop :=
  (∀ v ∈ sourceList, isBlank v = false → ∀ w ∈ targetList ++ sourceList, isBlank w = false →
      listItemKey w = listItemKey v → valuesEqual E w v = true) ∧
    ((∃ v ∈ sourceList, isBlank v = false ∧
        ∀ w ∈ targetList, isBlank w = false → listItemKey w ≠ listItemKey v) →
      ∀ v ∈ targetList, isBlank v = false → ∀ w ∈ targetList, isBlank w = false →
        listItemKey w = listItemKey v → w = v)

lemma mem_of_mem_uniqueItems {seen : List Text} {items : List (Json H.floats.carrier)}
    {v : Json H.floats.carrier} (h : v ∈ uniqueItems seen items) :
    v ∈ items ∧ isBlank v = false ∧ listItemKey v ∉ seen := by
  induction items generalizing seen with
  | nil => cases h
  | cons w items ih =>
    rw [uniqueItems] at h
    split at h
    · obtain ⟨hmem, hrest⟩ := ih h
      exact ⟨List.mem_cons_of_mem _ hmem, hrest⟩
    · next hnew =>
      rw [not_or] at hnew
      rcases List.mem_cons.mp h with rfl | h
      · exact ⟨List.mem_cons_self, by simpa using hnew.1, hnew.2⟩
      · obtain ⟨hmem, hfilled, hseen⟩ := ih h
        exact ⟨List.mem_cons_of_mem _ hmem, hfilled, fun hkey => hseen (List.mem_cons_of_mem _ hkey)⟩

/-- Every element has its key among those that were seen or that are left. -/
lemma exists_key_uniqueItems (seen : List Text) {items : List (Json H.floats.carrier)}
    {v : Json H.floats.carrier} (h : v ∈ items) (hv : isBlank v = false) :
    listItemKey v ∈ seen ∨ ∃ w ∈ uniqueItems seen items, listItemKey w = listItemKey v := by
  induction items generalizing seen with
  | nil => cases h
  | cons u items ih =>
    rw [uniqueItems]
    split
    · next hold =>
      rcases List.mem_cons.mp h with rfl | h
      · exact .inl (hold.resolve_left (by simp [hv]))
      · exact ih seen h
    · rcases List.mem_cons.mp h with rfl | h
      · exact .inr ⟨v, List.mem_cons_self, rfl⟩
      · rcases ih (listItemKey u :: seen) h with hseen | ⟨w, hw, hkey⟩
        · rcases List.mem_cons.mp hseen with hkey | hseen
          · exact .inr ⟨u, List.mem_cons_self, hkey.symm⟩
          · exact .inl hseen
        · exact .inr ⟨w, List.mem_cons_of_mem _ hw, hkey⟩

variable {E}

/-- An element of the source has an element of its key in the merged list. -/
lemma exists_merged_of_source (targetList : List (Json H.floats.carrier))
    {sourceList : List (Json H.floats.carrier)} {v : Json H.floats.carrier} (hv : v ∈ sourceList)
    (hfilled : isBlank v = false) :
    ∃ w ∈ (mergeListUnique targetList sourceList).1, w ∈ targetList ++ sourceList ∧ isBlank w = false ∧
      listItemKey w = listItemKey v := by
  unfold mergeListUnique
  dsimp only
  rcases exists_key_uniqueItems ((uniqueItems [] targetList).map listItemKey) hv hfilled with
    hold | ⟨w, hw, hkey⟩
  · obtain ⟨w, hw, hkey⟩ := List.mem_map.mp hold
    obtain ⟨hmem, hblank, -⟩ := mem_of_mem_uniqueItems hw
    exact ⟨w, List.mem_append_left _ hw, List.mem_append_left _ hmem, hblank, hkey⟩
  · obtain ⟨hmem, hblank, -⟩ := mem_of_mem_uniqueItems hw
    exact ⟨w, List.mem_append_right _ hw, List.mem_append_right _ hmem, hblank, hkey⟩

lemma mergeListUnique_spec {targetList sourceList : List (Json H.floats.carrier)} {path : Text}
    {recorded : Text → Text → Prop} (h : ListSafe E targetList sourceList) :
    let m := mergeListUnique targetList sourceList
    let value : Json H.floats.carrier := if m.2 then .arr m.1 else .arr targetList
    Kept (.arr targetList) value ∧ Covered E recorded path value (.arr sourceList) ∧
      (m.2 = false → value = .arr targetList) := by
  obtain ⟨hsource, htarget⟩ := h
  dsimp only
  cases hadded : (mergeListUnique targetList sourceList).2 with
  | true =>
    rw [if_pos rfl]
    refine ⟨.arr ?_, .arr ?_, fun hfalse => by cases hfalse⟩
    · intro v hv hfilled
      obtain ⟨u, hu⟩ : ∃ u, u ∈ uniqueItems ((uniqueItems [] targetList).map listItemKey) sourceList := by
        apply List.exists_mem_of_ne_nil
        intro hnil
        simp [mergeListUnique, hnil] at hadded
      obtain ⟨husource, hublank, hunew⟩ := mem_of_mem_uniqueItems hu
      have hnew : ∀ w ∈ targetList, isBlank w = false → listItemKey w ≠ listItemKey u := by
        intro w hw hwblank hkey
        rcases exists_key_uniqueItems [] hw hwblank with hnil | ⟨w', hw', hkey'⟩
        · cases hnil
        · exact hunew (List.mem_map.mpr ⟨w', hw', hkey'.trans hkey⟩)
      rcases exists_key_uniqueItems [] hv hfilled with hnil | ⟨w, hw, hkey⟩
      · cases hnil
      · obtain ⟨hmem, hblank, -⟩ := mem_of_mem_uniqueItems hw
        rw [← htarget ⟨u, husource, hublank, hnew⟩ v hv hfilled w hmem hblank hkey]
        exact List.mem_append_left _ hw
    · intro v hv hfilled
      obtain ⟨w, hw, hmem, hblank, hkey⟩ := exists_merged_of_source targetList hv hfilled
      exact .inl ⟨w, hw, hsource v hv hfilled w hmem hblank hkey⟩
  | false =>
    rw [if_neg Bool.false_ne_true]
    refine ⟨.same _, .arr ?_, fun _ => rfl⟩
    intro v hv hfilled
    have hnil : uniqueItems ((uniqueItems [] targetList).map listItemKey) sourceList = [] := by
      simpa [mergeListUnique] using hadded
    rcases exists_key_uniqueItems ((uniqueItems [] targetList).map listItemKey) hv hfilled with
      hold | ⟨w, hw, -⟩
    · obtain ⟨w, hw, hkey⟩ := List.mem_map.mp hold
      obtain ⟨hmem, hblank, -⟩ := mem_of_mem_uniqueItems hw
      exact .inl ⟨w, hmem, hsource v hv hfilled w (List.mem_append_left _ hmem) hblank hkey⟩
    · rw [hnil] at hw
      cases hw

end Lists

/-! ### One source -/

section Source

variable {T : UnicodeTables} {H : PyHost T} (E : FloatEquality H)

/-- No branch that drops a value is taken: objects are filled key by key, lists have no elements of one
key, and any other pair is equal, has nothing to lose, or is a scalar that can be written down. -/
inductive Safe (writable : Text → Text → Prop) :
    Text → Json H.floats.carrier → Json H.floats.carrier → Prop
  | obj {path : Text} {target source : List (Text × Json H.floats.carrier)}
      (h : ∀ kv ∈ source, isBlank kv.2 = false → isBlank (field target kv.1) = false →
        Safe writable (below path kv.1) (field target kv.1) kv.2) :
      Safe writable path (.obj target) (.obj source)
  | arr {path : Text} {target source : List (Json H.floats.carrier)} (h : ListSafe E target source) :
      Safe writable path (.arr target) (.arr source)
  | held {path : Text} {target source : Json H.floats.carrier}
      (hobj : ∀ fields fields', ¬(target = .obj fields ∧ source = .obj fields'))
      (harr : ∀ items items', ¬(target = .arr items ∧ source = .arr items'))
      (h : Covered E (fun _ _ => False) path target source) : Safe writable path target source
  | recorded {path t : Text} {target source : Json H.floats.carrier}
      (h : stringifyOverflowValue source = some t) (hw : writable path t) :
      Safe writable path target source

variable {E} {writable : Text → Text → Prop} {recordable : Prop}

/-- What a merge of two values leaves. -/
structure ValueKept (E : FloatEquality H) (writable : Text → Text → Prop) (recordable : Prop)
    (path : Text) (source target : Json H.floats.carrier)
    (overflow : List (Text × Json H.floats.carrier)) (m : Merged (Json H.floats.carrier) H) : Prop where
  kept : Kept target m.value
  covered : Covered E (recordedIn m.overflow) path m.value source
  grows : Grows overflow m.overflow
  readable : Readable writable m.overflow
  unchanged : m.changed = false → m.value = target
  quiet : m.overflow = overflow ∨ recordable

/-- What the merge of an object into another leaves. -/
structure FieldsKept (E : FloatEquality H) (writable : Text → Text → Prop) (recordable : Prop)
    (pre : Text) (source target overflow : List (Text × Json H.floats.carrier))
    (m : Merged (List (Text × Json H.floats.carrier)) H) : Prop where
  kept : ∀ k, Kept (field target k) (field m.value k)
  filled : m.value = [] → target = []
  covered : ∀ kv ∈ source, Covered E (recordedIn m.overflow) (below pre kv.1) (field m.value kv.1) kv.2
  others : ∀ k, k ∉ source.map Prod.fst → field m.value k = field target k
  grows : Grows overflow m.overflow
  readable : Readable writable m.overflow
  unchanged : m.changed = false → m.value = target
  quiet : m.overflow = overflow ∨ recordable

lemma isScalar_of_stringify {v : Json H.floats.carrier} {t : Text}
    (h : stringifyOverflowValue v = some t) : isScalar v = true := by
  cases v with
  | arr => cases h
  | obj => cases h
  | _ => rfl

lemma stringify_of_isBlank {v : Json H.floats.carrier} (h : isBlank v = true) :
    stringifyOverflowValue v = none := by
  cases v with
  | str t =>
    rw [isBlank, decide_eq_true_iff] at h
    exact if_pos h
  | null => rfl
  | arr => rfl
  | obj => rfl
  | _ => cases h

/-- A value that is held already, or can be written down. -/
lemma recordUnequal_spec (sourceId : Nat) {path : Text} {source target : Json H.floats.carrier}
    {overflow : List (Text × Json H.floats.carrier)} (hread : Readable writable overflow)
    (hwritable : ∀ path t, writable path t → recordable)
    (hsafe : Covered E (fun _ _ => False) path target source ∨
      ∃ t, stringifyOverflowValue source = some t ∧ writable path t) :
    ∃ m, recordUnequal E sourceId path source target overflow = some m ∧
      ValueKept E writable recordable path source target overflow m := by
  have hstay : ∀ hcovered : Covered E (recordedIn overflow) path target source,
      ValueKept E writable recordable path source target overflow ⟨target, false, overflow⟩ :=
    fun hcovered => ⟨.same _, hcovered, .refl _, hread, fun _ => rfl, .inl rfl⟩
  have hempty : Covered E (fun _ _ => False) path target source →
      Covered E (recordedIn overflow) path target source :=
    fun h => h.mono (fun _ _ hf => hf.elim) (.same _)
  unfold recordUnequal
  by_cases heq : valuesEqual E target source = true
  · rw [if_pos heq]
    refine ⟨_, rfl, hstay ?_⟩
    rcases hsafe with hheld | ⟨t, ht, -⟩
    · exact hempty hheld
    · exact .equal (isScalar_of_stringify ht) heq
  · rw [if_neg heq]
    rcases hsafe with hheld | ⟨t, ht, hw⟩
    · -- nothing of it can be written down
      have hnone : stringifyOverflowValue source = none := by
        cases hheld with
        | blank hblank => exact stringify_of_isBlank hblank
        | equal _ h => exact absurd h heq
        | recorded _ hf => exact hf.elim
        | obj => rfl
        | arr => rfl
      have hadd : addOverflow overflow path source sourceId = some overflow := by
        unfold addOverflow
        rw [hnone]
      rw [hadd]
      exact ⟨_, rfl, hstay (hempty hheld)⟩
    · obtain ⟨overflow', hadd, hgrows, hread', hrecorded⟩ := addOverflow_spec sourceId hread ht hw
      rw [hadd]
      exact ⟨_, rfl, .same _, .recorded ht hrecorded, hgrows, hread', fun _ => rfl,
        .inr (hwritable path t hw)⟩

lemma setField_field {F : Type} {key : Text} {fields : List (Text × Json F)}
    (h : isBlank (field fields key) = false) : setField key (field fields key) fields = fields := by
  apply setField_of_lookup
  unfold field at h ⊢
  cases hlookup : fields.lookup key with
  | none =>
    rw [hlookup] at h
    cases h
  | some v => rfl

lemma setField_ne_nil {F : Type} (key : Text) (v : Json F) (fields : List (Text × Json F)) :
    setField key v fields ≠ [] := by
  cases fields with
  | nil => exact List.cons_ne_nil _ _
  | cons kv fields =>
    rw [setField]
    split <;> exact List.cons_ne_nil _ _

/-- The first key was written, and the others are merged after it. -/
lemma FieldsKept.cons {pre key : Text} {v value : Json H.floats.carrier}
    {source target overflow overflow' : List (Text × Json H.floats.carrier)}
    {m : Merged (List (Text × Json H.floats.carrier)) H}
    (h : FieldsKept E writable recordable pre source (setField key value target) overflow' m)
    (changed : Bool) (hkey : key ∉ source.map Prod.fst) (hkept : Kept (field target key) value)
    (hcovered : Covered E (recordedIn overflow') (below pre key) value v)
    (hgrows : Grows overflow overflow')
    (hunchanged : changed = false → setField key value target = target)
    (hquiet : overflow' = overflow ∨ recordable) :
    FieldsKept E writable recordable pre ((key, v) :: source) target overflow
      { m with changed := changed || m.changed } where
  kept k := by
    refine Kept.trans ?_ (h.kept k)
    rw [field_setField]
    split
    · next hk => exact hk ▸ hkept
    · exact .same _
  filled hnil := absurd (h.filled hnil) (setField_ne_nil _ _ _)
  covered kv hkv := by
    rcases List.mem_cons.mp hkv with rfl | hkv
    · have hvalue : field m.value key = value := by
        rw [h.others key hkey, field_setField, if_pos rfl]
      change Covered E (recordedIn m.overflow) (below pre key) (field m.value key) v
      rw [hvalue]
      exact hcovered.mono (fun _ _ hr => h.grows.recordedIn hr) (.same _)
    · exact h.covered kv hkv
  others k hk := by
    rw [List.map_cons, List.mem_cons, not_or] at hk
    change field m.value k = field target k
    rw [h.others k hk.2, field_setField, if_neg hk.1]
  grows := hgrows.trans h.grows
  readable := h.readable
  unchanged hfalse := by
    obtain ⟨hfirst, hrest⟩ := Bool.or_eq_false_iff.mp hfalse
    exact (h.unchanged hrest).trans (hunchanged hfirst)
  quiet := by
    rcases h.quiet with heq | hr
    · change m.overflow = overflow ∨ recordable
      rw [heq]
      exact hquiet
    · exact .inr hr

lemma mergeValue_mixed (sourceId : Nat) {path : Text} {source target : Json H.floats.carrier}
    {overflow : List (Text × Json H.floats.carrier)}
    (hobj : ∀ fields fields', ¬(target = .obj fields ∧ source = .obj fields'))
    (harr : ∀ items items', ¬(target = .arr items ∧ source = .arr items')) :
    mergeValue E sourceId path source target overflow =
      recordUnequal E sourceId path source target overflow := by
  cases source with
  | obj fields =>
    cases target with
    | obj targetFields => exact absurd ⟨rfl, rfl⟩ (hobj targetFields fields)
    | _ => simp only [mergeValue]
  | arr items =>
    cases target with
    | arr targetItems => exact absurd ⟨rfl, rfl⟩ (harr targetItems items)
    | _ => simp only [mergeValue]
  | _ => simp only [mergeValue]

/-- A pair of values that are neither both objects nor both lists. -/
lemma mergeValue_mixed_spec (hwritable : ∀ path t, writable path t → recordable) (sourceId : Nat)
    {path : Text} {source target : Json H.floats.carrier}
    {overflow : List (Text × Json H.floats.carrier)}
    (hobj : ∀ fields fields', ¬(target = .obj fields ∧ source = .obj fields'))
    (harr : ∀ items items', ¬(target = .arr items ∧ source = .arr items'))
    (hsafe : Safe E writable path target source) (hread : Readable writable overflow) :
    ∃ m, mergeValue E sourceId path source target overflow = some m ∧
      ValueKept E writable recordable path source target overflow m := by
  rw [mergeValue_mixed sourceId hobj harr]
  apply recordUnequal_spec sourceId hread hwritable
  cases hsafe with
  | obj => exact absurd ⟨rfl, rfl⟩ (hobj _ _)
  | arr => exact absurd ⟨rfl, rfl⟩ (harr _ _)
  | held _ _ h => exact .inl h
  | recorded h hw => exact .inr ⟨_, h, hw⟩

lemma mergeValue_arr_spec (sourceId : Nat) {path : Text} {items targetItems : List (Json H.floats.carrier)}
    {overflow : List (Text × Json H.floats.carrier)}
    (hsafe : Safe E writable path (.arr targetItems) (.arr items)) (hread : Readable writable overflow) :
    ∃ m, mergeValue E sourceId path (.arr items) (.arr targetItems) overflow = some m ∧
      ValueKept E writable recordable path (.arr items) (.arr targetItems) overflow m := by
  have hlist : ListSafe E targetItems items := by
    cases hsafe with
    | arr h => exact h
    | held _ harr _ => exact absurd ⟨rfl, rfl⟩ (harr targetItems items)
    | recorded h _ => cases h
  obtain ⟨hkept, hcovered, hunchanged⟩ :=
    @mergeListUnique_spec T H E targetItems items path (recordedIn overflow) hlist
  refine ⟨⟨_, _, overflow⟩, ?_, hkept, hcovered, .refl _, hread, hunchanged, .inl rfl⟩
  simp only [mergeValue]
  rfl

mutual

/-- Merging two values of which that of the target is not blank. -/
lemma mergeValue_spec (hwritable : ∀ path t, writable path t → recordable) (sourceId : Nat) :
    ∀ (source : Json H.floats.carrier) {path : Text} {target : Json H.floats.carrier}
      {overflow : List (Text × Json H.floats.carrier)}, WellKeyed source →
      Safe E writable path target source → Readable writable overflow →
      ∃ m, mergeValue E sourceId path source target overflow = some m ∧
        ValueKept E writable recordable path source target overflow m
  | .obj fields, path, target, overflow => fun hkeyed hsafe hread => by
    cases target with
    | obj targetFields =>
      have hfields : ∀ kv ∈ fields, isBlank kv.2 = false → isBlank (field targetFields kv.1) = false →
          Safe E writable (below path kv.1) (field targetFields kv.1) kv.2 := by
        cases hsafe with
        | obj h => exact h
        | held hobj _ _ => exact absurd ⟨rfl, rfl⟩ (hobj targetFields fields)
        | recorded h _ => cases h
      have hparts : (fields.map Prod.fst).Nodup ∧ ∀ kv ∈ fields, WellKeyed kv.2 := by
        cases hkeyed with
        | obj hkeys hvalues => exact ⟨hkeys, hvalues⟩
      obtain ⟨m, hm, hkept⟩ :=
        mergeDictFill_spec hwritable sourceId fields hparts.1 hparts.2 hfields hread
      refine ⟨⟨.obj m.value, m.changed, m.overflow⟩, ?_, .obj hkept.filled hkept.kept, .obj hkept.covered,
        hkept.grows, hkept.readable, fun hfalse => congrArg Json.obj (hkept.unchanged hfalse),
        hkept.quiet⟩
      simp only [mergeValue, hm, Option.map_some]
    | _ => exact mergeValue_mixed_spec hwritable sourceId (by simp) (by simp) hsafe hread
  | .arr items, path, target, overflow => fun _ hsafe hread => by
    cases target with
    | arr targetItems => exact mergeValue_arr_spec sourceId hsafe hread
    | _ => exact mergeValue_mixed_spec hwritable sourceId (by simp) (by simp) hsafe hread
  | .null, _, _, _ => fun _ => mergeValue_mixed_spec hwritable sourceId (by simp) (by simp)
  | .bool _, _, _, _ => fun _ => mergeValue_mixed_spec hwritable sourceId (by simp) (by simp)
  | .int _, _, _, _ => fun _ => mergeValue_mixed_spec hwritable sourceId (by simp) (by simp)
  | .float _, _, _, _ => fun _ => mergeValue_mixed_spec hwritable sourceId (by simp) (by simp)
  | .str _, _, _, _ => fun _ => mergeValue_mixed_spec hwritable sourceId (by simp) (by simp)

/-- Merging an object into another. -/
lemma mergeDictFill_spec (hwritable : ∀ path t, writable path t → recordable) (sourceId : Nat) :
    ∀ (source : List (Text × Json H.floats.carrier)) {pre : Text}
      {target overflow : List (Text × Json H.floats.carrier)}, (source.map Prod.fst).Nodup →
      (∀ kv ∈ source, WellKeyed kv.2) →
      (∀ kv ∈ source, isBlank kv.2 = false → isBlank (field target kv.1) = false →
        Safe E writable (below pre kv.1) (field target kv.1) kv.2) → Readable writable overflow →
      ∃ m, mergeDictFill E sourceId pre source target overflow = some m ∧
        FieldsKept E writable recordable pre source target overflow m
  | [], pre, target, overflow => fun _ _ _ hread => by
    rw [mergeDictFill]
    exact ⟨_, rfl, { kept := fun _ => .same _, filled := id, covered := by simp, others := fun _ _ => rfl
                     grows := .refl _, readable := hread, unchanged := fun _ => rfl, quiet := .inl rfl }⟩
  | (key, v) :: source, pre, target, overflow => fun hkeys hkeyed hsafe hread => by
    rw [List.map_cons, List.nodup_cons] at hkeys
    obtain ⟨hkey, hkeys⟩ := hkeys
    have hkeyed' : ∀ kv ∈ source, WellKeyed kv.2 := fun kv hkv => hkeyed kv (List.mem_cons_of_mem _ hkv)
    have hvalue : WellKeyed v := hkeyed (key, v) List.mem_cons_self
    -- the other keys are as they were
    have hothers : ∀ value : Json H.floats.carrier, ∀ kv ∈ source, isBlank kv.2 = false →
        isBlank (field (setField key value target) kv.1) = false →
        Safe E writable (below pre kv.1) (field (setField key value target) kv.1) kv.2 := by
      intro value kv hkv hfilled
      have hmem : kv.1 ∈ source.map Prod.fst := List.mem_map_of_mem hkv
      have hne : kv.1 ≠ key := fun heq => hkey (heq ▸ hmem)
      rw [field_setField, if_neg hne]
      exact hsafe kv (List.mem_cons_of_mem _ hkv) hfilled
    rw [mergeDictFill]
    by_cases hblank : isBlank v = true
    · rw [if_pos hblank]
      obtain ⟨m, hm, hkept⟩ := mergeDictFill_spec hwritable sourceId source hkeys hkeyed'
        (fun kv hkv => hsafe kv (List.mem_cons_of_mem _ hkv)) hread
      refine ⟨m, hm, { hkept with covered := ?_, others := ?_ }⟩
      · intro kv hkv
        rcases List.mem_cons.mp hkv with rfl | hkv
        · exact .blank hblank
        · exact hkept.covered kv hkv
      · intro k hk
        exact hkept.others k (fun hmem => hk (List.mem_cons_of_mem _ hmem))
    · rw [if_neg hblank]
      by_cases hfill : isBlank (field target key) = true
      · rw [if_pos hfill]
        obtain ⟨m, hm, hkept⟩ := mergeDictFill_spec hwritable sourceId source hkeys hkeyed' (hothers v) hread
        rw [hm]
        exact ⟨_, rfl, hkept.cons true hkey (.blank hfill) (.self hvalue _) (.refl _)
          (fun hfalse => by cases hfalse) (.inl rfl)⟩
      · rw [if_neg hfill]
        have hfilled : isBlank (field target key) = false := by simpa using hfill
        obtain ⟨first, hfirst, hkeptFirst⟩ := mergeValue_spec hwritable sourceId v hvalue
          (hsafe (key, v) List.mem_cons_self (by simpa using hblank) hfilled) hread
        obtain ⟨m, hm, hkept⟩ := mergeDictFill_spec hwritable sourceId source hkeys hkeyed'
          (hothers first.value) hkeptFirst.readable
        rw [hfirst, Option.bind_some, hm]
        refine ⟨_, rfl, hkept.cons first.changed hkey hkeptFirst.kept hkeptFirst.covered
          hkeptFirst.grows ?_ hkeptFirst.quiet⟩
        intro hfalse
        rw [hkeptFirst.unchanged hfalse]
        exact setField_field hfilled

end

end Source

end IpDocket.Clients
