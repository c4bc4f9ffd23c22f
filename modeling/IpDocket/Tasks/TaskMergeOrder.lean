import IpDocket.Tasks.TaskMerge
import Mathlib.Data.List.Perm.Lattice

/-!
# The order of the tasks does not matter

A bucket collects from each of its tasks the same things, whether the task is the first one or a later one.
What the row shows of them depends on which things these are, not on their order.
-/

namespace IpDocket.Tasks.Merge
open IpDocket.Lib

section Lists

lemma mem_dedupe {α β : Type} [DecidableEq β] (key : α → β) (seen : List β) (xs : List α) (k : β) :
    (k ∈ seen ∨ k ∈ (dedupe key seen xs).map key) ↔ k ∈ seen ∨ k ∈ xs.map key := by
  induction xs generalizing seen with
  | nil => rfl
  | cons x xs ih =>
    rw [dedupe]
    split
    · next hseen =>
      rw [ih, List.map_cons, List.mem_cons]
      constructor
      · rintro (h | h)
        · exact .inl h
        · exact .inr (.inr h)
      · rintro (h | rfl | h)
        · exact .inl h
        · exact .inl hseen
        · exact .inr h
    · have hrest := ih (key x :: seen)
      rw [List.mem_cons, or_assoc] at hrest
      rw [List.map_cons, List.map_cons, List.mem_cons, List.mem_cons]
      grind

lemma mem_map_dedupe {α β : Type} [DecidableEq β] (key : α → β) (xs : List α) (k : β) :
    k ∈ (dedupe key [] xs).map key ↔ k ∈ xs.map key := by
  simpa using mem_dedupe key [] xs k

lemma mem_dedupe_id (xs : List Text) (k : Text) : k ∈ dedupe id [] xs ↔ k ∈ xs := by
  simpa using mem_map_dedupe id xs k

lemma nodup_dedupe {α β : Type} [DecidableEq β] (key : α → β) (seen : List β) (xs : List α) :
    ((dedupe key seen xs).map key).Nodup ∧ ∀ k ∈ (dedupe key seen xs).map key, k ∉ seen := by
  induction xs generalizing seen with
  | nil => exact ⟨List.nodup_nil, fun k hk => absurd hk List.not_mem_nil⟩
  | cons x xs ih =>
    rw [dedupe]
    split
    · exact ih seen
    · next hnew =>
      obtain ⟨hnodup, hseen⟩ := ih (key x :: seen)
      rw [List.map_cons, List.nodup_cons, List.forall_mem_cons]
      exact ⟨⟨fun hmem => hseen _ hmem List.mem_cons_self, hnodup⟩, hnew,
        fun k hk hmem => hseen k hk (List.mem_cons_of_mem _ hmem)⟩

lemma mem_addNew (values more : List Text) (t : Text) : t ∈ addNew values more ↔ t ∈ values ∨ t ∈ more := by
  induction more generalizing values with
  | nil => simp [addNew]
  | cons value rest ih =>
    rw [addNew]
    split
    · next hmem =>
      rw [ih, List.mem_cons]
      constructor
      · rintro (h | h)
        · exact .inl h
        · exact .inr (.inr h)
      · rintro (h | rfl | h)
        · exact .inl h
        · exact .inl hmem
        · exact .inr h
    · rw [ih, List.mem_append, List.mem_singleton, List.mem_cons, or_assoc]

lemma mem_present (t u : Text) : u ∈ present t ↔ u = t ∧ t ≠ [] := by
  unfold present
  by_cases h : t = []
  · simp [h]
  · simp [h]

lemma foldl_min_spec {α : Type} [LinearOrder α] (l : List α) (t : α) :
    l.foldl min t ∈ t :: l ∧ ∀ u ∈ t :: l, l.foldl min t ≤ u := by
  induction l generalizing t with
  | nil => simp
  | cons u l ih =>
    obtain ⟨hmem, hle⟩ := ih (min t u)
    rw [List.foldl_cons]
    have hmin := hle (min t u) List.mem_cons_self
    constructor
    · obtain heq | hmem := List.mem_cons.mp hmem
      · rw [heq]
        obtain h | h := min_choice t u
        · rw [h]
          exact List.mem_cons_self
        · rw [h]
          exact List.mem_cons_of_mem _ List.mem_cons_self
      · exact List.mem_cons_of_mem _ (List.mem_cons_of_mem _ hmem)
    · intro v hv
      rw [List.mem_cons, List.mem_cons] at hv
      obtain rfl | rfl | hv := hv
      · exact hmin.trans (min_le_left _ _)
      · exact hmin.trans (min_le_right _ _)
      · exact hle v (List.mem_cons_of_mem _ hv)

lemma minText_eq_some_iff (l : List Text) (t : Text) :
    minText l = some t ↔ t ∈ l ∧ ∀ u ∈ l, t ≤ u := by
  cases l with
  | nil => simp [minText]
  | cons u l =>
    obtain ⟨hmem, hle⟩ := foldl_min_spec l u
    rw [minText, Option.some.injEq]
    constructor
    · rintro rfl
      exact ⟨hmem, hle⟩
    · rintro ⟨ht, hleast⟩
      exact le_antisymm (hle t ht) (hleast _ hmem)

lemma maxText_eq_some_iff (l : List Text) (t : Text) :
    maxText l = some t ↔ t ∈ l ∧ ∀ u ∈ l, u ≤ t := by
  cases l with
  | nil => simp [maxText]
  | cons u l =>
    -- the greatest text is the least one for the opposite order
    obtain ⟨hmem, hle⟩ : l.foldl max u ∈ u :: l ∧ ∀ v ∈ u :: l, v ≤ l.foldl max u :=
      @foldl_min_spec Textᵒᵈ _ l u
    rw [maxText, Option.some.injEq]
    constructor
    · rintro rfl
      exact ⟨hmem, hle⟩
    · rintro ⟨ht, hgreatest⟩
      exact le_antisymm (hgreatest _ hmem) (hle t ht)

/-- Lists with the same elements have the same least text. -/
lemma minText_congr {l l' : List Text} (h : ∀ t, t ∈ l ↔ t ∈ l') : minText l = minText l' := by
  apply Option.ext
  intro t
  rw [minText_eq_some_iff, minText_eq_some_iff]
  simp only [h]

lemma maxText_congr {l l' : List Text} (h : ∀ t, t ∈ l ↔ t ∈ l') : maxText l = maxText l' := by
  apply Option.ext
  intro t
  rw [maxText_eq_some_iff, maxText_eq_some_iff]
  simp only [h]

end Lists

section Collected

variable {O : Type} (V : Objects O)

/-- What a bucket collects of each task. -/
inductive Feature
  | status
  | label
  | type
  | owner
  | due
  | finalDue
  | internalDue
  | done
  | attorney
  | handler
  | manager
  | filterId

/-- The keys of the owners of a task: of its rows, or of the owner without a row. -/
def ownerKeys (task : TaskRow O) : List Text :=
  if task.owners = [] then
    present (if strip V task.ownerId = [] then strip V task.ownerName else strip V task.ownerId)
  else task.owners.map (staffKey V)

/-- The feature of one task. -/
def given (feature : Feature) (task : TaskRow O) : List Text :=
  match feature with
  | .status => [statusOf V task]
  | .label => categoryLabelsFromValue V task.categoryDisplay
  | .type => categoryTypesFromValue V task.categoryType
  | .owner => ownerKeys V task
  | .due => present (strip V task.dueDate)
  | .finalDue => present (strip V task.finalDueDate)
  | .internalDue => present (strip V task.internalDueDate)
  | .done => present (strip V task.doneDate)
  | .attorney => task.attorneys.map (staffKey V)
  | .handler => task.handlers.map (staffKey V)
  | .manager => task.managers.map (staffKey V)
  | .filterId => task.workflowAssigneeFilterIds.map (strip V)

/-- The feature as a bucket has collected it. -/
def collected (feature : Feature) (bucket : Bucket O) : List Text :=
  match feature with
  | .status => bucket.statuses
  | .label => bucket.categoryLabels
  | .type => bucket.categoryTypes
  | .owner => bucket.ownerRows.map (staffKey V)
  | .due => bucket.dueValues
  | .finalDue => bucket.finalDueValues
  | .internalDue => bucket.internalDueValues
  | .done => bucket.doneValues
  | .attorney => bucket.attorneysRows.map (staffKey V)
  | .handler => bucket.handlersRows.map (staffKey V)
  | .manager => bucket.managersRows.map (staffKey V)
  | .filterId => bucket.workflowAssigneeFilterIds.map (strip V)

/-- The bucket has collected what the tasks give. -/
def Collects (group : List (TaskRow O)) (bucket : Bucket O) : Prop :=
  ∀ feature k, k ≠ [] → (k ∈ collected V feature bucket ↔ ∃ t ∈ group, k ∈ given V feature t)

variable {V}

lemma strip_strip (v : Value O) : strip V (.text (strip V v)) = strip V v := by
  unfold strip
  exact pyStrip_of_stripped (stripped_pyStrip _)

lemma staffKey_ownerRow (task : TaskRow O) : staffKey V (ownerRow V task) =
    if strip V task.ownerId = [] then strip V task.ownerName else strip V task.ownerId := by
  have hnone : strip V (.none : Value O) = [] := rfl
  unfold staffKey ownerRow
  dsimp only
  by_cases hid : strip V task.ownerId = []
  · rw [if_pos hid, if_pos hid, if_pos hnone]
    by_cases hname : strip V task.ownerName = []
    · rw [if_pos hname, hid, hname]
      rfl
    · rw [if_neg hname, strip_strip]
  · rw [if_neg hid, if_neg hid, strip_strip, if_neg hid]

/-- A known key is the key of one of the rows. -/
lemma mem_of_isKnown {rows : List (StaffRow O)} {v : Value O} (hne : strip V v ≠ [])
    (h : isKnown V (strip V v) rows = true) : strip V v ∈ rows.map (staffKey V) := by
  unfold isKnown at h
  obtain ⟨row, hrow, hknown⟩ := List.any_eq_true.mp h
  rw [List.mem_map]
  refine ⟨row, hrow, ?_⟩
  have htext : ∀ (w : Value O) (t : Text), w = .text t → decide (t = strip V v) = true →
      strip V w = strip V v := by
    rintro _ t rfl ht
    have heq : t = strip V v := of_decide_eq_true ht
    rw [heq, strip_strip]
  unfold staffKey
  by_cases hid : isTrue V row.id = true
  · rw [if_pos hid] at hknown
    split at hknown
    · next t ht => rw [htext row.id t ht hknown, if_neg hne]
    · cases hknown
  · have hempty : strip V row.id = [] := by
      unfold strip strOr
      cases hvalue : row.id with
      | none => rfl
      | text t =>
        have ht : t = [] := by simpa [isTrue, hvalue] using hid
        rw [ht]
        rfl
      | other o =>
        have ho : V.truthy o = false := by simpa [isTrue, hvalue] using hid
        simp only [ho]
        rfl
    rw [if_neg hid] at hknown
    rw [if_pos hempty]
    split at hknown
    · split at hknown
      · next t ht => exact htext row.name t ht hknown
      · cases hknown
    · exact absurd (of_decide_eq_true hknown) hne

lemma collected_firstBucket (feature : Feature) (task : TaskRow O) {k : Text} (hk : k ≠ []) :
    k ∈ collected V feature (firstBucket V task) ↔ k ∈ given V feature task := by
  cases feature with
  | label => simp [collected, given, firstBucket, mem_addNew]
  | type => simp [collected, given, firstBucket, mem_addNew]
  | owner =>
    simp only [collected, given, firstBucket, ownerKeys]
    by_cases howners : task.owners = []
    · rw [if_pos howners, if_pos howners, mem_present]
      split
      · next hgiven =>
        rw [List.map_singleton, List.mem_singleton, staffKey_ownerRow]
        constructor
        · exact fun heq => ⟨heq, heq ▸ hk⟩
        · exact And.left
      · next hnone =>
        rw [not_or, not_not, not_not] at hnone
        simp [hnone.1, hnone.2]
    · rw [if_neg howners, if_neg howners]
  | _ => rfl

lemma collected_addTask (feature : Feature) (bucket : Bucket O) (task : TaskRow O) {k : Text} (hk : k ≠ []) :
    k ∈ collected V feature (addTask V bucket task) ↔
      k ∈ collected V feature bucket ∨ k ∈ given V feature task := by
  cases feature with
  | label => exact mem_addNew _ _ _
  | type => exact mem_addNew _ _ _
  | owner =>
    simp only [collected, given, addTask, ownerKeys]
    by_cases howners : task.owners = []
    · have hkey : ∃ v, (if strip V task.ownerId = [] then strip V task.ownerName else strip V task.ownerId) =
          strip V v := by
        by_cases hid : strip V task.ownerId = []
        · exact ⟨_, if_pos hid⟩
        · exact ⟨_, if_neg hid⟩
      obtain ⟨v, hv⟩ := hkey
      have hrow := staffKey_ownerRow (V := V) task
      rw [hv] at hrow
      rw [if_neg (not_not.mpr howners), if_pos howners, mem_present, hv]
      by_cases hnew : (strip V task.ownerName ≠ [] ∨ strip V task.ownerId ≠ []) ∧
          isKnown V (strip V v) bucket.ownerRows = false
      · rw [if_pos hnew, List.map_append, List.mem_append, List.map_singleton, List.mem_singleton, hrow]
        apply or_congr_right
        constructor
        · exact fun heq => ⟨heq, heq ▸ hk⟩
        · exact And.left
      · rw [if_neg hnew]
        constructor
        · exact .inl
        · rintro (hmem | ⟨rfl, hne⟩)
          · exact hmem
          -- there is an owner, so that its key is known
          · have hgiven : strip V task.ownerName ≠ [] ∨ strip V task.ownerId ≠ [] := by
              by_contra hnone
              rw [not_or, not_not, not_not] at hnone
              rw [if_pos hnone.2] at hv
              exact hne (hv ▸ hnone.1)
            rw [not_and, Bool.not_eq_false] at hnew
            exact mem_of_isKnown hne (hnew hgiven)
    · rw [if_pos howners, if_neg howners, List.map_append, List.mem_append]
  | attorney => simp [collected, given, addTask, List.map_append]
  | handler => simp [collected, given, addTask, List.map_append]
  | manager => simp [collected, given, addTask, List.map_append]
  | filterId => simp [collected, given, addTask, List.map_append]
  | _ => exact List.mem_append

end Collected

section Shown

variable {O : Type} {V : Objects O}

lemma mem_nonEmptyIsoValues (l : List Text) (u : Text) :
    u ∈ nonEmptyIsoValues l ↔ u ≠ [] ∧ ∃ t ∈ l, t ≠ [] ∧ pyStrip t = u := by
  unfold nonEmptyIsoValues
  rw [List.mem_filter, List.mem_map, decide_eq_true_iff, and_comm]
  apply and_congr_right
  intro hu
  apply exists_congr
  intro t
  apply and_congr_right
  intro _
  constructor
  · intro h
    refine ⟨?_, h⟩
    rintro rfl
    exact hu h.symm
  · exact And.right

lemma nonEmptyIsoValues_congr {l l' : List Text} (h : ∀ k, k ≠ [] → (k ∈ l ↔ k ∈ l')) (u : Text) :
    u ∈ nonEmptyIsoValues l ↔ u ∈ nonEmptyIsoValues l' := by
  rw [mem_nonEmptyIsoValues, mem_nonEmptyIsoValues]
  apply and_congr_right
  intro _
  apply exists_congr
  intro t
  constructor
  · exact fun ⟨ht, hne, hu⟩ => ⟨(h t hne).mp ht, hne, hu⟩
  · exact fun ⟨ht, hne, hu⟩ => ⟨(h t hne).mpr ht, hne, hu⟩

lemma mergeTaskStatuses_congr {l l' : List Text} (h : ∀ k, k ≠ [] → (k ∈ l ↔ k ∈ l')) :
    mergeTaskStatuses V l = mergeTaskStatuses V l' := by
  have hmem : ∀ s, s ∈ (nonEmptyIsoValues l).map V.lower ↔ s ∈ (nonEmptyIsoValues l').map V.lower := by
    intro s
    rw [List.mem_map, List.mem_map]
    simp only [nonEmptyIsoValues_congr h]
  unfold nonEmptyIsoValues at hmem
  unfold mergeTaskStatuses
  simp only [hmem]

lemma mem_keys_dedupeStaffRows (rows : List (StaffRow O)) (k : Text) :
    k ∈ (dedupeStaffRows V rows).map (staffKey V) ↔ k ≠ [] ∧ k ∈ rows.map (staffKey V) := by
  have hkey : ∀ row : StaffRow O, staffKey V
      { id := if strip V row.id = [] then .none else .text (strip V row.id)
        name := .text (strip V row.name) } = staffKey V row := by
    intro row
    have hnone : strip V (.none : Value O) = [] := rfl
    unfold staffKey
    by_cases hid : strip V row.id = []
    · simp only [hid, if_true, hnone, strip_strip]
    · simp only [if_neg hid, strip_strip]
  have hsame : (dedupeStaffRows V rows).map (staffKey V) =
      (dedupe (staffKey V) [] (rows.filter (fun row => staffKey V row ≠ []))).map (staffKey V) := by
    unfold dedupeStaffRows
    rw [List.map_map]
    exact List.map_congr_left (fun row _ => hkey row)
  rw [hsame, mem_map_dedupe, List.mem_map, List.mem_map]
  constructor
  · rintro ⟨row, hrow, rfl⟩
    obtain ⟨hrow, hne⟩ := List.mem_filter.mp hrow
    exact ⟨of_decide_eq_true hne, row, hrow, rfl⟩
  · rintro ⟨hne, row, hrow, rfl⟩
    exact ⟨row, List.mem_filter.mpr ⟨hrow, decide_eq_true hne⟩, rfl⟩

lemma mem_typesOfLabels (types labels : List Text) (hlabels : [] ∉ labels) (t : Text) :
    t ∈ typesOfLabels types labels ↔
      t ∈ types ∨ "HYBRID".toList ∈ labels ∧ t ∈ ["mgmt".toList, "work".toList] := by
  induction labels generalizing types with
  | nil => simp [typesOfLabels]
  | cons label labels ih =>
    rw [List.mem_cons, not_or] at hlabels
    rw [typesOfLabels]
    split
    · next hhybrid =>
      rw [ih _ hlabels.2, mem_addNew, hhybrid, List.mem_cons]
      grind
    · next hother =>
      have hnone : labelToType label = none := if_neg (Ne.symm hlabels.1)
      have hmem : "HYBRID".toList ∈ label :: labels ↔ "HYBRID".toList ∈ labels := by
        rw [List.mem_cons]
        exact or_iff_right (Ne.symm hother)
      rw [ih _ hlabels.2, hnone, Option.toList_none, addNew, hmem]

/-- The type and the label of a group depend on which types and labels were collected. -/
lemma categoryOf_congr {b b' : Bucket O}
    (htypes : ∀ k, k ≠ [] → (k ∈ b.categoryTypes ↔ k ∈ b'.categoryTypes))
    (hlabels : ∀ k, k ≠ [] → (k ∈ b.categoryLabels ↔ k ∈ b'.categoryLabels)) :
    categoryOf b = categoryOf b' := by
  have hlabel : ∀ k, k ∈ b.categoryLabels.filter (· ≠ []) ↔ k ∈ b'.categoryLabels.filter (· ≠ []) := by
    intro k
    rw [List.mem_filter, List.mem_filter, decide_eq_true_iff, and_comm, and_comm (a := k ∈ b'.categoryLabels)]
    exact and_congr_right (hlabels k)
  have hgiven : ∀ k, k ∈ b.categoryTypes.filter (fun t => t ∈ ["mgmt".toList, "work".toList]) ↔
      k ∈ b'.categoryTypes.filter (fun t => t ∈ ["mgmt".toList, "work".toList]) := by
    intro k
    rw [List.mem_filter, List.mem_filter, decide_eq_true_iff]
    constructor
    · rintro ⟨hmem, hk⟩
      exact ⟨(htypes k (by rintro rfl; simp at hk)).mp hmem, hk⟩
    · rintro ⟨hmem, hk⟩
      exact ⟨(htypes k (by rintro rfl; simp at hk)).mpr hmem, hk⟩
  have hnil : ∀ b : Bucket O, [] ∉ b.categoryLabels.filter (· ≠ []) := by
    intro b hmem
    exact of_decide_eq_true (List.mem_filter.mp hmem).2 rfl
  have hlabelsNil := hnil b
  have hlabelsNil' := hnil b'
  unfold categoryOf
  generalize b.categoryLabels.filter (· ≠ []) = labels at hlabel hlabelsNil ⊢
  generalize b'.categoryLabels.filter (· ≠ []) = labels' at hlabel hlabelsNil' ⊢
  have htype : ∀ k,
      k ∈ typesOfLabels (b.categoryTypes.filter (fun t => t ∈ ["mgmt".toList, "work".toList])) labels ↔
      k ∈ typesOfLabels (b'.categoryTypes.filter (fun t => t ∈ ["mgmt".toList, "work".toList])) labels' := by
    intro k
    rw [mem_typesOfLabels _ _ hlabelsNil, mem_typesOfLabels _ _ hlabelsNil', hgiven, hlabel]
  dsimp only
  generalize typesOfLabels (b.categoryTypes.filter (fun t => t ∈ ["mgmt".toList, "work".toList])) labels =
    types at htype ⊢
  generalize typesOfLabels (b'.categoryTypes.filter (fun t => t ∈ ["mgmt".toList, "work".toList])) labels' =
    types' at htype ⊢
  have hempty : ∀ {l l' : List Text}, (∀ k, k ∈ l ↔ k ∈ l') → (l ≠ [] ↔ l' ≠ []) := by
    intro l l' h
    rw [not_iff_not, List.eq_nil_iff_forall_not_mem, List.eq_nil_iff_forall_not_mem]
    simp only [h]
  have hperm : (dedupe id [] labels).Perm (dedupe id [] labels') := by
    rw [List.perm_ext_iff_of_nodup]
    · intro k
      rw [mem_dedupe_id, mem_dedupe_id, hlabel]
    · simpa using (nodup_dedupe id [] labels).1
    · simpa using (nodup_dedupe id [] labels').1
  have hhybrid : dedupe id [] labels = ["HYBRID".toList] ↔ dedupe id [] labels' = ["HYBRID".toList] := by
    rw [← List.perm_singleton, ← List.perm_singleton]
    exact ⟨fun h => hperm.symm.trans h, fun h => hperm.trans h⟩
  simp only [hempty htype, hempty hlabel, htype, hperm.length_eq, hhybrid]
  split
  · rfl
  · split
    · split
      · rfl
      -- one label is left, the same one for both
      · next hmany =>
        rw [not_or, not_lt] at hmany
        have hshort := hperm.length_eq
        cases hlast : dedupe id [] labels' with
        | nil =>
          rw [hlast] at hperm
          rw [List.perm_nil.mp hperm]
        | cons x rest =>
          rw [hlast] at hmany hperm
          obtain rfl : rest = [] := List.eq_nil_of_length_eq_zero (by simpa using hmany.1)
          rw [List.perm_singleton.mp hperm]
    · rfl

variable (V) in
/-- Rows that show the same. -/
structure SameGroup (r r' : MergedTask O) : Prop where
  status : r.status = r'.status
  dueDate : r.dueDate = r'.dueDate
  finalDueDate : r.finalDueDate = r'.finalDueDate
  internalDueDate : r.internalDueDate = r'.internalDueDate
  doneDate : r.doneDate = r'.doneDate
  owners : ∀ k, k ∈ r.owners.map (staffKey V) ↔ k ∈ r'.owners.map (staffKey V)
  attorneys : ∀ k, k ∈ r.attorneys.map (staffKey V) ↔ k ∈ r'.attorneys.map (staffKey V)
  handlers : ∀ k, k ∈ r.handlers.map (staffKey V) ↔ k ∈ r'.handlers.map (staffKey V)
  managers : ∀ k, k ∈ r.managers.map (staffKey V) ↔ k ∈ r'.managers.map (staffKey V)
  filterIds : ∀ k, k ∈ r.workflowAssigneeFilterIds ↔ k ∈ r'.workflowAssigneeFilterIds
  categoryType : r.categoryType = r'.categoryType

/-- Buckets with the same contents are shown alike. -/
lemma sameGroup_finalize {b b' : Bucket O}
    (h : ∀ feature k, k ≠ [] → (k ∈ collected V feature b ↔ k ∈ collected V feature b')) :
    SameGroup V (finalizeMergedTaskBucket V b) (finalizeMergedTaskBucket V b') := by
  have hrows : ∀ {rows rows' : List (StaffRow O)},
      (∀ k, k ≠ [] → (k ∈ rows.map (staffKey V) ↔ k ∈ rows'.map (staffKey V))) → ∀ k,
        k ∈ (dedupeStaffRows V rows).map (staffKey V) ↔ k ∈ (dedupeStaffRows V rows').map (staffKey V) := by
    intro rows rows' hkeys k
    rw [mem_keys_dedupeStaffRows, mem_keys_dedupeStaffRows]
    exact and_congr_right (hkeys k)
  refine ⟨mergeTaskStatuses_congr (h .status), minText_congr (nonEmptyIsoValues_congr (h .due)),
    minText_congr (nonEmptyIsoValues_congr (h .finalDue)),
    minText_congr (nonEmptyIsoValues_congr (h .internalDue)),
    maxText_congr (nonEmptyIsoValues_congr (h .done)), hrows (h .owner), hrows (h .attorney),
    hrows (h .handler), hrows (h .manager), ?_, congrArg Prod.fst (categoryOf_congr (h .type) (h .label))⟩
  intro k
  have hids := h .filterId k
  simp only [finalizeMergedTaskBucket, collected] at hids ⊢
  rw [mem_dedupe_id, mem_dedupe_id, List.mem_filter, List.mem_filter, decide_eq_true_iff, and_comm,
    and_comm (a := k ∈ b'.workflowAssigneeFilterIds.map (strip V))]
  exact and_congr_right hids

variable (V) in
/-- A row shows what its tasks give: the status and the type of all of theirs, the least and the
greatest of their dates, and their keys and ids. -/
structure Summarises (group : List (TaskRow O)) (r : MergedTask O) : Prop where
  status : r.status = mergeTaskStatuses V (group.flatMap (given V .status))
  categoryType : ∀ b : Bucket O, b.categoryTypes = group.flatMap (given V .type) →
    b.categoryLabels = group.flatMap (given V .label) → r.categoryType = (categoryOf b).1
  owners : ∀ k, k ∈ r.owners.map (staffKey V) ↔ k ≠ [] ∧ k ∈ group.flatMap (given V .owner)
  attorneys : ∀ k, k ∈ r.attorneys.map (staffKey V) ↔ k ≠ [] ∧ k ∈ group.flatMap (given V .attorney)
  handlers : ∀ k, k ∈ r.handlers.map (staffKey V) ↔ k ≠ [] ∧ k ∈ group.flatMap (given V .handler)
  managers : ∀ k, k ∈ r.managers.map (staffKey V) ↔ k ≠ [] ∧ k ∈ group.flatMap (given V .manager)
  filterIds : ∀ k, k ∈ r.workflowAssigneeFilterIds ↔ k ≠ [] ∧ k ∈ group.flatMap (given V .filterId)
  dueDate : r.dueDate = minText (group.flatMap (given V .due))
  finalDueDate : r.finalDueDate = minText (group.flatMap (given V .finalDue))
  internalDueDate : r.internalDueDate = minText (group.flatMap (given V .internalDue))
  doneDate : r.doneDate = maxText (group.flatMap (given V .done))

/-- The dates that were collected are the dates of the tasks. -/
lemma mem_collected_dates {group : List (TaskRow O)} {b : Bucket O} (h : Collects V group b)
    (feature : Feature) (date : TaskRow O → Value O)
    (hdate : ∀ t, given V feature t = present (strip V (date t))) (u : Text) :
    u ∈ nonEmptyIsoValues (collected V feature b) ↔ u ∈ group.flatMap (given V feature) := by
  rw [mem_nonEmptyIsoValues, List.mem_flatMap]
  have hgiven : ∀ t : TaskRow O, ∀ v ∈ given V feature t, v ≠ [] ∧ pyStrip v = v := by
    intro t v hv
    rw [hdate, mem_present] at hv
    rw [hv.1]
    exact ⟨hv.2, pyStrip_of_stripped (stripped_pyStrip _)⟩
  constructor
  · rintro ⟨-, v, hv, hne, rfl⟩
    obtain ⟨t, ht, hv⟩ := (h feature v hne).mp hv
    rw [(hgiven t v hv).2]
    exact ⟨t, ht, hv⟩
  · rintro ⟨t, ht, hu⟩
    obtain ⟨hne, hstrip⟩ := hgiven t u hu
    exact ⟨hne, u, (h feature u hne).mpr ⟨t, ht, hu⟩, hne, hstrip⟩

/-- The keys of the rows that are shown are those that the tasks give. -/
lemma keys_of_collects {group : List (TaskRow O)} {b : Bucket O} (h : Collects V group b)
    (feature : Feature) {rows : List (StaffRow O)}
    (hrows : ∀ k, (k ∈ collected V feature b) = (k ∈ rows.map (staffKey V))) (k : Text) :
    k ∈ (dedupeStaffRows V rows).map (staffKey V) ↔
      k ≠ [] ∧ k ∈ group.flatMap (given V feature) := by
  rw [mem_keys_dedupeStaffRows, List.mem_flatMap]
  apply and_congr_right
  intro hk
  rw [← hrows, h feature k hk]

lemma summarises_finalize {group : List (TaskRow O)} {b : Bucket O} (h : Collects V group b) :
    Summarises V group (finalizeMergedTaskBucket V b) where
  status := by
    refine mergeTaskStatuses_congr (fun k hk => ?_)
    rw [List.mem_flatMap, ← h .status k hk]
    rfl
  categoryType := by
    intro b' htypes hlabels
    refine congrArg Prod.fst (categoryOf_congr (fun k hk => ?_) (fun k hk => ?_))
    · rw [htypes, List.mem_flatMap, ← h .type k hk]
      rfl
    · rw [hlabels, List.mem_flatMap, ← h .label k hk]
      rfl
  owners := keys_of_collects h .owner (fun _ => rfl)
  attorneys := keys_of_collects h .attorney (fun _ => rfl)
  handlers := keys_of_collects h .handler (fun _ => rfl)
  managers := keys_of_collects h .manager (fun _ => rfl)
  filterIds := by
    intro k
    simp only [finalizeMergedTaskBucket]
    rw [mem_dedupe_id, List.mem_filter, decide_eq_true_iff, and_comm, List.mem_flatMap]
    exact and_congr_right (fun hk => h .filterId k hk)
  dueDate := minText_congr (mem_collected_dates h .due TaskRow.dueDate (fun _ => rfl))
  finalDueDate := minText_congr (mem_collected_dates h .finalDue TaskRow.finalDueDate (fun _ => rfl))
  internalDueDate :=
    minText_congr (mem_collected_dates h .internalDue TaskRow.internalDueDate (fun _ => rfl))
  doneDate := maxText_congr (mem_collected_dates h .done TaskRow.doneDate (fun _ => rfl))

end Shown

section Groups

variable {O : Type} (V : Objects O)

/-! ### The groups -/

/-- The tasks of a group. -/
def members (key : Text) (tasks : List (TaskRow O)) : List (TaskRow O) :=
  tasks.filter (fun task => groupKey V task = key)

/-- The groups with the rows that are shown for them. -/
def mergedGroups (tasks : List (TaskRow O)) : List (Text × MergedTask O) :=
  (groupTasks V tasks).map (fun group => (group.1, finalizeMergedTaskBucket V group.2))

/-- The keys are those of the tasks, and each bucket has collected what the tasks of its group give. -/
structure Grouped (tasks : List (TaskRow O)) (grouped : List (Text × Bucket O)) : Prop where
  distinct : (grouped.map Prod.fst).Nodup
  keys : ∀ key, key ∈ grouped.map Prod.fst ↔ ∃ task ∈ tasks, groupKey V task = key
  collects : ∀ key bucket, (key, bucket) ∈ grouped → Collects V (members V key tasks) bucket

variable {V}

lemma keys_mergeTaskRow (task : TaskRow O) (grouped : List (Text × Bucket O)) :
    (mergeTaskRow V task grouped).map Prod.fst = if groupKey V task ∈ grouped.map Prod.fst then
      grouped.map Prod.fst else grouped.map Prod.fst ++ [groupKey V task] := by
  induction grouped with
  | nil => rfl
  | cons group rest ih =>
    obtain ⟨key, bucket⟩ := group
    rw [mergeTaskRow]
    by_cases hkey : key = groupKey V task
    · rw [if_pos hkey, if_pos (by simp [hkey])]
      rfl
    · have hiff : groupKey V task ∈ ((key, bucket) :: rest).map Prod.fst ↔
          groupKey V task ∈ rest.map Prod.fst := by
        rw [List.map_cons, List.mem_cons]
        exact or_iff_right (Ne.symm hkey)
      rw [if_neg hkey, List.map_cons, ih]
      by_cases hmem : groupKey V task ∈ rest.map Prod.fst
      · rw [if_pos hmem, if_pos (hiff.mpr hmem)]
        rfl
      · rw [if_neg hmem, if_neg (fun h => hmem (hiff.mp h))]
        rfl

/-- A bucket afterwards is an old one of another key, an old one with the task, or a new one. -/
lemma mem_mergeTaskRow {task : TaskRow O} {grouped : List (Text × Bucket O)} {key : Text} {bucket : Bucket O}
    (hdistinct : (grouped.map Prod.fst).Nodup) (h : (key, bucket) ∈ mergeTaskRow V task grouped) :
    (key ≠ groupKey V task ∧ (key, bucket) ∈ grouped) ∨
      (key = groupKey V task ∧ ∃ old, (key, old) ∈ grouped ∧ bucket = addTask V old task) ∨
      (key = groupKey V task ∧ key ∉ grouped.map Prod.fst ∧ bucket = firstBucket V task) := by
  induction grouped with
  | nil =>
    obtain ⟨rfl, rfl⟩ := Prod.mk.inj (List.mem_singleton.mp h)
    exact .inr (.inr ⟨rfl, List.not_mem_nil, rfl⟩)
  | cons group rest ih =>
    obtain ⟨key', bucket'⟩ := group
    rw [List.map_cons, List.nodup_cons] at hdistinct
    rw [mergeTaskRow] at h
    split at h
    · next hkey =>
      obtain heq | hmem := List.mem_cons.mp h
      · obtain ⟨rfl, rfl⟩ := Prod.mk.inj heq
        exact .inr (.inl ⟨hkey, bucket', List.mem_cons_self, rfl⟩)
      · left
        refine ⟨?_, List.mem_cons_of_mem _ hmem⟩
        intro heq
        apply hdistinct.1
        rw [hkey, ← heq]
        exact List.mem_map.mpr ⟨(key, bucket), hmem, rfl⟩
    · next hkey =>
      obtain heq | hmem := List.mem_cons.mp h
      · obtain ⟨rfl, rfl⟩ := Prod.mk.inj heq
        exact .inl ⟨hkey, List.mem_cons_self⟩
      · obtain ⟨hne, hmem⟩ | ⟨heq, old, hold, hbucket⟩ | ⟨heq, hnew, hbucket⟩ := ih hdistinct.2 hmem
        · exact .inl ⟨hne, List.mem_cons_of_mem _ hmem⟩
        · exact .inr (.inl ⟨heq, old, List.mem_cons_of_mem _ hold, hbucket⟩)
        · refine .inr (.inr ⟨heq, ?_, hbucket⟩)
          rw [List.map_cons, List.mem_cons, not_or]
          exact ⟨fun h => hkey (h.symm.trans heq), hnew⟩

/-- One task more. -/
lemma Grouped.step {tasks : List (TaskRow O)} {grouped : List (Text × Bucket O)} (h : Grouped V tasks grouped)
    (task : TaskRow O) : Grouped V (tasks ++ [task]) (mergeTaskRow V task grouped) := by
  have hmembers : ∀ key, members V key (tasks ++ [task]) =
      members V key tasks ++ if groupKey V task = key then [task] else [] := by
    intro key
    unfold members
    rw [List.filter_append]
    congr 1
    by_cases hkey : groupKey V task = key
    · simp [hkey]
    · simp [hkey]
  constructor
  · rw [keys_mergeTaskRow]
    split
    · exact h.distinct
    · next hnew =>
      rw [List.nodup_append]
      refine ⟨h.distinct, List.nodup_singleton _, ?_⟩
      rintro a ha b hb rfl
      exact hnew (List.mem_singleton.mp hb ▸ ha)
  · intro key
    simp only [List.mem_append, List.mem_singleton, or_and_right, exists_or, exists_eq_left, ← h.keys]
    rw [keys_mergeTaskRow]
    split
    · next hold =>
      constructor
      · exact .inl
      · rintro (hmem | rfl)
        · exact hmem
        · exact hold
    · rw [List.mem_append, List.mem_singleton]
      exact or_congr_right eq_comm
  · intro key bucket hmem feature k hk
    rw [hmembers]
    obtain ⟨hne, hold⟩ | ⟨rfl, old, hold, rfl⟩ | ⟨rfl, hnew, rfl⟩ := mem_mergeTaskRow h.distinct hmem
    · rw [if_neg (Ne.symm hne), List.append_nil]
      exact h.collects key bucket hold feature k hk
    · rw [if_pos rfl, collected_addTask feature old task hk, h.collects _ old hold feature k hk]
      simp [or_and_right, exists_or]
    · have hnone : members V (groupKey V task) tasks = [] := by
        unfold members
        rw [List.filter_eq_nil_iff]
        intro t ht hkey
        exact hnew ((h.keys _).mpr ⟨t, ht, of_decide_eq_true hkey⟩)
      rw [if_pos rfl, hnone, collected_firstBucket feature task hk]
      simp

/-- The loop over all tasks. -/
lemma grouped_groupTasks (tasks : List (TaskRow O)) : Grouped V tasks (groupTasks V tasks) := by
  unfold groupTasks
  induction tasks using List.reverseRecOn with
  | nil =>
    refine ⟨List.nodup_nil, ?_, ?_⟩
    · simp
    · intro key bucket hmem
      cases hmem
  | append_singleton tasks task ih =>
    rw [List.foldl_append]
    exact ih.step task

variable (V) in
/-- The tasks are grouped by their keys, each one in one group, and another order of the tasks gives the same
groups with the same contents. -/
structure OrderFree (tasks tasks' : List (TaskRow O)) : Prop where
  rows : mergeDocketAutogenTasks V tasks = (mergedGroups V tasks).map Prod.snd
  distinct : ((mergedGroups V tasks).map Prod.fst).Nodup
  covers : ∀ task ∈ tasks, groupKey V task ∈ (mergedGroups V tasks).map Prod.fst
  inhabited : ∀ group ∈ mergedGroups V tasks, members V group.1 tasks ≠ []
  sameKeys : ((mergedGroups V tasks).map Prod.fst).Perm ((mergedGroups V tasks').map Prod.fst)
  sameMembers : ∀ key, (members V key tasks).Perm (members V key tasks')
  summary : ∀ group ∈ mergedGroups V tasks, Summarises V (members V group.1 tasks) group.2
  same : ∀ key r r', (key, r) ∈ mergedGroups V tasks → (key, r') ∈ mergedGroups V tasks' → SameGroup V r r'

lemma keys_mergedGroups (tasks : List (TaskRow O)) :
    (mergedGroups V tasks).map Prod.fst = (groupTasks V tasks).map Prod.fst := by
  unfold mergedGroups
  rw [List.map_map]
  rfl

/-- The groups do not depend on the order of the tasks. -/
theorem orderFree_of_perm {tasks tasks' : List (TaskRow O)} (h : tasks.Perm tasks') :
    OrderFree V tasks tasks' := by
  have hgrouped := @grouped_groupTasks _ V tasks
  have hgrouped' := @grouped_groupTasks _ V tasks'
  have hmembers : ∀ key, (members V key tasks).Perm (members V key tasks') := fun key => h.filter _
  refine ⟨?_, ?_, ?_, ?_, ?_, hmembers, ?_, ?_⟩
  · unfold mergeDocketAutogenTasks mergedGroups
    rw [List.map_map]
    rfl
  · rw [keys_mergedGroups]
    exact hgrouped.distinct
  · intro task htask
    rw [keys_mergedGroups, hgrouped.keys]
    exact ⟨task, htask, rfl⟩
  · intro group hgroup hnone
    have hkey : group.1 ∈ (groupTasks V tasks).map Prod.fst := by
      rw [← keys_mergedGroups]
      exact List.mem_map_of_mem hgroup
    obtain ⟨task, htask, hkey⟩ := (hgrouped.keys _).mp hkey
    have hmem : task ∈ members V group.1 tasks := List.mem_filter.mpr ⟨htask, decide_eq_true hkey⟩
    rw [hnone] at hmem
    cases hmem
  · rw [keys_mergedGroups, keys_mergedGroups, List.perm_ext_iff_of_nodup hgrouped.distinct hgrouped'.distinct]
    intro key
    rw [hgrouped.keys, hgrouped'.keys]
    simp only [h.mem_iff]
  · rintro group hgroup
    obtain ⟨⟨key, bucket⟩, hbucket, rfl⟩ := List.mem_map.mp hgroup
    exact summarises_finalize (hgrouped.collects key bucket hbucket)
  · intro key r r' hr hr'
    obtain ⟨⟨key, bucket⟩, hbucket, heq⟩ := List.mem_map.mp hr
    obtain ⟨⟨key', bucket'⟩, hbucket', heq'⟩ := List.mem_map.mp hr'
    obtain ⟨rfl, rfl⟩ := Prod.mk.inj heq
    obtain ⟨rfl, rfl⟩ := Prod.mk.inj heq'
    apply sameGroup_finalize
    intro feature k hk
    rw [hgrouped.collects _ bucket hbucket feature k hk, hgrouped'.collects _ bucket' hbucket' feature k hk]
    simp only [(hmembers _).mem_iff]

end Groups

section Dated

def plainObjects : Objects Empty where
  truthy := Empty.elim
  str := Empty.elim
  lower t := t.map asciiLower

/-- A task that was made for a docket item, with a due date and an owner. -/
def datedTask (dueDate ownerName : Text) : TaskRow Empty where
  id := .text "wf_1".toList
  linkedDocketId := .text "d1".toList
  autoDocketGenerated := true
  status := none
  categoryDisplay := .none
  categoryType := .text "mgmt".toList
  owners := []
  ownerName := .text ownerName
  ownerId := .none
  taskName := .none
  dueDate := .text dueDate
  finalDueDate := .none
  internalDueDate := .none
  doneDate := .none
  workflowLinkId := .none
  completionRecommendation := false
  completionRecommendationKind := .none
  completionRecommendationText := .none
  attorneys := []
  handlers := []
  managers := []
  workflowAssigneeFilterIds := []

theorem orderFree_of_two_tasks : OrderFree plainObjects
    [datedTask "2024-01-02".toList "Kim".toList, datedTask "2024-01-01".toList "Lee".toList]
    [datedTask "2024-01-01".toList "Lee".toList, datedTask "2024-01-02".toList "Kim".toList] :=
  orderFree_of_perm (List.Perm.swap _ _ [])

end Dated
end IpDocket.Tasks.Merge
