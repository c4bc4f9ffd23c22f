import IpDocket.Clients.MergeProfileKeeps

/-!
# Merges that lose nothing

The columns of the sources are taken over, equal to those of the target, or written down: here nothing
is lost by itself. The sources are merged into `extra` one after the other, each into what those before
it have left. `MergesSafely` says of every one of these steps that it takes no branch which drops a
value, and of the target that what is written down can be written.
-/

namespace IpDocket.Clients
open IpDocket.Lib

section Columns

variable {T : UnicodeTables} {H : PyHost T} {E : FloatEquality H}

lemma exists_distinctColumn {columns : List Column} {v : Column} (h : v ∈ columns) :
    ∃ c ∈ distinctColumns E columns, valuesEqual E v.toJson c.toJson = true := by
  have hfold : ∀ (l acc : List Column), (v ∈ l ∨ ∃ c ∈ acc, valuesEqual E v.toJson c.toJson = true) →
      ∃ c ∈ l.foldl (fun candidates v => if candidates.all
          (fun c => !valuesEqual E v.toJson c.toJson) then candidates ++ [v] else candidates) acc,
        valuesEqual E v.toJson c.toJson = true := by
    intro l
    induction l with
    | nil =>
      rintro acc (hnil | hacc)
      · cases hnil
      · exact hacc
    | cons w l ih =>
      intro acc hv
      rw [List.foldl_cons]
      apply ih
      rcases hv with hv | ⟨c, hc, heq⟩
      · rcases List.mem_cons.mp hv with rfl | hv
        · right
          split
          · exact ⟨v, by simp, valuesEqual_self _⟩
          · next hsome =>
            simpa using hsome
        · exact .inl hv
      · right
        refine ⟨c, ?_, heq⟩
        split
        · exact List.mem_append_left _ hc
        · exact hc
  exact hfold columns [] (.inl h)

lemma mem_filledIn {name : ColumnName} {sources : List (SourceClient H.floats.carrier)}
    {s : SourceClient H.floats.carrier} :
    s ∈ filledIn name sources ↔ s ∈ sources ∧ isBlank (s.get name) = false := by
  simp [filledIn]

variable {target : Profile H.floats.carrier} {sources : List (SourceClient H.floats.carrier)}
  {name : ColumnName} {s : SourceClient H.floats.carrier}

/-- A column that is not blank is equal to what the target gets, or is written down. -/
lemma mergeField_covers (hs : s ∈ sources) (hfilled : isBlank (s.get name) = false) :
    valuesEqual E (s.get name) (mergeField E target sources name).1.toJson = true ∨
      s ∈ (mergeField E target sources name).2 := by
  have hmem : s ∈ filledIn name sources := mem_filledIn.mpr ⟨hs, hfilled⟩
  have hfilter : ∀ v : Json H.floats.carrier, valuesEqual E (s.get name) v = true ∨
      s ∈ (filledIn name sources).filter (fun s => !valuesEqual E (s.get name) v) := by
    intro v
    by_cases heq : valuesEqual E (s.get name) v = true
    · exact .inl heq
    · exact .inr (List.mem_filter.mpr ⟨hmem, by simpa using heq⟩)
  unfold mergeField
  split
  · unfold mergeUniqueField
    dsimp only
    split
    · obtain ⟨c, hc, heq⟩ := exists_distinctColumn (E := E)
        (List.mem_map_of_mem (f := fun s : SourceClient H.floats.carrier => s.column name) hmem)
      split
      · next hnil =>
        rw [hnil] at hc
        cases hc
      · next chosen hone =>
        rw [hone, List.mem_singleton] at hc
        rw [hc] at heq
        exact .inl heq
      · exact .inr hmem
    · exact hfilter _
  · exact hfilter _

/-- A column of the target that is not blank stays. -/
lemma mergeField_keeps (hfilled : isBlank (target.get name) = false) :
    (mergeField E target sources name).1 = target.column name := by
  unfold mergeField
  split
  · unfold mergeUniqueField
    dsimp only
    rw [hfilled, if_neg Bool.false_ne_true]
  · unfold mergeFillField
    dsimp only
    rw [hfilled]
    simp

lemma isBlank_of_mem_conflicts (h : s ∈ (mergeField E target sources name).2) :
    isBlank (s.get name) = false := by
  have hfilled : s ∈ filledIn name sources := by
    unfold mergeField at h
    split at h
    · unfold mergeUniqueField at h
      dsimp only at h
      split at h
      · split at h
        · cases h
        · cases h
        · exact h
      · exact (List.mem_filter.mp h).1
    · exact (List.mem_filter.mp h).1
  exact (mem_filledIn.mp hfilled).2

lemma mem_columnConflicts {c : ColumnName × SourceClient H.floats.carrier} :
    c ∈ columnConflicts E target sources ↔ c.2 ∈ (mergeField E target sources c.1).2 := by
  have hall : ∀ name : ColumnName, name ∈ uniqueFields ++ fillFields := by
    intro name
    cases name <;> decide
  unfold columnConflicts
  rw [List.mem_flatMap]
  constructor
  · rintro ⟨name, -, hc⟩
    obtain ⟨s, hs, rfl⟩ := List.mem_map.mp hc
    exact hs
  · intro hc
    exact ⟨c.1, hall c.1, List.mem_map.mpr ⟨c.2, hc, rfl⟩⟩

lemma exists_stringify_column {c : Column} (h : isBlank (c.toJson : Json H.floats.carrier) = false) :
    ∃ t, stringifyOverflowValue (c.toJson : Json H.floats.carrier) = some t := by
  cases c with
  | null => cases h
  | text t =>
    rw [Column.toJson, isBlank, decide_eq_false_iff_not] at h
    exact ⟨pyStrip t, if_neg h⟩
  | int n => exact ⟨pyStr H (.int n), rfl⟩

variable {writable : Text → Text → Prop} {recordable : Prop}

/-- All columns in conflict are written down. -/
lemma recordColumns_spec (hwritable : ∀ path t, writable path t → recordable) :
    ∀ (conflicts : List (ColumnName × SourceClient H.floats.carrier))
      {overflow : List (Text × Json H.floats.carrier)}, Readable writable overflow →
      (∀ c ∈ conflicts, ∃ t, stringifyOverflowValue (c.2.get c.1) = some t ∧ writable c.1.key t) →
      ∃ overflow', recordColumns conflicts overflow = some overflow' ∧ Grows overflow overflow' ∧
        Readable writable overflow' ∧ (overflow' = overflow ∨ recordable) ∧
        ∀ c ∈ conflicts, ∃ t, stringifyOverflowValue (c.2.get c.1) = some t ∧
          recordedIn overflow' c.1.key t := by
  intro conflicts
  induction conflicts with
  | nil =>
    intro overflow hread _
    exact ⟨overflow, rfl, .refl _, hread, .inl rfl, by simp⟩
  | cons c conflicts ih =>
    intro overflow hread hall
    obtain ⟨name, s⟩ := c
    obtain ⟨t, ht, hw⟩ := hall (name, s) List.mem_cons_self
    obtain ⟨first, hadd, hgrows, hread', hrecorded⟩ := addOverflow_spec s.id hread ht hw
    obtain ⟨overflow', hrest, hgrows', hread'', -, hall'⟩ :=
      ih hread' (fun c hc => hall c (List.mem_cons_of_mem _ hc))
    refine ⟨overflow', ?_, hgrows.trans hgrows', hread'', .inr (hwritable _ _ hw), ?_⟩
    · rw [recordColumns, hadd, Option.bind_some, hrest]
    · intro c hc
      rcases List.mem_cons.mp hc with rfl | hc
      · exact ⟨t, ht, hgrows'.recordedIn hrecorded⟩
      · exact hall' c hc

end Columns

/-! ### The sources in turn -/

section Extras

variable {T : UnicodeTables} {H : PyHost T} (E : FloatEquality H)

/-- The `extra` of the target is an object, or there is nothing in it. -/
def Extensible (target : Profile H.floats.carrier) : Prop :=
  isBlank target.extra = true ∨ ∃ fields, target.extra = .obj fields

/-- What an earlier merge wrote down is an object of lists. -/
def OverflowReadable (target : Profile H.floats.carrier) : Prop :=
  isBlank (field (fieldsOf target.extra) "merge_overflow".toList) = true ∨
    ∃ fields, field (fieldsOf target.extra) "merge_overflow".toList = .obj fields ∧
      ∀ k, isBlank (field fields k) = true ∨ isList (field fields k) = true

/-- A text can be written down under a path: the list that is there has objects only, up to the one
that has the text already. -/
def Writable (target : Profile H.floats.carrier) (path t : Text) : Prop :=
  (Extensible target ∧ OverflowReadable target) ∧
    (bucketHas t (itemsOf (field (overflowExisting target.extra) path))).isSome = true

/-- One source: what is passed over is held by the target already, and what meets a value of the target
is safe. -/
def SourceSafe (target : Profile H.floats.carrier) (merged : List (Text × Json H.floats.carrier))
    (s : SourceClient H.floats.carrier) : Prop :=
  ∀ kv ∈ fieldsOf s.extra, isBlank kv.2 = false →
    if kv.1 ∈ extraMergeSkipKeys then
      Covered E (fun _ _ => False) (below "extra".toList kv.1) (field (fieldsOf target.extra) kv.1) kv.2
    else isBlank (field merged kv.1) = false →
      Safe E (Writable target) (below "extra".toList kv.1) (field merged kv.1) kv.2

/-- Every source is safe in the state that those before it leave. -/
def ExtrasSafe (target : Profile H.floats.carrier) : List (SourceClient H.floats.carrier) →
    (merged overflow : List (Text × Json H.floats.carrier)) → Prop
  | [], _, _ => True
  | s :: sources, merged, overflow => SourceSafe E target merged s ∧
      ∀ m, mergeDictFill E s.id "extra".toList (mergedKeys s) merged overflow = some m →
        ExtrasSafe target sources m.value m.overflow

/-- No step of the merge takes a branch that drops a value. -/
structure MergesSafely (target : Profile H.floats.carrier)
    (sources : List (SourceClient H.floats.carrier)) : Prop where
  columns : ∀ c ∈ columnConflicts E target sources, ∀ t,
    stringifyOverflowValue (c.2.get c.1) = some t → Writable target c.1.key t
  existing : overflowExisting target.extra ≠ [] → OverflowReadable target
  extensible : (∃ s ∈ sources, ∃ kv ∈ mergedKeys s, isBlank kv.2 = false) → Extensible target
  extras : ∀ overflow,
    recordColumns (columnConflicts E target sources) (overflowExisting target.extra) = some overflow →
      ExtrasSafe E target sources (fieldsOf target.extra) overflow

/-- A text is written down in the `merge_overflow` of `extra`. -/
def recordedAt (extra : Json H.floats.carrier) (path t : Text) : Prop :=
  recordedIn (fieldsOf (field (fieldsOf extra) "merge_overflow".toList)) path t

/-- Every value of a source is at its place in the target or written down, and every value that the
target had is there. -/
structure LosesNothing (target : Profile H.floats.carrier)
    (sources : List (SourceClient H.floats.carrier)) (target' : Profile H.floats.carrier) : Prop where
  columns : ∀ name, ∀ s ∈ sources, isBlank (s.get name) = false →
    valuesEqual E (s.get name) (target'.get name) = true ∨
      ∃ t, stringifyOverflowValue (s.get name) = some t ∧ recordedAt target'.extra name.key t
  extras : ∀ s ∈ sources, ∀ kv ∈ fieldsOf s.extra,
    Covered E (recordedAt target'.extra) (below "extra".toList kv.1) (field (fieldsOf target'.extra) kv.1)
      kv.2
  columnsKept : ∀ name, isBlank (target.get name) = false → target'.column name = target.column name
  extraKept : Kept target.extra target'.extra

variable {E}

/-- What the merge of all sources leaves. -/
structure ExtrasKept (E : FloatEquality H) (target : Profile H.floats.carrier)
    (sources : List (SourceClient H.floats.carrier))
    (merged overflow : List (Text × Json H.floats.carrier))
    (m : Merged (List (Text × Json H.floats.carrier)) H) : Prop where
  kept : ∀ k, Kept (field merged k) (field m.value k)
  filled : m.value = [] → merged = []
  covered : ∀ s ∈ sources, ∀ kv ∈ mergedKeys s,
    Covered E (recordedIn m.overflow) (below "extra".toList kv.1) (field m.value kv.1) kv.2
  skipped : ∀ s ∈ sources, ∀ kv ∈ fieldsOf s.extra, kv.1 ∈ extraMergeSkipKeys → isBlank kv.2 = false →
    Covered E (fun _ _ => False) (below "extra".toList kv.1) (field (fieldsOf target.extra) kv.1) kv.2
  grows : Grows overflow m.overflow
  unchanged : m.changed = false → m.value = merged
  quiet : m.overflow = overflow ∨ (Extensible target ∧ OverflowReadable target)

lemma wellKeyed_mergedKeys (s : SourceClient H.floats.carrier) :
    ((mergedKeys s).map Prod.fst).Nodup ∧ ∀ kv ∈ mergedKeys s, WellKeyed kv.2 := by
  have hfields : ((fieldsOf s.extra).map Prod.fst).Nodup ∧ ∀ kv ∈ fieldsOf s.extra, WellKeyed kv.2 := by
    have hkeyed := s.wellKeyed
    generalize s.extra = extra at hkeyed ⊢
    cases hkeyed with
    | obj hkeys hvalues => exact ⟨hkeys, hvalues⟩
    | _ => exact ⟨List.nodup_nil, by simp [fieldsOf]⟩
  exact ⟨(List.filter_sublist.map Prod.fst).nodup hfields.1,
    fun kv hkv => hfields.2 kv (List.mem_filter.mp hkv).1⟩

lemma mergeExtras_spec {target : Profile H.floats.carrier} :
    ∀ (sources : List (SourceClient H.floats.carrier))
      {merged overflow : List (Text × Json H.floats.carrier)},
      ExtrasSafe E target sources merged overflow → Readable (Writable target) overflow →
      ∃ m, mergeExtras E sources merged overflow = some m ∧
        ExtrasKept E target sources merged overflow m := by
  intro sources
  induction sources with
  | nil =>
    intro merged overflow _ _
    exact ⟨_, rfl, { kept := fun _ => .same _, filled := id, covered := by simp, skipped := by simp
                     grows := .refl _, unchanged := fun _ => rfl, quiet := .inl rfl }⟩
  | cons s sources ih =>
    intro merged overflow hsafe hread
    obtain ⟨hsource, hrest⟩ := hsafe
    obtain ⟨hkeys, hkeyed⟩ := wellKeyed_mergedKeys s
    have hfields : ∀ kv ∈ mergedKeys s, isBlank kv.2 = false → isBlank (field merged kv.1) = false →
        Safe E (Writable target) (below "extra".toList kv.1) (field merged kv.1) kv.2 := by
      intro kv hkv hfilled
      obtain ⟨hmem, hskip⟩ := List.mem_filter.mp hkv
      have hsafe := hsource kv hmem hfilled
      rwa [if_neg (of_decide_eq_true hskip)] at hsafe
    obtain ⟨first, hfirst, hkept⟩ :=
      mergeDictFill_spec (fun _ _ hw => hw.1) s.id (mergedKeys s) hkeys hkeyed hfields hread
    obtain ⟨m, hm, hall⟩ := ih (hrest first hfirst) hkept.readable
    refine ⟨{ m with changed := first.changed || m.changed }, ?_, ?_⟩
    · rw [mergeExtras, hfirst, Option.bind_some, hm]
      rfl
    · refine { kept := ?_, filled := ?_, covered := ?_, skipped := ?_, grows := hkept.grows.trans hall.grows
               unchanged := ?_, quiet := ?_ }
      · exact fun k => (hkept.kept k).trans (hall.kept k)
      · exact fun hnil => hkept.filled (hall.filled hnil)
      · intro s' hs' kv hkv
        rcases List.mem_cons.mp hs' with rfl | hs'
        · -- covered by the first merge, and kept by the others
          exact (hkept.covered kv hkv).mono (fun _ _ hr => hall.grows.recordedIn hr) (hall.kept kv.1)
        · exact hall.covered s' hs' kv hkv
      · intro s' hs' kv hkv hskip hfilled
        rcases List.mem_cons.mp hs' with rfl | hs'
        · have hheld := hsource kv hkv hfilled
          rwa [if_pos hskip] at hheld
        · exact hall.skipped s' hs' kv hkv hskip hfilled
      · intro hfalse
        obtain ⟨hfirstFalse, hrestFalse⟩ := Bool.or_eq_false_iff.mp hfalse
        exact (hall.unchanged hrestFalse).trans (hkept.unchanged hfirstFalse)
      · rcases hall.quiet with heq | hr
        · change m.overflow = overflow ∨ _
          rw [heq]
          exact hkept.quiet
        · exact .inr hr

/-- Sources without a value to merge change nothing. -/
lemma mergeDictFill_of_blank (sourceId : Nat) (pre : Text) :
    ∀ (source target overflow : List (Text × Json H.floats.carrier)),
      (∀ kv ∈ source, isBlank kv.2 = true) →
      mergeDictFill E sourceId pre source target overflow = some ⟨target, false, overflow⟩ := by
  intro source target overflow hblank
  induction source with
  | nil => rw [mergeDictFill]
  | cons kv source ih =>
    obtain ⟨key, v⟩ := kv
    rw [mergeDictFill, if_pos (hblank (key, v) List.mem_cons_self)]
    exact ih (fun kv hkv => hblank kv (List.mem_cons_of_mem _ hkv))

lemma mergeExtras_of_blank (sources : List (SourceClient H.floats.carrier))
    (merged overflow : List (Text × Json H.floats.carrier))
    (h : ∀ s ∈ sources, ∀ kv ∈ mergedKeys s, isBlank kv.2 = true) :
    mergeExtras E sources merged overflow = some ⟨merged, false, overflow⟩ := by
  induction sources with
  | nil => rfl
  | cons s sources ih =>
    rw [mergeExtras, mergeDictFill_of_blank _ _ _ _ _ (h s List.mem_cons_self), Option.bind_some,
      ih (fun s' hs' => h s' (List.mem_cons_of_mem _ hs'))]
    rfl

lemma field_filter_isList {F : Type} (fields : List (Text × Json F)) (k : Text) :
    field (fields.filter (fun kv => isList kv.2)) k = .null ∨
      ∃ items, field (fields.filter (fun kv => isList kv.2)) k = .arr items := by
  by_cases hnull : field (fields.filter (fun kv => isList kv.2)) k = .null
  · exact .inl hnull
  · right
    have hmem := mem_of_field rfl hnull
    have hlist := (List.mem_filter.mp hmem).2
    dsimp only at hlist
    generalize field (fields.filter (fun kv => isList kv.2)) k = v at hlist ⊢
    cases v with
    | arr items => exact ⟨items, rfl⟩
    | _ => cases hlist

lemma field_filter_of_arr {F : Type} {fields : List (Text × Json F)} {k : Text} {items : List (Json F)}
    (h : field fields k = .arr items) :
    field (fields.filter (fun kv => isList kv.2)) k = .arr items := by
  induction fields with
  | nil => cases h
  | cons kv fields ih =>
    obtain ⟨key, v⟩ := kv
    rw [field_cons] at h
    split at h
    · next hk =>
      subst h
      rw [List.filter_cons_of_pos rfl, field_cons, if_pos hk]
    · next hk =>
      rw [List.filter_cons]
      split
      · rw [field_cons, if_neg hk]
        exact ih h
      · exact ih h

variable {target : Profile H.floats.carrier} {sources : List (SourceClient H.floats.carrier)}

lemma readable_existing : Readable (Writable target) (overflowExisting target.extra) where
  lists k := field_filter_isList _ k
  opens _ _ hw := hw.2

/-- The overflow that is written keeps what an earlier merge wrote down. -/
lemma kept_overflow (hread : OverflowReadable target) {overflow : List (Text × Json H.floats.carrier)}
    (hne : overflow ≠ []) (hgrows : Grows (overflowExisting target.extra) overflow) :
    Kept (field (fieldsOf target.extra) "merge_overflow".toList) (.obj overflow) := by
  rcases hread with hblank | ⟨fields, hfields, hlists⟩
  · exact .blank hblank
  · have hexisting : overflowExisting target.extra = fields.filter (fun kv => isList kv.2) := by
      rw [overflowExisting, hfields]
      rfl
    rw [hfields]
    refine .obj (fun hnil => absurd hnil hne) (fun k => ?_)
    rcases hlists k with hblank | hlist
    · exact .blank hblank
    · have hgrow := hgrows k
      cases hvalue : field fields k with
      | arr items =>
        rw [hexisting, field_filter_of_arr hvalue] at hgrow
        exact hgrow
      | _ =>
        rw [hvalue] at hlist
        cases hlist

/-- The `extra` that is written. -/
def writtenFields (m : Merged (List (Text × Json H.floats.carrier)) H) : List (Text × Json H.floats.carrier) :=
  if m.overflow ≠ [] then setField "merge_overflow".toList (.obj m.overflow) m.value else m.value

lemma field_writtenFields {m : Merged (List (Text × Json H.floats.carrier)) H} {k : Text}
    (hk : k ≠ "merge_overflow".toList) : field (writtenFields m) k = field m.value k := by
  unfold writtenFields
  split
  · rw [field_setField, if_neg hk]
  · rfl

lemma recordedAt_writtenFields {m : Merged (List (Text × Json H.floats.carrier)) H} {path t : Text}
    (h : recordedIn m.overflow path t) : recordedAt (.obj (writtenFields m)) path t := by
  have hne : m.overflow ≠ [] := by
    intro hnil
    obtain ⟨item, hitem, -⟩ := h
    rw [hnil] at hitem
    cases hitem
  unfold recordedAt
  rw [fieldsOf, writtenFields, if_pos hne, field_setField, if_pos rfl]
  exact h

/-- Writing `extra` anew keeps what the target had. -/
lemma kept_writtenFields {overflow : List (Text × Json H.floats.carrier)}
    {m : Merged (List (Text × Json H.floats.carrier)) H} (hext : Extensible target)
    (hkept : ExtrasKept E target sources (fieldsOf target.extra) overflow m)
    (hread : m.overflow ≠ [] → OverflowReadable target)
    (hgrows : Grows (overflowExisting target.extra) overflow) :
    Kept target.extra (.obj (writtenFields m)) := by
  rcases hext with hblank | ⟨fields, hfields⟩
  · exact .blank hblank
  · have hown : fieldsOf target.extra = fields := by
      rw [hfields]
      rfl
    have hoverflow := @kept_overflow T H target
    rw [hown] at hkept hoverflow
    rw [hfields]
    refine .obj ?_ (fun k => ?_)
    · intro hnil
      unfold writtenFields at hnil
      split at hnil
      · exact absurd hnil (setField_ne_nil _ _ _)
      · exact hkept.filled hnil
    · by_cases hk : k = "merge_overflow".toList
      · unfold writtenFields
        split
        · next hne =>
          rw [hk, field_setField, if_pos rfl]
          exact hoverflow (hread hne) hne (hgrows.trans hkept.grows)
        · exact hkept.kept k
      · rw [field_writtenFields hk]
        exact hkept.kept k

/-- What is written down and what is left in `extra` is all that there was. -/
lemma losesNothing_of_kept {overflow : List (Text × Json H.floats.carrier)}
    {m : Merged (List (Text × Json H.floats.carrier)) H} {extra' : Json H.floats.carrier}
    (hkept : ExtrasKept E target sources (fieldsOf target.extra) overflow m)
    (hrecorded : ∀ c ∈ columnConflicts E target sources, ∃ t,
      stringifyOverflowValue (c.2.get c.1) = some t ∧ recordedIn overflow c.1.key t)
    (hextra : Kept target.extra extra')
    (hwritten : ∀ path t, recordedIn m.overflow path t → recordedAt extra' path t)
    (hfields : ∀ k, k ∉ extraMergeSkipKeys → field (fieldsOf extra') k = field m.value k) :
    LosesNothing E target sources ⟨fun name => (mergeField E target sources name).1, extra'⟩ where
  columns name s hs hfilled := by
    rcases mergeField_covers hs hfilled with heq | hconflict
    · exact .inl heq
    · obtain ⟨t, ht, hr⟩ := hrecorded (name, s) (mem_columnConflicts.mpr hconflict)
      exact .inr ⟨t, ht, hwritten _ _ (hkept.grows.recordedIn hr)⟩
  extras s hs kv hkv := by
    by_cases hskip : kv.1 ∈ extraMergeSkipKeys
    · cases hblank : isBlank kv.2 with
      | true => exact .blank hblank
      | false => exact (hkept.skipped s hs kv hkv hskip hblank).mono (fun _ _ hf => hf.elim) (hextra.field kv.1)
    · change Covered E (recordedAt extra') _ (field (fieldsOf extra') kv.1) kv.2
      rw [hfields kv.1 hskip]
      have hmerged : kv ∈ mergedKeys s := List.mem_filter.mpr ⟨hkv, decide_eq_true hskip⟩
      exact (hkept.covered s hs kv hmerged).mono hwritten (.same _)
  columnsKept _ hfilled := mergeField_keeps hfilled
  extraKept := hextra

/-- A merge that takes no branch which drops a value returns, and loses nothing. -/
theorem merge_loses_nothing (E : FloatEquality H) (target : Profile H.floats.carrier)
    (sources : List (SourceClient H.floats.carrier)) (hsafe : MergesSafely E target sources) :
    ∃ target', mergeClientProfile E target sources = some target' ∧
      LosesNothing E target sources target' := by
  have hconflicts : ∀ c ∈ columnConflicts E target sources, ∃ t,
      stringifyOverflowValue (c.2.get c.1) = some t ∧ Writable target c.1.key t := by
    intro c hc
    obtain ⟨t, ht⟩ := exists_stringify_column (isBlank_of_mem_conflicts (mem_columnConflicts.mp hc))
    exact ⟨t, ht, hsafe.columns c hc t ht⟩
  obtain ⟨overflow, hcolumns, hgrows, hread, hquiet, hrecorded⟩ :=
    recordColumns_spec (fun _ _ hw => hw.1) (columnConflicts E target sources) readable_existing hconflicts
  obtain ⟨m, hm, hkept⟩ := mergeExtras_spec sources (hsafe.extras overflow hcolumns) hread
  refine ⟨_, by rw [mergeClientProfile, hcolumns, Option.bind_some, hm, Option.map_some], ?_⟩
  -- whatever is written down, the overflow of the target can be read
  have hwrites : m.overflow ≠ [] → Extensible target ∧ OverflowReadable target := by
    intro hne
    rcases hkept.quiet with heq | hr
    · rcases hquiet with heq' | hr
      · have hexisting : overflowExisting target.extra ≠ [] := by
          rw [← heq', ← heq]
          exact hne
        refine ⟨.inr ?_, hsafe.existing hexisting⟩
        cases hextra : target.extra with
        | obj fields => exact ⟨fields, rfl⟩
        | _ =>
          rw [hextra] at hexisting
          exact absurd rfl hexisting
      · exact hr
    · exact hr
  have hchanges : m.changed = true → Extensible target := by
    intro hchanged
    apply hsafe.extensible
    by_contra hnone
    have hblank : ∀ s ∈ sources, ∀ kv ∈ mergedKeys s, isBlank kv.2 = true := by
      intro s hs kv hkv
      by_contra hfilled
      exact hnone ⟨s, hs, kv, hkv, by simpa using hfilled⟩
    rw [mergeExtras_of_blank sources _ _ hblank, Option.some_inj] at hm
    rw [← hm] at hchanged
    cases hchanged
  by_cases hwrite : m.changed = true ∨ m.overflow ≠ []
  · rw [if_pos hwrite]
    have hext : Extensible target := hwrite.elim hchanges (fun hne => (hwrites hne).1)
    exact losesNothing_of_kept hkept hrecorded
      (kept_writtenFields hext hkept (fun hne => (hwrites hne).2) hgrows)
      (fun _ _ => recordedAt_writtenFields)
      (fun k hk => field_writtenFields (fun heq => hk (heq ▸ List.mem_cons_self)))
  · rw [if_neg hwrite]
    rw [not_or, not_not] at hwrite
    obtain ⟨hsame, hnil⟩ := hwrite
    refine losesNothing_of_kept hkept hrecorded (.same _) ?_ ?_
    · rintro path t ⟨item, hitem, -⟩
      rw [hnil] at hitem
      cases hitem
    · intro k _
      rw [hkept.unchanged (by simpa using hsame)]

end Extras

/-- Exact amounts in the place of floats. -/
def exactHost : PyHost asciiDigitTables.toUnicodeTables := ⟨centFloats, fun _ => "[]".toList⟩

def exactEquality : FloatEquality exactHost where
  floatFloat (x y : ℚ) := x = y
  floatInt (x : ℚ) n := x = n
  floatFloat_self (x : ℚ) := decide_eq_true rfl
  isZero_of_floatInt (x : ℚ) n h := by
    have hx : x = n := of_decide_eq_true h
    change decide (x = 0) = true ↔ n = 0
    rw [decide_eq_true_iff, hx]
    exact Int.cast_eq_zero

/-- A client whose address is a text. -/
def streetClient : Profile exactHost.floats.carrier :=
  ⟨fun _ => .null, .obj [("address".toList, .str "1 Main St".toList)]⟩

/-- A text and an object. -/
def cityObject : SourceClient exactHost.floats.carrier where
  column _ := .null
  extra := .obj [("address".toList, .obj [("city".toList, .str "Oslo".toList)])]
  id := 2
  wellKeyed := by
    refine .obj (by decide) (List.forall_mem_singleton.mpr (.obj (by decide) ?_))
    exact List.forall_mem_singleton.mpr (.str _)

/-- A client that has moved once already. -/
def movedClient : Profile exactHost.floats.carrier where
  column _ := .null
  extra := .obj [("address".toList, .str "1 Main St".toList),
    ("contact".toList, .obj [("city".toList, .str "Oslo".toList)]),
    ("tags".toList, .arr [.str "A".toList]),
    ("merge_overflow".toList, .obj [("extra.address".toList, .arr [.obj
      [("value".toList, .str "9 Old St".toList), ("source_id".toList, .int 1)]])])]

def sideStreet : SourceClient exactHost.floats.carrier where
  column _ := .null
  extra := .obj [("address".toList, .str "2 Side St".toList),
    ("contact".toList, .obj [("city".toList, .str "Oslo".toList), ("zip".toList, .str "0150".toList)]),
    ("tags".toList, .arr [.str "A".toList, .str "B".toList])]
  id := 2
  wellKeyed := by
    refine .obj (by decide) ?_
    simp only [List.forall_mem_cons, List.not_mem_nil, false_implies, implies_true, and_true]
    refine ⟨.str _, .obj (by decide) ?_, .arr ?_⟩
    · simp only [List.forall_mem_cons, List.not_mem_nil, false_implies, implies_true, and_true]
      exact ⟨.str _, .str _⟩
    · simp only [List.forall_mem_cons, List.not_mem_nil, false_implies, implies_true, and_true]
      exact ⟨.str _, .str _⟩

def farRoad : SourceClient exactHost.floats.carrier where
  column _ := .null
  extra := .obj [("address".toList, .str "3 Far Rd".toList),
    ("contact".toList, .obj [("zip".toList, .str "0160".toList)])]
  id := 3
  wellKeyed := by
    refine .obj (by decide) ?_
    simp only [List.forall_mem_cons, List.not_mem_nil, false_implies, implies_true, and_true]
    exact ⟨.str _, .obj (by decide) (List.forall_mem_singleton.mpr (.str _))⟩

lemma overflowReadable_movedClient : OverflowReadable movedClient := by
  refine .inr ⟨_, rfl, fun k => ?_⟩
  rw [field_cons]
  split
  · exact .inr rfl
  · exact .inl rfl

lemma writable_movedClient {path t : Text}
    (h : (bucketHas t (itemsOf (field (overflowExisting movedClient.extra) path))).isSome = true) :
    Writable movedClient path t :=
  ⟨⟨.inr ⟨_, rfl⟩, overflowReadable_movedClient⟩, h⟩

lemma sourceSafe_sideStreet :
    SourceSafe exactEquality movedClient (fieldsOf movedClient.extra) sideStreet := by
  refine List.forall_mem_cons.mpr ⟨fun _ => ?_, List.forall_mem_cons.mpr ⟨fun _ => ?_,
    List.forall_mem_singleton.mpr fun _ => ?_⟩⟩
  all_goals rw [if_neg (by decide)]; intro _
  · exact .recorded rfl (writable_movedClient rfl)
  · -- the city is there, the zip code is not
    refine .obj (List.forall_mem_cons.mpr ⟨fun _ _ => ?_, List.forall_mem_singleton.mpr fun _ h => ?_⟩)
    · exact .recorded rfl (writable_movedClient rfl)
    · cases h
  · refine .arr ⟨fun v hv _ w hw _ hkey => ?_, fun _ v hv _ w hw _ _ => ?_⟩
    · have htags : ∀ v ∈ itemsOf (.arr [.str "A".toList, .str "A".toList, .str "B".toList]),
          ∃ t, v = (.str t : Json exactHost.floats.carrier) := by simp [itemsOf]
      obtain ⟨t, rfl⟩ := htags v (List.mem_cons_of_mem _ hv)
      obtain ⟨u, rfl⟩ := htags w hw
      rw [valuesEqual, normalizeScalar, normalizeScalar, pyEq]
      exact decide_eq_true hkey
    · rw [List.mem_singleton.mp hv, List.mem_singleton.mp hw]

/-- The client after the first source. -/
def mergedFields : List (Text × Json exactHost.floats.carrier) :=
  [("address".toList, .str "1 Main St".toList),
    ("contact".toList, .obj [("city".toList, .str "Oslo".toList), ("zip".toList, .str "0150".toList)]),
    ("tags".toList, .arr [.str "A".toList, .str "B".toList]),
    ("merge_overflow".toList, field (fieldsOf movedClient.extra) "merge_overflow".toList)]

lemma sourceSafe_farRoad : SourceSafe exactEquality movedClient mergedFields farRoad := by
  refine List.forall_mem_cons.mpr ⟨fun _ => ?_, List.forall_mem_singleton.mpr fun _ => ?_⟩
  all_goals rw [if_neg (by decide)]; intro _
  · exact .recorded rfl (writable_movedClient rfl)
  · exact .obj (List.forall_mem_singleton.mpr fun _ _ => .recorded rfl (writable_movedClient rfl))

/-- The zip code and the second tag are filled in, and the two streets are written down behind the
earlier one. -/
theorem merge_of_two_streets :
    ∃ target', mergeClientProfile exactEquality movedClient [sideStreet, farRoad] = some target' ∧
      LosesNothing exactEquality movedClient [sideStreet, farRoad] target' := by
  refine merge_loses_nothing exactEquality movedClient [sideStreet, farRoad] ⟨?_, ?_, ?_, ?_⟩
  · intro c hc
    cases hc
  · exact fun _ => overflowReadable_movedClient
  · exact fun _ => .inr ⟨_, rfl⟩
  · intro overflow hoverflow
    obtain rfl : overflowExisting movedClient.extra = overflow := Option.some_inj.mp hoverflow
    refine ⟨sourceSafe_sideStreet, fun m hm => ⟨?_, fun _ _ => trivial⟩⟩
    have hvalue : some mergedFields = some m.value := congrArg (Option.map Merged.value) hm
    rw [← Option.some_inj.mp hvalue]
    exact sourceSafe_farRoad

/-- The object is neither in the target nor written down. -/
theorem merge_drops_an_object :
    ∃ target', mergeClientProfile exactEquality streetClient [cityObject] = some target' ∧
      ¬LosesNothing exactEquality streetClient [cityObject] target' := by
  refine ⟨_, rfl, ?_⟩
  intro h
  have hcovered := h.extras cityObject List.mem_cons_self _ List.mem_cons_self
  -- no value at the place of the city, and nothing written down
  cases hcovered with
  | blank hblank => cases hblank
  | equal hscalar _ => cases hscalar
  | recorded hstring _ => cases hstring
  | obj hfields =>
    have hcity := hfields _ List.mem_cons_self
    cases hcity with
    | blank hblank => exact absurd hblank (by decide)
    | equal _ heq => exact absurd heq (by decide)
    | recorded _ hrecorded =>
      obtain ⟨item, hitem, -⟩ := hrecorded
      cases hitem

end IpDocket.Clients
