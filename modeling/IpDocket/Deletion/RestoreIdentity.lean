import IpDocket.Deletion.RoundTrip

/-!
# When a deleted row comes back as it was

For each of the three models with a restore function of their own, and for the others together,
the columns of the restored row are compared with those of the deleted one.
-/

namespace IpDocket.Deletion
open IpDocket.Lib

variable {P : PyTypes}

/-- The restoration of the row succeeds and brings back its columns. -/
def BringsBack (env : RestoreEnv P) (db₀ : List (Record P)) (db : Db P) (r : Row P) : Prop :=
  ∃ restored row, restoreRows env db (buildLog db₀ r.toRecord) = .ok restored ∧
    restored.row = some row ∧ SameColumns r.toRecord row

/-- Nothing but the row itself stops its restoration. -/
def Unstopped (env : RestoreEnv P) (db₀ : List (Record P)) (db : Db P) (r : Row P) : Prop :=
  ∀ e, StopsFromOutside r.model e → restoreRows env db (buildLog db₀ r.toRecord) ≠ .error e

lemma strOr_key {v : Val P} (hv : ColumnType.text.Holds v) (env : RestoreEnv P) :
    strOr (jsonSafe v) env.newKey = restoreKey env v := by
  obtain rfl | ⟨t, rfl⟩ := holds_text_cases hv
  · rfl
  · cases t with
    | nil => rfl
    | cons c t => rfl

lemma strOr_nil {v : Val P} (hv : ColumnType.text.Holds v) : strOr (jsonSafe v) [] = textOfVal v := by
  obtain rfl | ⟨t, rfl⟩ := holds_text_cases hv
  · rfl
  · cases t with
    | nil => rfl
    | cons c t => rfl

lemma str_textOfVal {v : Val P} (hv : ColumnType.text.Holds v) (hnull : v ≠ .null) :
    .str (textOfVal v) = v := by
  obtain rfl | ⟨t, rfl⟩ := holds_text_cases hv
  · exact absurd rfl hnull
  · rfl

/-- A column without a default is compared as the object has it. -/
lemma sameColumns_rowOf {env : RestoreEnv P} {db : Db P} {w : Write P} {r : Record P}
    (hmodel : w.object.model = r.model) (hplain : ∀ c ∈ comparedColumns r.model, w.Plain c.name)
    (hdefault : ∀ c ∈ comparedColumns r.model, c.default = none ∨ w.object.cells c.name ≠ .null) :
    SameColumns r (db.rowOf env w) ↔
      ∀ n ∈ (comparedColumns r.model).map Column.name, w.object.cells n = r.cells n := by
  rw [List.forall_mem_map]
  refine forall_congr' (fun c => forall_congr' (fun hc => ?_))
  obtain ⟨hcolumn, hp⟩ := List.mem_filter.mp hc
  rw [cells_rowOf env db (hmodel ▸ hcolumn) (hmodel ▸ (of_decide_eq_true hp).1) (hplain c hc)
    (hdefault c hc)]

lemma Db.get_spec {db : Db P} {m : Model} {v : Val P} {q : Record P} (h : db.get m v = some q) :
    q ∈ db.rows ∧ q.model = m ∧ sameValue q.pkValue v = true := by
  have hp := List.find?_some h
  rw [decide_eq_true_eq] at hp
  exact ⟨List.mem_of_find?_eq_some h, hp⟩

lemma isNull_eq_false {v : Val P} : isNull v = false ↔ v ≠ .null := by
  cases v <;> simp [isNull]

/-- Only the columns that are `None` in the object can be `NULL` in the row. -/
lemma complete_rowOf {env : RestoreEnv P} {db : Db P} {w : Write P}
    (h : ∀ c ∈ w.object.model.columns, c.nullable = false → w.object.cells c.name ≠ .null) :
    (db.rowOf env w).Complete := by
  intro c hc hnull
  rw [model_rowOf] at hc
  exact isNull_eq_false.mpr (cells_rowOf_ne_null env db (h c hc hnull))

/-- A restoration with a plan brings back the row exactly if it can be written with its children and its
object has the columns. -/
lemma bringsBack_iff {env : RestoreEnv P} {db₀ : List (Record P)} {db : Db P} {r : Row P}
    {w : Write P} {children : List (Write P)} (hout : Unstopped env db₀ db r)
    (hpreview : previewLog db (buildLog db₀ r.toRecord) = .ok [])
    (hplan : restorePlan env db (buildLog db₀ r.toRecord) = .ok (.rows w children))
    (hmodel : w.object.model = r.model) (hchildren : ∀ w ∈ children, w.object.model ≠ r.model) :
    BringsBack env db₀ db r ↔
      (∀ v ∈ w :: children, (db.rowOf env v).Typed) ∧
        (db.rowOf env w).Complete ∧ SameColumns r.toRecord (db.rowOf env w) := by
  unfold BringsBack
  apply restoreRows_iff rfl hpreview hplan
  · intro v hv
    rw [hmodel]
    exact hchildren v hv
  · intro e he
    rw [hmodel] at he
    exact hout e he

/-- The object of a row that was found or is new, after the assignments. -/
def assigned (base : Record P) (values : List (String × Val P)) : Record P :=
  (clearSoftDeleteFields base).setAll values

section Assigned

variable {base : Record P} {values : List (String × Val P)}

lemma model_assigned : (assigned base values).model = base.model := by
  unfold assigned
  rw [Record.model_setAll, model_clearSoftDeleteFields]

lemma cells_assigned {n : String} {v : Val P} (hvalues : (values.map Prod.fst).Nodup)
    (h : (n, v) ∈ values) : (assigned base values).cells n = v :=
  Record.cells_setAll_of_mem _ hvalues h

lemma cells_assigned_of_notMem {n : String} (hn : n ∉ values.map Prod.fst)
    (hsoft : n ∉ softDeleteNames) : (assigned base values).cells n = base.cells n := by
  unfold assigned
  rw [Record.cells_setAll_of_notMem _ hn, cells_clearSoftDeleteFields _ hsoft]

lemma isDeleted_assigned (hn : "is_deleted" ∉ values.map Prod.fst)
    (hcolumn : base.model.hasColumn "is_deleted") :
    (assigned base values).cells "is_deleted" = .bool false := by
  unfold assigned
  rw [Record.cells_setAll_of_notMem _ hn, isDeleted_clearSoftDeleteFields _ hcolumn]

/-- A column that is not assigned is that of the row that was found. -/
lemma cells_assigned_found {found : Option (Record P)} {m : Model} {key : String} {v : Val P}
    {n : String} (hn : n ∉ values.map Prod.fst) (hsoft : n ∉ softDeleteNames) (hkey : n ≠ key) :
    (assigned (found.getD ((newObject m).set key v)) values).cells n = foundCell found n := by
  rw [cells_assigned_of_notMem hn hsoft]
  cases found with
  | some q => rfl
  | none =>
    change (if n = key then _ else _) = _
    rw [if_neg hkey]
    rfl

/-- A required column of a row that was found is not `NULL`, and the key of a new one is given. -/
lemma cells_found_ne_null {db : Db P} {found : Option (Record P)} {m : Model} {key : String}
    {v : Val P} (hfound : ∀ q, found = some q → q ∈ db.rows ∧ q.model = m)
    (hc : ∃ c ∈ m.columns, c.name = key ∧ c.nullable = false) (hv : v ≠ .null) :
    (found.getD ((newObject m).set key v)).cells key ≠ .null := by
  obtain ⟨c, hc, rfl, hnull⟩ := hc
  cases found with
  | none =>
    change (if c.name = c.name then v else _) ≠ _
    rwa [if_pos rfl]
  | some q =>
    obtain ⟨hq, rfl⟩ := hfound q rfl
    exact isNull_eq_false.mp (db.complete q hq c hc hnull)

/-- A column of the row that was found, or of a new one. -/
lemma holds_found {db : Db P} {found : Option (Record P)} {m : Model} {key : Text} {c : Column}
    (hfound : ∀ q, found = some q → q ∈ db.rows ∧ q.model = m) (hc : c ∈ m.columns)
    (hkey : c.name = m.pk → c.type = .text) :
    c.type.Holds ((found.getD ((newObject m).set m.pk (.str key))).cells c.name) := by
  cases found with
  | some q =>
    obtain ⟨hq, rfl⟩ := hfound q rfl
    exact db.typed q hq c hc
  | none =>
    change c.type.Holds (if c.name = m.pk then _ else _)
    split
    · next hname =>
      rw [hkey hname]
      rfl
    · exact c.type.holds_null

/-- What a model has to be like for its object to be written: the compared columns apart there are
the key, a text, and the soft-delete columns with a boolean mark. -/
def PlainModel (m : Model) : Prop :=
  ∀ c ∈ m.columns, c ∈ comparedColumns m ∨ (c.name = m.pk ∧ c.type = .text) ∨
    (c.name ∈ softDeleteNames ∧ (c.name = "is_deleted" → c.type = .boolean))

instance (m : Model) : Decidable (PlainModel m) :=
  inferInstanceAs (Decidable (∀ c ∈ m.columns, c ∈ comparedColumns m ∨
    (c.name = m.pk ∧ c.type = .text) ∨
    (c.name ∈ softDeleteNames ∧ (c.name = "is_deleted" → c.type = .boolean))))

/-- An object with the columns of a row takes its values. -/
lemma typed_assigned {db : Db P} {r : Row P} {m : Model} {found : Option (Record P)} {key : Text}
    {obj : Record P} (hm : r.model = m) (hplain : PlainModel m)
    (hobj : obj = assigned (found.getD ((newObject m).set m.pk (.str key))) values)
    (hfound : ∀ q, found = some q → q ∈ db.rows ∧ q.model = m)
    (hnames : m.pk ∉ values.map Prod.fst ∧ m.pk ∉ softDeleteNames ∧
      ∀ n ∈ softDeleteNames, n ∉ values.map Prod.fst)
    (hsame : ∀ n ∈ (comparedColumns m).map Column.name, obj.cells n = r.cells n) : obj.Typed := by
  have hbase : (found.getD ((newObject m).set m.pk (.str key))).model = m := by
    cases found with
    | none => rfl
    | some q => exact (hfound q rfl).2
  have hmodel : obj.model = m := by
    rw [hobj, model_assigned, hbase]
  intro c hc
  rw [hmodel] at hc
  obtain hcompared | ⟨hname, htype⟩ | ⟨hsoft, hmark⟩ := hplain c hc
  · rw [hsame c.name (List.mem_map_of_mem hcompared)]
    exact r.holds c (hm ▸ hc)
  · have hcell : obj.cells c.name = (found.getD ((newObject m).set m.pk (.str key))).cells c.name := by
      rw [hobj, hname]
      exact cells_assigned_of_notMem hnames.1 hnames.2.1
    rw [hcell]
    exact holds_found hfound hc (fun _ => htype)
  · have hcolumn : c ∈ (found.getD ((newObject m).set m.pk (.str key))).model.columns := by
      rw [hbase]
      exact hc
    rw [hobj]
    unfold assigned
    rw [Record.cells_setAll_of_notMem _ (hnames.2.2 _ hsoft)]
    exact holds_clearSoftDeleteFields _ hcolumn hsoft hmark

/-- A restoration by assignments brings back the row exactly if its object has the columns. -/
lemma bringsBack_assigned {env : RestoreEnv P} {db₀ : List (Record P)} {db : Db P} {r : Row P}
    {m : Model} {found : Option (Record P)} {key : Text} {obj : Record P} (hm : r.model = m)
    (hout : Unstopped env db₀ db r) (hpreview : previewLog db (buildLog db₀ r.toRecord) = .ok [])
    (hplan : restorePlan env db (buildLog db₀ r.toRecord) = .ok (.rows ⟨found, obj⟩ []))
    (hobj : obj = assigned (found.getD ((newObject m).set m.pk (.str key))) values)
    (hfound : ∀ q, found = some q → q ∈ db.rows ∧ q.model = m)
    (hplain : PlainModel m)
    (hnames : m.pk ∉ values.map Prod.fst ∧ m.pk ∉ softDeleteNames ∧
      ∀ n ∈ softDeleteNames, n ∉ values.map Prod.fst)
    (hkey : (∃ c ∈ m.columns, c.name = m.pk ∧ c.nullable = false) ∧ m.hasColumn "is_deleted")
    (hrequired : ∀ c ∈ m.columns, c.nullable = false → c.name ≠ m.pk → c.name ≠ "is_deleted" →
      obj.cells c.name ≠ .null)
    (hnumber : ∀ c ∈ comparedColumns m, c.type = .integer ∨ c.type = .json →
      ∀ b, obj.cells c.name ≠ .bool b)
    (hdefault : ∀ c ∈ comparedColumns m, c.default = none ∨ obj.cells c.name ≠ .null) :
    BringsBack env db₀ db r ↔
      ∀ n ∈ (comparedColumns m).map Column.name, obj.cells n = r.cells n := by
  have hbase : (found.getD ((newObject m).set m.pk (.str key))).model = m := by
    cases found with
    | none => rfl
    | some q => exact (hfound q rfl).2
  have hmodel : obj.model = m := by
    rw [hobj, model_assigned, hbase]
  have hmark : "is_deleted" ∉ values.map Prod.fst := hnames.2.2 _ (by decide)
  have hcomplete : (db.rowOf env ⟨found, obj⟩).Complete := by
    apply complete_rowOf
    intro c hc hnull
    by_cases hpk : c.name = m.pk
    · change obj.cells c.name ≠ .null
      rw [hpk, hobj, cells_assigned_of_notMem hnames.1 hnames.2.1]
      exact cells_found_ne_null hfound hkey.1 (by nofun)
    · by_cases hdeleted : c.name = "is_deleted"
      · change obj.cells c.name ≠ .null
        rw [hdeleted, hobj, isDeleted_assigned hmark (by rw [hbase]; exact hkey.2)]
        intro h
        cases h
      · exact hrequired c (hmodel ▸ hc) hnull hpk hdeleted
  have hwritten : ∀ c ∈ comparedColumns m, Write.Plain ⟨found, obj⟩ c.name := by
    intro c hc q hq
    by_cases hint : c.type = .integer ∨ c.type = .json
    · exact equalsNumber_of_not_bool (hnumber c hc hint)
    · obtain ⟨hmem, rfl⟩ := hfound q hq
      exact equalsNumber_of_holds (db.typed q hmem c (List.mem_of_mem_filter hc)) (not_or.mp hint)
  rw [bringsBack_iff hout hpreview hplan (hmodel.trans hm.symm) (by simp), and_iff_right hcomplete,
    sameColumns_rowOf (hmodel.trans hm.symm) (hm ▸ hwritten) (hm ▸ hdefault), hm]
  constructor
  · exact And.right
  · intro hsame
    refine ⟨List.forall_mem_singleton.mpr (typed_rowOf ?_ ?_), hsame⟩
    · exact typed_assigned hm hplain hobj hfound hnames hsame
    · intro q hq
      obtain ⟨hmem, hqm⟩ := hfound q hq
      exact ⟨db.typed q hmem, hqm.trans hmodel.symm⟩

end Assigned

/-- A text of the payload is that of the row. -/
lemma copy_column {db₀ : List (Record P)} {r : Row P} {m : Model} {n : String} (hm : r.model = m)
    (hc : ∃ c ∈ m.columns, c.name = n ∧ c.type = .text) :
    ofJson ((buildLog db₀ r.toRecord).payload.get n) = r.cells n := by
  obtain ⟨c, hc, hname, hct⟩ := hc
  rw [get_column hm ⟨c, hc, hname⟩, ofJson_text (Row.holdsAt hm ⟨c, hc, hname, hct⟩)]

lemma date_column {env : RestoreEnv P} {db₀ : List (Record P)} {r : Row P} {m : Model} {n : String}
    (hm : r.model = m) (hc : ∃ c ∈ m.columns, c.name = n ∧ c.type = .text) :
    normalizeDateStr env.tables.toUnicodeTables
        (ofJson ((buildLog db₀ r.toRecord).payload.get n)) = r.cells n ↔
      IsoText (r.cells n) := by
  rw [copy_column hm hc]
  exact normalizeDateStr_eq_self_iff env.tables (Row.holdsAt hm hc)

/-! ### Dockets -/

section Docket

variable {env : RestoreEnv P} {db₀ : List (Record P)} {db : Db P} {r : Row P}

lemma names_docketAssignments (env : RestoreEnv P) (db : Db P) (log : DeletionLog P) :
    (docketAssignments env db log).map Prod.fst = ["matter_id", "category", "name_ref", "name_free",
      "due_date", "extended_due_date", "visible_from_date", "done_date", "owner_staff_party_id",
      "memo", "raw_id"] := rfl

lemma comparedColumns_docketItem : (comparedColumns .docketItem).map Column.name =
    ["matter_id", "category", "name_ref", "name_free", "due_date", "extended_due_date",
      "visible_from_date", "done_date", "owner_staff_party_id", "snapshot_attorney",
      "snapshot_handler", "snapshot_manager", "memo", "raw_id"] := by
  decide

/-- The preview of a docket has no blockers only if it names a docket or a matter. -/
lemma previewDeadline_row (hm : r.model = .docketItem) (hout : Unstopped env db₀ db r) :
    previewLog db (buildLog db₀ r.toRecord) = .ok [] ∧
      (truthy ((buildLog db₀ r.toRecord).payload.get "docket_id") ||
        truthy ((buildLog db₀ r.toRecord).payload.get "matter_id")) = true := by
  have htype : (buildLog db₀ r.toRecord).entityType = .deadline := by
    change entityTypeForObject r.model = _
    rw [hm]
    rfl
  have hstrip : ∀ name, (∃ c ∈ Model.docketItem.columns, c.name = name ∧ c.type = .text) →
      ∃ t, stripText ((buildLog db₀ r.toRecord).payload.get name) = .ok t := by
    rintro name ⟨c, hc, rfl, hct⟩
    rw [get_column hm ⟨c, hc, rfl⟩, stripText_jsonSafe (hct ▸ Row.holdsAt hm ⟨c, hc, rfl, rfl⟩)]
    exact ⟨_, rfl⟩
  have hpreview : ∃ blockers, previewLog db (buildLog db₀ r.toRecord) = .ok blockers ∧
      (blockers = [] → (truthy ((buildLog db₀ r.toRecord).payload.get "docket_id") ||
        truthy ((buildLog db₀ r.toRecord).payload.get "matter_id")) = true) := by
    unfold previewLog
    rw [htype]
    dsimp only
    unfold previewDeadline
    split
    · next htruthy =>
      obtain ⟨_, h1⟩ := hstrip "docket_id" (by decide)
      obtain ⟨_, h2⟩ := hstrip "matter_id" (by decide)
      obtain ⟨_, h3⟩ := hstrip "name_ref" (by decide)
      obtain ⟨_, h4⟩ := hstrip "due_date" (by decide)
      obtain ⟨_, h5⟩ := hstrip "done_date" (by decide)
      rw [h1, h2, h3, h4, h5]
      exact ⟨_, rfl, fun _ => htruthy⟩
    · refine ⟨_, rfl, ?_⟩
      intro hnil
      unfold legacyDependency at hnil
      rw [get_other hm (by decide) (by decide)] at hnil
      cases hnil
  obtain ⟨blockers, hok, hkey⟩ := hpreview
  have hnil := blockers_eq_nil rfl hok hout
  rw [hnil] at hok
  exact ⟨hok, hkey hnil⟩

lemma category_eq_iff {v : Val P} (hv : ColumnType.text.Holds v) (db : Db P) (matterId : Text)
    (owner : PyJson P) :
    (if truthy (jsonSafe v) then ofJson (jsonSafe v)
      else .str (determineCategoryByStaffRole db matterId owner)) = v ↔ NonemptyText v := by
  split
  · next htruthy =>
    rw [ofJson_text hv]
    exact ⟨fun _ => (truthy_jsonSafe_text hv).mp htruthy, fun _ => rfl⟩
  · next htruthy =>
    have hcategory : NonemptyText (.str (determineCategoryByStaffRole db matterId owner) : Val P) := by
      unfold determineCategoryByStaffRole
      split
      · exact ⟨_, _, rfl⟩
      · split
        · split <;> exact ⟨_, _, rfl⟩
        · exact ⟨_, _, rfl⟩
    constructor
    · intro h
      rwa [h] at hcategory
    · intro h
      exact absurd ((truthy_jsonSafe_text hv).mpr h) htruthy

/-- The plan of a docket. -/
lemma restorePlan_docket (hm : r.model = .docketItem)
    (hkey : (truthy ((buildLog db₀ r.toRecord).payload.get "docket_id") ||
      truthy ((buildLog db₀ r.toRecord).payload.get "matter_id")) = true) :
    restorePlan env db (buildLog db₀ r.toRecord) =
      .ok (.rows ⟨db.get .docketItem (.str (restoreKey env (r.cells "docket_id"))),
        assigned ((db.get .docketItem (.str (restoreKey env (r.cells "docket_id")))).getD
            ((newObject .docketItem).set "docket_id" (.str (restoreKey env (r.cells "docket_id")))))
          (docketAssignments env db (buildLog db₀ r.toRecord))⟩ []) := by
  have htype : (buildLog db₀ r.toRecord).entityType = .deadline := by
    change entityTypeForObject r.model = _
    rw [hm]
    rfl
  unfold restorePlan
  rw [htype]
  dsimp only
  unfold restoreDeadline
  dsimp only
  rw [if_pos hkey, get_column hm (by decide), strOr_key (Row.holdsAt hm (by decide))]
  rfl

section DocketObject

variable {base obj : Record P} (hm : r.model = .docketItem)
  (hobj : obj = assigned base (docketAssignments env db (buildLog db₀ r.toRecord)))

include hobj in
lemma cells_docket {n : String} {v : Val P}
    (h : (n, v) ∈ docketAssignments env db (buildLog db₀ r.toRecord)) : obj.cells n = v := by
  rw [hobj]
  exact cells_assigned (by rw [names_docketAssignments]; decide) h

include hm hobj in
lemma copy_docket {n : String}
    (hn : (n, ofJson ((buildLog db₀ r.toRecord).payload.get n)) ∈
      docketAssignments env db (buildLog db₀ r.toRecord))
    (hc : ∃ c ∈ Model.docketItem.columns, c.name = n ∧ c.type = .text) :
    obj.cells n = r.cells n := by
  rw [cells_docket hobj hn, copy_column hm hc]

include hm hobj in
lemma date_docket {n : String}
    (hn : (n, normalizeDateStr env.tables.toUnicodeTables
      (ofJson ((buildLog db₀ r.toRecord).payload.get n))) ∈
      docketAssignments env db (buildLog db₀ r.toRecord))
    (hc : ∃ c ∈ Model.docketItem.columns, c.name = n ∧ c.type = .text) :
    obj.cells n = r.cells n ↔ IsoText (r.cells n) := by
  rw [cells_docket hobj hn, date_column hm hc]

include hm hobj in
lemma matterId_docket : obj.cells "matter_id" = r.cells "matter_id" := by
  have hv : obj.cells "matter_id" =
      .str (strOr ((buildLog db₀ r.toRecord).payload.get "matter_id") []) :=
    cells_docket hobj (by simp [docketAssignments])
  have htext : ColumnType.text.Holds (r.cells "matter_id") := Row.holdsAt hm (by decide)
  rw [hv, get_column hm (by decide), strOr_nil htext,
    str_textOfVal htext (Row.notNullAt hm (by decide))]

include hm hobj in
lemma category_docket : obj.cells "category" =
    if truthy (jsonSafe (r.cells "category")) then ofJson (jsonSafe (r.cells "category"))
    else .str (determineCategoryByStaffRole db
      (strOr ((buildLog db₀ r.toRecord).payload.get "matter_id") [])
      ((buildLog db₀ r.toRecord).payload.get "owner_staff_party_id")) := by
  have hget : (buildLog db₀ r.toRecord).payload.get "category" = jsonSafe (r.cells "category") :=
    get_column hm (by decide)
  rw [← hget]
  exact cells_docket hobj (by simp [docketAssignments])

include hm hobj in
lemma nameFree_docket : obj.cells "name_free" = r.cells "name_free" ↔
    NonemptyText (r.cells "name_free") := by
  have hv : obj.cells "name_free" = orTitle ((buildLog db₀ r.toRecord).payload.get "name_free")
      (buildLog db₀ r.toRecord) := cells_docket hobj (by simp [docketAssignments])
  rw [hv, get_column hm (by decide), orTitle_eq_iff (Row.holdsAt hm (by decide))]

include hm hobj in
lemma doneDate_docket : obj.cells "done_date" = r.cells "done_date" ↔
    DoneText (r.cells "done_date") := by
  have hv : obj.cells "done_date" = normalizeDoneDate env.tables.toUnicodeTables env.today
      (ofJson ((buildLog db₀ r.toRecord).payload.get "done_date")) :=
    cells_docket hobj (by simp [docketAssignments])
  have htext : ColumnType.text.Holds (r.cells "done_date") := Row.holdsAt hm (by decide)
  rw [hv, get_column hm (by decide), ofJson_text htext,
    normalizeDoneDate_eq_self_iff env.tables env.today htext]

end DocketObject

/-- A docket comes back exactly if its values survive. -/
lemma bringsBack_docket (hm : r.model = .docketItem) (hout : Unstopped env db₀ db r) :
    BringsBack env db₀ db r ↔ DocketSurvives env db r.cells := by
  obtain ⟨hpreview, hkey⟩ := previewDeadline_row hm hout
  have hplan : restorePlan env db (buildLog db₀ r.toRecord) = _ := restorePlan_docket hm hkey
  generalize hfound : db.get .docketItem (.str (restoreKey env (r.cells "docket_id"))) = found at hplan
  generalize hobj : assigned (found.getD ((newObject .docketItem).set "docket_id"
    (.str (restoreKey env (r.cells "docket_id")))))
    (docketAssignments env db (buildLog db₀ r.toRecord)) = obj at hplan
  have hsnapshot : ∀ n ∈ ["snapshot_attorney", "snapshot_handler", "snapshot_manager"],
      obj.cells n = foundCell found n := by
    intro n hn
    rw [← hobj]
    apply cells_assigned_found
    · rw [names_docketAssignments]
      revert n
      decide
    · revert n
      decide
    · revert n
      decide
  have hspec : ∀ q, found = some q → q ∈ db.rows ∧ q.model = .docketItem := by
    intro q hq
    have hget := Db.get_spec (hfound.trans hq)
    exact ⟨hget.1, hget.2.1⟩
  rw [bringsBack_assigned (m := .docketItem) hm hout hpreview hplan hobj.symm hspec (by decide)
    (by rw [names_docketAssignments]; decide) (by decide)]
  · rw [comparedColumns_docketItem]
    constructor
    · intro h
      constructor
      · rw [← category_eq_iff (Row.holdsAt hm (by decide)), ← category_docket hm hobj.symm]
        exact h _ (by decide)
      · exact (nameFree_docket hm hobj.symm).mp (h _ (by decide))
      · intro n hn
        simp only [List.mem_cons, List.not_mem_nil, or_false] at hn
        obtain rfl | rfl | rfl := hn <;>
          exact (date_docket hm hobj.symm (by simp [docketAssignments]) (by decide)).mp
            (h _ (by decide))
      · exact (doneDate_docket hm hobj.symm).mp (h _ (by decide))
      · intro n hn
        rw [hfound, ← hsnapshot n hn]
        refine (h n ?_).symm
        revert n
        decide
    · intro h n hn
      have hdate : ∀ n ∈ ["due_date", "extended_due_date", "visible_from_date"],
          obj.cells n = r.cells n := by
        intro n hn
        have hiso := h.dates n hn
        simp only [List.mem_cons, List.not_mem_nil, or_false] at hn
        obtain rfl | rfl | rfl := hn <;>
          exact (date_docket hm hobj.symm (by simp [docketAssignments]) (by decide)).mpr hiso
      have hkept : ∀ n ∈ ["snapshot_attorney", "snapshot_handler", "snapshot_manager"],
          obj.cells n = r.cells n := by
        intro n hn
        rw [hsnapshot n hn, h.notRestored n hn, hfound]
      simp only [List.mem_cons, List.not_mem_nil, or_false] at hn
      obtain rfl | rfl | rfl | rfl | rfl | rfl | rfl | rfl | rfl | rfl | rfl | rfl | rfl | rfl := hn
      · exact matterId_docket hm hobj.symm
      · rw [category_docket hm hobj.symm, category_eq_iff (Row.holdsAt hm (by decide))]
        exact h.category
      · exact copy_docket hm hobj.symm (by simp [docketAssignments]) (by decide)
      · exact (nameFree_docket hm hobj.symm).mpr h.nameFree
      · exact hdate _ (by decide)
      · exact hdate _ (by decide)
      · exact hdate _ (by decide)
      · exact (doneDate_docket hm hobj.symm).mpr h.doneDate
      · exact copy_docket hm hobj.symm (by simp [docketAssignments]) (by decide)
      · exact hkept _ (by decide)
      · exact hkept _ (by decide)
      · exact hkept _ (by decide)
      · exact copy_docket hm hobj.symm (by simp [docketAssignments]) (by decide)
      · exact copy_docket hm hobj.symm (by simp [docketAssignments]) (by decide)
  · intro c hc hnull hpk hdeleted
    have hnames : ∀ c ∈ Model.docketItem.columns, c.nullable = false → c.name ≠ Model.docketItem.pk →
        c.name ≠ "is_deleted" → c.name = "matter_id" ∨ c.name = "category" := by decide
    obtain h | h := hnames c hc hnull hpk hdeleted
    · rw [h, matterId_docket hm hobj.symm]
      exact Row.notNullAt hm (by decide)
    · rw [h, category_docket hm hobj.symm, ofJson_text (Row.holdsAt hm (by decide))]
      split
      · exact Row.notNullAt hm (by decide)
      · intro hv
        cases hv
  · have htext : ∀ c ∈ comparedColumns .docketItem, ¬(c.type = .integer ∨ c.type = .json) := by decide
    exact fun c hc hnumber => absurd hnumber (htext c hc)
  · intro c hc
    left
    have hnone : ∀ c ∈ comparedColumns .docketItem, c.default = none := by decide
    exact hnone c hc

end Docket

/-! ### Annuities -/

section Annuity

variable {env : RestoreEnv P} {db₀ : List (Record P)} {db : Db P} {r : Row P}

lemma names_annuityAssignments (env : RestoreEnv P) (log : DeletionLog P) (n : ℤ) :
    (annuityAssignments env log n).map Prod.fst = ["matter_id", "cycle_no", "annuity_status",
      "owner_staff_party_id", "due_date", "extended_due_date", "renewal_open_date",
      "renewal_notice_due", "internal_due_date", "paid_date", "official_fee", "vat_amount",
      "service_fee", "memo", "raw_id"] := rfl

lemma comparedColumns_annuityItem : (comparedColumns .annuityItem).map Column.name =
    ["matter_id", "owner_staff_party_id", "cycle_no", "annuity_status", "due_date",
      "extended_due_date", "renewal_open_date", "renewal_notice_due", "discount_rate",
      "official_fee", "vat_amount", "service_fee", "paid_date", "paid_amount",
      "internal_due_date", "memo", "raw_id"] := by
  decide

lemma matterDependency_ne_nil {db : Db P} {mid : Text} (h : pyStrip mid = []) :
    matterDependency db mid ≠ [] := by
  unfold matterDependency
  dsimp only
  rw [if_pos h]
  exact List.cons_ne_nil _ _

/-- The preview of an annuity has no blockers only if it names a matter. -/
lemma previewRenewal_row (hm : r.model = .annuityItem) (hout : Unstopped env db₀ db r) :
    previewLog db (buildLog db₀ r.toRecord) = .ok [] ∧ textOfVal (r.cells "matter_id") ≠ [] := by
  have htype : (buildLog db₀ r.toRecord).entityType = .renewal := by
    change entityTypeForObject r.model = _
    rw [hm]
    rfl
  have hmatter : ColumnType.text.Holds (r.cells "matter_id") := Row.holdsAt hm (by decide)
  have hpreview : ∃ blockers, previewLog db (buildLog db₀ r.toRecord) = .ok blockers ∧
      (blockers = [] → textOfVal (r.cells "matter_id") ≠ []) := by
    unfold previewLog
    rw [htype]
    dsimp only
    unfold previewRenewal
    split
    · rw [get_column hm (by decide), get_column hm (by decide),
        stripText_jsonSafe (Row.holdsAt hm (by decide)), stripText_jsonSafe hmatter]
      refine ⟨_, rfl, ?_⟩
      intro hnil hempty
      rw [List.append_assoc, List.append_eq_nil_iff] at hnil
      apply matterDependency_ne_nil _ hnil.1
      rw [hempty]
      rfl
    · refine ⟨_, rfl, ?_⟩
      intro hnil
      unfold legacyDependency at hnil
      rw [get_other hm (by decide) (by decide)] at hnil
      cases hnil
  obtain ⟨blockers, hok, hkey⟩ := hpreview
  have hnil := blockers_eq_nil rfl hok hout
  rw [hnil] at hok
  exact ⟨hok, hkey hnil⟩

lemma pyStrip_pyInt (n : ℤ) : pyStrip (pyInt n) = pyInt n :=
  pyStrip_of_stripped ⟨fun _ hc => (pyInt_char (List.mem_of_mem_head? hc)).1,
    fun _ hc => (pyInt_char (List.mem_of_getLast? hc)).1⟩

/-- The cycle of the payload is that of the row. -/
lemma cycleNo_row (hm : r.model = .annuityItem) :
    (coerceInt (orElse ((buildLog db₀ r.toRecord).payload.get "cycle_no")
      ((buildLog db₀ r.toRecord).payload.get "year"))).getD 0 = intOrZero (r.cells "cycle_no") := by
  have hcycle : ColumnType.integer.Holds (r.cells "cycle_no") := Row.holdsAt hm (by decide)
  have hnull : r.cells "cycle_no" ≠ .null := Row.notNullAt hm (by decide)
  rw [get_column hm (by decide), get_other hm (by decide) (by decide)]
  cases hn : r.cells "cycle_no" with
  | int n =>
    by_cases hzero : n = 0
    · rw [hzero]
      rfl
    · have htruthy : truthy (jsonSafe (.int n : Val P)) = true := decide_eq_true hzero
      unfold orElse
      rw [if_pos htruthy]
      change (if pyStrip (pyInt n) = [] then none else P.toInt (.int n)).getD 0 = n
      rw [pyStrip_pyInt, if_neg, P.toInt_int]
      · rfl
      · unfold pyInt
        split
        · exact List.cons_ne_nil _ _
        · exact pyDigits_ne_nil _
  | null => exact absurd hn hnull
  | _ =>
    rw [hn] at hcycle
    cases hcycle

/-- The plan of an annuity. -/
lemma restorePlan_annuity (hm : r.model = .annuityItem) (hmatter : textOfVal (r.cells "matter_id") ≠ []) :
    restorePlan env db (buildLog db₀ r.toRecord) =
      if intOrZero (r.cells "cycle_no") ≤ 0 then .error .missingAnnuityIdentity
      else .ok (.rows ⟨foundAnnuity env db r.cells,
        assigned ((foundAnnuity env db r.cells).getD
            ((newObject .annuityItem).set "annuity_id" (.str (restoreKey env (r.cells "annuity_id")))))
          (annuityAssignments env (buildLog db₀ r.toRecord) (intOrZero (r.cells "cycle_no")))⟩ []) := by
  have htype : (buildLog db₀ r.toRecord).entityType = .renewal := by
    change entityTypeForObject r.model = _
    rw [hm]
    rfl
  have htext : ColumnType.text.Holds (r.cells "matter_id") := Row.holdsAt hm (by decide)
  have htruthy : truthy (jsonSafe (r.cells "matter_id")) = true := by
    rw [truthy_jsonSafe_text htext]
    obtain h | ⟨t, h⟩ := holds_text_cases htext
    · rw [h] at hmatter
      exact absurd rfl hmatter
    · rw [h] at hmatter ⊢
      obtain ⟨c, u, hcu⟩ := List.exists_cons_of_ne_nil hmatter
      exact ⟨c, u, congrArg PyVal.str hcu⟩
  unfold restorePlan
  rw [htype]
  dsimp only
  unfold restoreRenewal
  dsimp only
  have hget : (buildLog db₀ r.toRecord).payload.get "matter_id" = jsonSafe (r.cells "matter_id") :=
    get_column hm (by decide)
  rw [cycleNo_row hm, hget, htruthy, Bool.or_true, if_pos rfl, strOr_nil htext,
    get_column hm (by decide), strOr_key (Row.holdsAt hm (by decide))]
  by_cases hcycle : intOrZero (r.cells "cycle_no") ≤ 0
  · rw [if_pos (Or.inr hcycle), if_pos hcycle]
  · rw [if_neg (not_or.mpr ⟨hmatter, hcycle⟩), if_neg hcycle]
    rfl

lemma Db.annuity_spec {annuityId matterId : Text} {n : ℤ} {q : Record P}
    (h : db.annuity annuityId matterId n = some q) : q ∈ db.rows ∧ q.model = .annuityItem := by
  unfold Db.annuity at h
  obtain h | ⟨_, h⟩ := Option.or_eq_some_iff.mp h
  · have hget := Db.get_spec h
    exact ⟨hget.1, hget.2.1⟩
  · have hp := List.find?_some h
    rw [decide_eq_true_eq] at hp
    exact ⟨List.mem_of_find?_eq_some h, hp.1⟩

lemma validateAnnuityStatus_mem (t : Text) :
    validateAnnuityStatus t ∈ ["pending".toList, "paid".toList, "giveup".toList] := by
  unfold validateAnnuityStatus
  dsimp only
  split_ifs <;> decide

lemma annuityStatus_eq_iff {v : Val P} :
    .str (validateAnnuityStatus ((pyStrip (strOr (orElse (jsonSafe v) .null)
      "pending".toList)).map asciiLower)) = v ↔
      ∃ t ∈ ["pending".toList, "paid".toList, "giveup".toList], v = .str t := by
  constructor
  · intro h
    exact ⟨_, validateAnnuityStatus_mem _, h.symm⟩
  · rintro ⟨t, ht, rfl⟩
    have hfixed : ∀ t ∈ ["pending".toList, "paid".toList, "giveup".toList],
        t ≠ [] ∧ validateAnnuityStatus ((pyStrip t).map asciiLower) = t := by decide
    obtain ⟨hne, hvalid⟩ := hfixed t ht
    have htruthy : truthy (jsonSafe (.str t : Val P)) = true := decide_eq_true hne
    have hstr : strOr (orElse (jsonSafe (.str t : Val P)) .null) "pending".toList = t := by
      unfold orElse strOr
      rw [if_pos htruthy, if_pos htruthy]
      rfl
    rw [hstr, hvalid]

lemma safeFloat_eq_iff {v : Val P} (hv : ColumnType.float.Holds v) :
    safeFloat (jsonSafe v) = v ↔ v ≠ .null := by
  cases v with
  | null =>
    constructor
    · intro h
      cases h
    · intro h
      exact absurd rfl h
  | float x =>
    have hx : safeFloat (jsonSafe (.float x : Val P)) = .float x := by
      change PyVal.float ((P.toFloat (.float x)).getD P.zero) = _
      rw [P.toFloat_float]
      rfl
    rw [hx]
    exact ⟨fun _ => nofun, fun _ => rfl⟩
  | _ => cases hv

/-- Zero counts as absent, and what stands in for it is zero again. -/
lemma safeFloat_orElse {v : Val P} (hv : ColumnType.float.Holds v) :
    safeFloat (orElse (jsonSafe v) .null) = safeFloat (jsonSafe v) := by
  cases v with
  | null => rfl
  | float x =>
    unfold orElse
    split
    · rfl
    · next htruthy =>
      have hzero : P.isZero x = true := by
        cases h : P.isZero x with
        | true => rfl
        | false =>
          apply absurd _ htruthy
          change (!P.isZero x) = true
          rw [h]
          rfl
      rw [(P.isZero_iff x).mp hzero]
      change PyVal.float P.zero = PyVal.float ((P.toFloat (.float P.zero)).getD P.zero)
      rw [P.toFloat_float]
      rfl
  | _ => cases hv

lemma memo_eq_iff {v : Val P} (hv : ColumnType.text.Holds v) :
    ofJson (orElse (jsonSafe v) .null) = v ↔ v ≠ .str [] := by
  obtain rfl | ⟨t, rfl⟩ := holds_text_cases hv
  · exact ⟨fun _ => nofun, fun _ => rfl⟩
  · cases t with
    | nil =>
      constructor
      · intro h
        cases h
      · intro h
        exact absurd rfl h
    | cons c t => exact ⟨fun _ => nofun, fun _ => rfl⟩

section AnnuityObject

variable {base obj : Record P} {n₀ : ℤ} (hm : r.model = .annuityItem)
  (hobj : obj = assigned base (annuityAssignments env (buildLog db₀ r.toRecord) n₀))

include hobj in
lemma cells_annuity {n : String} {v : Val P}
    (h : (n, v) ∈ annuityAssignments env (buildLog db₀ r.toRecord) n₀) : obj.cells n = v := by
  rw [hobj]
  exact cells_assigned (by rw [names_annuityAssignments]; decide) h

include hm hobj in
lemma copy_annuity {n : String}
    (hn : (n, ofJson ((buildLog db₀ r.toRecord).payload.get n)) ∈
      annuityAssignments env (buildLog db₀ r.toRecord) n₀)
    (hc : ∃ c ∈ Model.annuityItem.columns, c.name = n ∧ c.type = .text) :
    obj.cells n = r.cells n := by
  rw [cells_annuity hobj hn, copy_column hm hc]

include hm hobj in
lemma date_annuity {n : String}
    (hn : n ∈ ["due_date", "extended_due_date", "renewal_open_date", "renewal_notice_due",
      "internal_due_date", "paid_date"]) :
    obj.cells n = r.cells n ↔ IsoText (r.cells n) := by
  have hassigned : (n, normalizeDateStr env.tables.toUnicodeTables
      (ofJson ((buildLog db₀ r.toRecord).payload.get n))) ∈
      annuityAssignments env (buildLog db₀ r.toRecord) n₀ := by
    simp only [List.mem_cons, List.not_mem_nil, or_false] at hn
    obtain rfl | rfl | rfl | rfl | rfl | rfl := hn <;> simp [annuityAssignments]
  rw [cells_annuity hobj hassigned, date_column hm]
  clear hassigned
  revert n
  decide

include hm hobj in
lemma matterId_annuity : obj.cells "matter_id" = r.cells "matter_id" := by
  have hv : obj.cells "matter_id" =
      .str (strOr ((buildLog db₀ r.toRecord).payload.get "matter_id") []) :=
    cells_annuity hobj (by simp [annuityAssignments])
  have htext : ColumnType.text.Holds (r.cells "matter_id") := Row.holdsAt hm (by decide)
  rw [hv, get_column hm (by decide), strOr_nil htext,
    str_textOfVal htext (Row.notNullAt hm (by decide))]

include hobj in
lemma cells_status_annuity : obj.cells "annuity_status" = .str (validateAnnuityStatus ((pyStrip
    (strOr (orElse ((buildLog db₀ r.toRecord).payload.get "annuity_status")
      ((buildLog db₀ r.toRecord).payload.get "status")) "pending".toList)).map asciiLower)) :=
  cells_annuity hobj (by simp [annuityAssignments])

include hm hobj in
lemma status_annuity : obj.cells "annuity_status" = r.cells "annuity_status" ↔
    ∃ t ∈ ["pending".toList, "paid".toList, "giveup".toList], r.cells "annuity_status" = .str t := by
  rw [cells_status_annuity hobj, get_column hm (by decide), get_other hm (by decide) (by decide), annuityStatus_eq_iff]

include hm hobj in
lemma fee_annuity {n : String} (hn : n ∈ ["official_fee", "vat_amount", "service_fee"]) :
    obj.cells n = r.cells n ↔ r.cells n ≠ .null := by
  have hfloat : ∀ n ∈ ["official_fee", "vat_amount", "service_fee"],
      ∃ c ∈ Model.annuityItem.columns, c.name = n ∧ c.type = .float := by decide
  obtain ⟨c, hc, hname, hct⟩ := hfloat n hn
  have hv : ColumnType.float.Holds (r.cells n) := Row.holdsAt hm ⟨c, hc, hname, hct⟩
  have hcell : obj.cells n = safeFloat (jsonSafe (r.cells n)) := by
    have hget : (buildLog db₀ r.toRecord).payload.get n = jsonSafe (r.cells n) :=
      get_column hm ⟨c, hc, hname⟩
    rw [← hget]
    simp only [List.mem_cons, List.not_mem_nil, or_false] at hn
    obtain rfl | rfl | rfl := hn
    · have hfee : obj.cells "official_fee" =
          safeFloat (orElse ((buildLog db₀ r.toRecord).payload.get "official_fee")
            ((buildLog db₀ r.toRecord).payload.get "fee_amount")) :=
        cells_annuity hobj (by simp [annuityAssignments])
      rw [hfee, hget, get_other hm (by decide) (by decide), safeFloat_orElse hv]
    · exact cells_annuity hobj (by simp [annuityAssignments])
    · exact cells_annuity hobj (by simp [annuityAssignments])
  rw [hcell, safeFloat_eq_iff hv]

include hm hobj in
lemma memo_annuity : obj.cells "memo" = r.cells "memo" ↔ r.cells "memo" ≠ .str [] := by
  have hv : obj.cells "memo" = ofJson (orElse ((buildLog db₀ r.toRecord).payload.get "memo")
      ((buildLog db₀ r.toRecord).payload.get "notes")) :=
    cells_annuity hobj (by simp [annuityAssignments])
  rw [hv, get_column hm (by decide), get_other hm (by decide) (by decide),
    memo_eq_iff (Row.holdsAt hm (by decide))]

end AnnuityObject

lemma cycleNo_eq (hm : r.model = .annuityItem) :
    r.cells "cycle_no" = .int (intOrZero (r.cells "cycle_no")) := by
  have hcycle : ColumnType.integer.Holds (r.cells "cycle_no") := Row.holdsAt hm (by decide)
  have hnull : r.cells "cycle_no" ≠ .null := Row.notNullAt hm (by decide)
  cases hn : r.cells "cycle_no" with
  | int n => rfl
  | null => exact absurd hn hnull
  | _ =>
    rw [hn] at hcycle
    cases hcycle

/-- An annuity comes back exactly if its values survive. -/
lemma bringsBack_annuity (hm : r.model = .annuityItem) (hout : Unstopped env db₀ db r) :
    BringsBack env db₀ db r ↔ AnnuitySurvives env db r.cells := by
  obtain ⟨hpreview, hmatter⟩ := previewRenewal_row hm hout
  have hplan : restorePlan env db (buildLog db₀ r.toRecord) = _ := restorePlan_annuity hm hmatter
  by_cases hcycle : intOrZero (r.cells "cycle_no") ≤ 0
  · rw [if_pos hcycle] at hplan
    constructor
    · rintro ⟨restored, _, hok, _⟩
      rw [restoreRows_of_preview rfl hpreview, hplan] at hok
      cases hok
    · intro h
      exact absurd h.cycle (not_lt.mpr hcycle)
  rw [if_neg hcycle] at hplan
  have hspec : ∀ q, foundAnnuity env db r.cells = some q → q ∈ db.rows ∧ q.model = .annuityItem :=
    fun q hq => Db.annuity_spec hq
  generalize hfound : foundAnnuity env db r.cells = found at hplan hspec
  generalize hobj : assigned (found.getD ((newObject .annuityItem).set "annuity_id"
    (.str (restoreKey env (r.cells "annuity_id")))))
    (annuityAssignments env (buildLog db₀ r.toRecord) (intOrZero (r.cells "cycle_no"))) = obj at hplan
  have hcycleNo : obj.cells "cycle_no" = r.cells "cycle_no" := by
    rw [cycleNo_eq hm]
    exact cells_annuity hobj.symm (by simp [annuityAssignments])
  have hkept : ∀ n ∈ ["discount_rate", "paid_amount"], obj.cells n = foundCell found n := by
    intro n hn
    rw [← hobj]
    apply cells_assigned_found
    · rw [names_annuityAssignments]
      revert n
      decide
    · revert n
      decide
    · revert n
      decide
  rw [bringsBack_assigned (m := .annuityItem) hm hout hpreview hplan hobj.symm hspec (by decide)
    (by rw [names_annuityAssignments]; decide) (by decide)]
  · rw [comparedColumns_annuityItem]
    constructor
    · intro h
      constructor
      · exact not_le.mp hcycle
      · exact (status_annuity hm hobj.symm).mp (h _ (by decide))
      · intro n hn
        refine (fee_annuity hm hobj.symm hn).mp (h n ?_)
        revert n
        decide
      · exact (memo_annuity hm hobj.symm).mp (h _ (by decide))
      · intro n hn
        refine (date_annuity hm hobj.symm hn).mp (h n ?_)
        revert n
        decide
      · intro n hn
        rw [hfound, ← hkept n hn]
        refine (h n ?_).symm
        revert n
        decide
    · intro h n hn
      have hlost : ∀ n ∈ ["discount_rate", "paid_amount"], obj.cells n = r.cells n := by
        intro n hn
        rw [hkept n hn, h.notRestored n hn, hfound]
      have hfee : ∀ n ∈ ["official_fee", "vat_amount", "service_fee"], obj.cells n = r.cells n :=
        fun n hn => (fee_annuity hm hobj.symm hn).mpr (h.fees n hn)
      have hdate : ∀ n ∈ ["due_date", "extended_due_date", "renewal_open_date",
          "renewal_notice_due", "internal_due_date", "paid_date"], obj.cells n = r.cells n :=
        fun n hn => (date_annuity hm hobj.symm hn).mpr (h.dates n hn)
      simp only [List.mem_cons, List.not_mem_nil, or_false] at hn
      obtain rfl | rfl | rfl | rfl | rfl | rfl | rfl | rfl | rfl | rfl | rfl | rfl | rfl | rfl |
        rfl | rfl | rfl := hn
      · exact matterId_annuity hm hobj.symm
      · exact copy_annuity hm hobj.symm (by simp [annuityAssignments]) (by decide)
      · exact hcycleNo
      · exact (status_annuity hm hobj.symm).mpr h.status
      · exact hdate _ (by decide)
      · exact hdate _ (by decide)
      · exact hdate _ (by decide)
      · exact hdate _ (by decide)
      · exact hlost _ (by decide)
      · exact hfee _ (by decide)
      · exact hfee _ (by decide)
      · exact hfee _ (by decide)
      · exact hdate _ (by decide)
      · exact hlost _ (by decide)
      · exact hdate _ (by decide)
      · exact (memo_annuity hm hobj.symm).mpr h.memo
      · exact copy_annuity hm hobj.symm (by simp [annuityAssignments]) (by decide)
  · intro c hc hnull hpk hdeleted
    have hnames : ∀ c ∈ Model.annuityItem.columns, c.nullable = false →
        c.name ≠ Model.annuityItem.pk → c.name ≠ "is_deleted" →
        c.name = "matter_id" ∨ c.name = "cycle_no" := by decide
    obtain h | h := hnames c hc hnull hpk hdeleted
    · rw [h, matterId_annuity hm hobj.symm]
      exact Row.notNullAt hm (by decide)
    · rw [h, hcycleNo]
      exact Row.notNullAt hm (by decide)
  · have hnames : ∀ c ∈ comparedColumns .annuityItem, c.type = .integer ∨ c.type = .json →
        c.name = "cycle_no" := by decide
    intro c hc hnumber b
    rw [hnames c hc hnumber, hcycleNo, cycleNo_eq hm]
    intro h
    cases h
  · intro c hc
    have hnames : ∀ c ∈ comparedColumns .annuityItem, c.default = none ∨ c.name = "annuity_status" := by
      decide
    obtain h | h := hnames c hc
    · exact .inl h
    · right
      rw [h, cells_status_annuity hobj.symm]
      intro hnull
      cases hnull

end Annuity

end IpDocket.Deletion
