import IpDocket.Deletion.RestoreIdentity

/-!
# Deleting and restoring a row

The rows of the other models, and all of them together: a deletion followed by a restoration
that nothing else stops is the identity exactly on the rows whose values survive.
-/

namespace IpDocket.Deletion
open IpDocket.Lib

variable {P : PyTypes}

section Workflow

variable {env : RestoreEnv P} {db₀ : List (Record P)} {db : Db P} {r : Row P}

lemma holds_text_of_string {k : Nat} {v : Val P} (h : (ColumnType.string k).Holds v) :
    ColumnType.text.Holds v := by
  cases v with
  | null => trivial
  | str t => trivial
  | _ => cases h

lemma copy_value {m : Model} {n : String} (hm : r.model = m)
    (hc : ∃ c ∈ m.columns, c.name = n ∧ c.type ≠ .date ∧ c.type ≠ .datetime) :
    ofJson ((buildLog db₀ r.toRecord).payload.get n) = r.cells n := by
  obtain ⟨c, hc, hname, hdate, htime⟩ := hc
  rw [get_column hm ⟨c, hc, hname⟩]
  exact ofJson_jsonSafe (Row.holdsAt hm ⟨c, hc, hname, rfl⟩) hdate htime

/-- A date survives its ISO text. -/
lemma parseDate_jsonSafe {v : Val P} (hv : ColumnType.date.Holds v) : parseDate (jsonSafe v) = v := by
  cases v with
  | null => rfl
  | date d =>
    obtain ⟨c, rest, hcons, _⟩ := isoformat_cons d
    have htruthy : truthy (.str d.isoformat : PyJson P) = true := by
      rw [hcons]
      rfl
    have hplain : d.isoformat.takeWhile (· ≠ 'T') = d.isoformat := by
      apply List.takeWhile_eq_self_iff.mpr
      intro c hc
      obtain h | rfl := isoformat_chars d c hc
      · apply decide_eq_true
        rintro rfl
        cases h
      · rfl
    unfold parseDate
    change (if truthy (.str d.isoformat : PyJson P) = true then _ else _) = _
    rw [if_pos htruthy]
    change ((PyDate.fromIsoformat ((pyStrip d.isoformat).takeWhile (· ≠ 'T'))).map PyVal.date).getD
      .null = _
    rw [pyStrip_isoformat, hplain, PyDate.fromIsoformat_isoformat]
    rfl
  | _ => cases hv

lemma previewWorkflow_row (hm : r.model = .workflow) (hout : Unstopped env db₀ db r) :
    previewLog db (buildLog db₀ r.toRecord) = .ok [] := by
  have htype : (buildLog db₀ r.toRecord).entityType = .workflow := by
    change entityTypeForObject r.model = _
    rw [hm]
    rfl
  have hpreview : ∃ blockers, previewLog db (buildLog db₀ r.toRecord) = .ok blockers := by
    unfold previewLog
    rw [htype]
    dsimp only
    unfold previewWorkflow
    have hcode : (ColumnType.string 50).Holds (r.cells "business_code") :=
      Row.holdsAt hm (by decide)
    rw [get_column hm (by decide), get_column hm (by decide),
      stripText_jsonSafe (Row.holdsAt hm (by decide)),
      stripText_jsonSafe (holds_text_of_string hcode)]
    exact ⟨_, rfl⟩
  obtain ⟨blockers, hok⟩ := hpreview
  rw [blockers_eq_nil rfl hok hout] at hok
  exact hok

/-- The status that a restoration gives to a workflow. -/
def restoredStatus (v : Val P) : Text :=
  match v with
  | .str (c :: t) => validateStatus (c :: t)
  | _ => "Pending".toList

lemma restoredStatus_eq_iff {v : Val P} (hv : ColumnType.text.Holds v) :
    .str (restoredStatus v) = v ↔ ∃ t, v = .str t ∧ validateStatus t = t := by
  obtain rfl | ⟨t, rfl⟩ := holds_text_cases hv
  · simp
  · cases t with
    | nil =>
      constructor
      · intro h
        cases h
      · rintro ⟨t, h, hvalid⟩
        cases h
        cases hvalid
    | cons c t =>
      constructor
      · intro h
        exact ⟨_, rfl, PyVal.str.inj h⟩
      · rintro ⟨u, h, hvalid⟩
        cases h
        exact congrArg PyVal.str hvalid

lemma restorePlan_workflow (hm : r.model = .workflow) :
    restorePlan env db (buildLog db₀ r.toRecord) =
      .ok (.rows ⟨none, (newObject .workflow).setAll (workflowValues (buildLog db₀ r.toRecord) ++
        [("status", PyVal.str (restoredStatus (r.cells "status")))])⟩ []) := by
  have htype : (buildLog db₀ r.toRecord).entityType = .workflow := by
    change entityTypeForObject r.model = _
    rw [hm]
    rfl
  have hstatus : (ColumnType.string 20).Holds (r.cells "status") := Row.holdsAt hm (by decide)
  unfold restorePlan
  rw [htype]
  dsimp only
  unfold restoreWorkflow
  rw [get_column hm (by decide)]
  obtain h | ⟨t, h⟩ := holds_text_cases (holds_text_of_string hstatus)
  · rw [h]
    rfl
  · rw [h]
    cases t with
    | nil => rfl
    | cons c t => rfl

def workflowCopies : List String :=
  ["case_id", "business_code", "send_memo", "difficulty", "page_count", "work_hours",
    "assignee_id", "attorney_assignee_id", "inspector_id", "created_by_id", "note"]

def workflowDates : List String :=
  ["request_start_date", "legal_due_date", "draft_due_date", "draft_due_date2", "submit_due_date",
    "draft_sent_date", "submit_date", "due_date", "completed_date"]

/-- The columns of a workflow that a restoration does not write. -/
def workflowLost : List String :=
  ["source_docket_due_date", "source_docket_legal_due_date", "completed_by_id",
    "snapshot_attorney", "snapshot_handler", "snapshot_manager"]

lemma names_workflowValues (log : DeletionLog P) (s : Text) :
    (workflowValues log ++ [("status", PyVal.str s)]).map Prod.fst = ["case_id", "name",
      "business_code", "category", "priority", "send_memo", "request_start_date",
      "legal_due_date", "draft_due_date", "draft_due_date2", "submit_due_date",
      "draft_sent_date", "submit_date", "due_date", "completed_date", "difficulty",
      "page_count", "work_hours", "assignee_id", "attorney_assignee_id", "inspector_id",
      "created_by_id", "note", "status"] := rfl

section WorkflowObject

variable {obj : Record P} {s : Text} (hm : r.model = .workflow)
  (hobj : obj = (newObject .workflow).setAll
    (workflowValues (buildLog db₀ r.toRecord) ++ [("status", PyVal.str s)]))

include hobj in
lemma cells_workflow {n : String} {v : Val P}
    (h : (n, v) ∈ workflowValues (buildLog db₀ r.toRecord) ++ [("status", PyVal.str s)]) :
    obj.cells n = v := by
  rw [hobj]
  exact Record.cells_setAll_of_mem _ (by rw [names_workflowValues]; decide) h

include hm hobj in
lemma copy_workflow {n : String} (hn : n ∈ workflowCopies) : obj.cells n = r.cells n := by
  have hassigned : (n, ofJson ((buildLog db₀ r.toRecord).payload.get n)) ∈
      workflowValues (buildLog db₀ r.toRecord) ++ [("status", PyVal.str s)] := by
    simp only [workflowCopies, List.mem_cons, List.not_mem_nil, or_false] at hn
    obtain rfl | rfl | rfl | rfl | rfl | rfl | rfl | rfl | rfl | rfl | rfl := hn <;>
      simp [workflowValues]
  have htypes : ∀ n ∈ workflowCopies, ∃ c ∈ Model.workflow.columns, c.name = n ∧
      c.type ≠ .date ∧ c.type ≠ .datetime := by decide
  rw [cells_workflow hobj hassigned, copy_value hm (htypes n hn)]

include hm hobj in
lemma date_workflow {n : String} (hn : n ∈ workflowDates) : obj.cells n = r.cells n := by
  have hassigned : (n, parseDate ((buildLog db₀ r.toRecord).payload.get n)) ∈
      workflowValues (buildLog db₀ r.toRecord) ++ [("status", PyVal.str s)] := by
    simp only [workflowDates, List.mem_cons, List.not_mem_nil, or_false] at hn
    obtain rfl | rfl | rfl | rfl | rfl | rfl | rfl | rfl | rfl := hn <;> simp [workflowValues]
  have htypes : ∀ n ∈ workflowDates, ∃ c ∈ Model.workflow.columns, c.name = n ∧ c.type = .date := by
    decide
  obtain ⟨c, hc, hname, hct⟩ := htypes n hn
  rw [cells_workflow hobj hassigned, get_column hm ⟨c, hc, hname⟩,
    parseDate_jsonSafe (Row.holdsAt hm ⟨c, hc, hname, hct⟩)]

include hobj in
lemma lost_workflow {n : String} (hn : n ∈ workflowLost) : obj.cells n = .null := by
  rw [hobj, Record.cells_setAll_of_notMem]
  · rfl
  · rw [names_workflowValues]
    revert n
    decide

include hobj in
lemma cells_name_workflow : obj.cells "name" =
    orTitle ((buildLog db₀ r.toRecord).payload.get "name") (buildLog db₀ r.toRecord) :=
  cells_workflow hobj (by simp [workflowValues])

include hm hobj in
lemma name_workflow : obj.cells "name" = r.cells "name" ↔ NonemptyText (r.cells "name") := by
  have hname : (ColumnType.string 100).Holds (r.cells "name") := Row.holdsAt hm (by decide)
  rw [cells_name_workflow hobj, get_column hm (by decide),
    orTitle_eq_iff (holds_text_of_string hname)]

include hm hobj in
lemma category_workflow :
    obj.cells "category" = r.cells "category" ↔ NonemptyText (r.cells "category") := by
  have hcategory : (ColumnType.string 20).Holds (r.cells "category") := Row.holdsAt hm (by decide)
  have hv : obj.cells "category" =
      orText ((buildLog db₀ r.toRecord).payload.get "category") "WORK" :=
    cells_workflow hobj (by simp [workflowValues])
  rw [hv, get_column hm (by decide), orText_eq_iff (holds_text_of_string hcategory) rfl]

include hm hobj in
lemma priority_workflow :
    obj.cells "priority" = r.cells "priority" ↔ NonemptyText (r.cells "priority") := by
  have hpriority : (ColumnType.string 10).Holds (r.cells "priority") := Row.holdsAt hm (by decide)
  have hv : obj.cells "priority" =
      orText ((buildLog db₀ r.toRecord).payload.get "priority") "normal" :=
    cells_workflow hobj (by simp [workflowValues])
  rw [hv, get_column hm (by decide), orText_eq_iff (holds_text_of_string hpriority) rfl]

end WorkflowObject

lemma orTitle_ne_null {v : PyJson P} {log : DeletionLog P} : orTitle v log ≠ .null := by
  unfold orTitle
  split
  · next htruthy =>
    intro h
    cases v <;> cases h
    cases htruthy
  · split <;> nofun

/-- The row that is inserted for a workflow has its id and its name. -/
lemma complete_workflow {obj : Record P} {s : Text}
    (hobj : obj = (newObject .workflow).setAll
      (workflowValues (buildLog db₀ r.toRecord) ++ [("status", PyVal.str s)])) :
    (db.rowOf env ⟨none, obj⟩).Complete := by
  have hmodel : obj.model = .workflow := by
    rw [hobj, Record.model_setAll]
    rfl
  intro c hc hnull
  rw [model_rowOf, hmodel] at hc
  have hnames : ∀ c ∈ Model.workflow.columns, c.nullable = false →
      (c.name = Model.workflow.pk ∧ c.type = .integer) ∨ c.name = "name" := by decide
  obtain hpk | hname := hnames c hc hnull
  · have hid : obj.cells c.name = .null := by
      rw [hobj, Record.cells_setAll_of_notMem]
      · rfl
      · rw [hpk.1, names_workflowValues]
        decide
    change isNull ((insertedRow env db.nextId obj).cells c.name) = false
    unfold insertedRow
    dsimp only
    rw [hid, hmodel, find?_column hc]
    dsimp only
    rw [if_pos hpk]
    rfl
  · have hne : obj.cells c.name ≠ .null := by
      rw [hname, cells_name_workflow hobj]
      exact orTitle_ne_null
    exact isNull_eq_false.mpr (cells_rowOf_ne_null (w := ⟨none, obj⟩) env db hne)

/-- A workflow with the columns of the row takes its values. -/
lemma typed_workflow {obj : Record P} {s : Text} (hm : r.model = .workflow)
    (hobj : obj = (newObject .workflow).setAll
      (workflowValues (buildLog db₀ r.toRecord) ++ [("status", PyVal.str s)]))
    (hsame : ∀ n ∈ (comparedColumns .workflow).map Column.name, obj.cells n = r.cells n) :
    (db.rowOf env ⟨none, obj⟩).Typed := by
  have hmodel : obj.model = .workflow := by
    rw [hobj, Record.model_setAll]
    rfl
  apply typed_rowOf
  · intro c hc
    rw [hmodel] at hc
    have hnames : ∀ c ∈ Model.workflow.columns, c ∈ comparedColumns .workflow ∨
        c.name ∈ ["id", "created_at", "updated_at"] := by decide
    obtain hcompared | hname := hnames c hc
    · change c.type.Holds (obj.cells c.name)
      rw [hsame c.name (List.mem_map_of_mem hcompared)]
      exact r.holds c (hm ▸ hc)
    · have hnull : obj.cells c.name = .null := by
        rw [hobj, Record.cells_setAll_of_notMem]
        · rfl
        · rw [names_workflowValues]
          revert hname
          generalize c.name = n
          revert n
          decide
      change c.type.Holds (obj.cells c.name)
      rw [hnull]
      exact c.type.holds_null
  · nofun

/-- A workflow comes back exactly if its values survive. -/
lemma bringsBack_workflow (hm : r.model = .workflow) (hout : Unstopped env db₀ db r) :
    BringsBack env db₀ db r ↔ WorkflowSurvives r.cells := by
  have hpreview := previewWorkflow_row hm hout
  have hplan : restorePlan env db (buildLog db₀ r.toRecord) = _ := restorePlan_workflow hm
  generalize hobj : (newObject .workflow).setAll (workflowValues (buildLog db₀ r.toRecord) ++
    [("status", PyVal.str (restoredStatus (r.cells "status")))]) = obj at hplan
  have hmodel : obj.model = r.model := by
    rw [← hobj, Record.model_setAll, hm]
    rfl
  have hcellStatus : obj.cells "status" = .str (restoredStatus (r.cells "status")) :=
    cells_workflow hobj.symm (by simp)
  have htext : (ColumnType.string 20).Holds (r.cells "status") := Row.holdsAt hm (by decide)
  have hstatus : obj.cells "status" = r.cells "status" ↔
      ∃ t, r.cells "status" = .str t ∧ validateStatus t = t := by
    rw [hcellStatus]
    exact restoredStatus_eq_iff (holds_text_of_string htext)
  rw [bringsBack_iff hout hpreview hplan hmodel (by simp),
    and_iff_right (complete_workflow hobj.symm), sameColumns_rowOf hmodel (fun _ _ => by nofun), hm,
    List.forall_mem_singleton, and_iff_right_of_imp (typed_workflow hm hobj.symm)]
  · constructor
    · intro h
      constructor
      · exact (name_workflow hm hobj.symm).mp (h _ (by decide))
      · exact hstatus.mp (h _ (by decide))
      · exact (category_workflow hm hobj.symm).mp (h _ (by decide))
      · exact (priority_workflow hm hobj.symm).mp (h _ (by decide))
      · intro n hn
        have hcompared : ∀ n ∈ workflowLost, n ∈ (comparedColumns .workflow).map Column.name := by
          decide
        rw [← h n (hcompared n hn)]
        exact lost_workflow hobj.symm hn
    · intro h n hn
      have hnames : ∀ n ∈ (comparedColumns .workflow).map Column.name, n ∈ workflowCopies ∨
          n ∈ workflowDates ∨ n ∈ workflowLost ∨ n ∈ ["name", "status", "category", "priority"] := by
        decide
      obtain hn | hn | hn | hn := hnames n hn
      · exact copy_workflow hm hobj.symm hn
      · exact date_workflow hm hobj.symm hn
      · rw [lost_workflow hobj.symm hn]
        exact (h.notRestored n hn).symm
      · simp only [List.mem_cons, List.not_mem_nil, or_false] at hn
        obtain rfl | rfl | rfl | rfl := hn
        · exact (name_workflow hm hobj.symm).mpr h.name
        · exact hstatus.mpr h.status
        · exact (category_workflow hm hobj.symm).mpr h.category
        · exact (priority_workflow hm hobj.symm).mpr h.priority
  · intro c hc
    have hnames : ∀ c ∈ comparedColumns .workflow, c.default = none ∨ c.name = "status" := by
      decide
    obtain h | h := hnames c (hm ▸ hc)
    · exact .inl h
    · right
      change obj.cells c.name ≠ .null
      rw [h, hcellStatus]
      intro hnull
      cases hnull

end Workflow

section Columns

variable {env : RestoreEnv P} {db₀ : List (Record P)} {db : Db P} {r : Row P}

/-- The models that are restored column by column. -/
def ByColumns (m : Model) : Prop := m ≠ .docketItem ∧ m ≠ .annuityItem ∧ m ≠ .workflow

instance (m : Model) : Decidable (ByColumns m) :=
  inferInstanceAs (Decidable (m ≠ .docketItem ∧ m ≠ .annuityItem ∧ m ≠ .workflow))

lemma get_model : (buildLog db₀ r.toRecord).payload.get "_model" = .str r.model.className.toList :=
  (carries_buildLog db₀ r.toRecord).1

lemma strOr_model : strOr ((buildLog db₀ r.toRecord).payload.get "_model") [] =
    r.model.className.toList := by
  have hne : ∀ m : Model, m.className.toList ≠ [] := by decide
  have htruthy : truthy (.str r.model.className.toList : PyJson P) = true :=
    decide_eq_true (hne r.model)
  rw [get_model]
  unfold strOr
  rw [if_pos htruthy]
  rfl

lemma modelForPayload_row (hm : ByColumns r.model) :
    modelForPayload (buildLog db₀ r.toRecord).payload = some r.model := by
  have hfind : ∀ m : Model, ByColumns m → [Model.matterFileAsset, .matterMemoFileAsset,
      .matterPartyRole, .matterStaffAssignment, .party, .partyCode, .partyContact, .partyAddress,
      .legacyInvoice, .legacyInvoicePayment, .legacyExpense, .legacyExpensePayment,
      .externalInvoiceCaseLink, .externalInvoiceCaseMap, .caseExpenseInvoiceMap].find?
        (fun m' => m'.className.toList = pyStrip m.className.toList) = some m := by
    decide
  unfold modelForPayload
  dsimp only
  rw [strOr_model]
  exact hfind r.model hm

/-- The columns that a preview strips are texts, or not columns of the model. -/
def TextOrAbsent (m : Model) (n : String) : Prop :=
  (∃ c ∈ m.columns, c.name = n ∧ c.type = .text) ∨
    n ∉ ["_model", "_table", "_schema"] ++ m.columns.map Column.name

instance (m : Model) (n : String) : Decidable (TextOrAbsent m n) :=
  inferInstanceAs (Decidable ((∃ c ∈ m.columns, c.name = n ∧ c.type = .text) ∨
    n ∉ ["_model", "_table", "_schema"] ++ m.columns.map Column.name))

lemma stripText_row (hpayload : r.model ≠ .legacyInvoice ∧ r.model ≠ .legacyExpense) {n : String}
    (h : TextOrAbsent r.model n) :
    ∃ t, stripText ((buildLog db₀ r.toRecord).payload.get n) = .ok t := by
  obtain ⟨c, hc, hname, hct⟩ | h := h
  · rw [get_column rfl ⟨c, hc, hname⟩, stripText_jsonSafe (Row.holdsAt rfl ⟨c, hc, hname, hct⟩)]
    exact ⟨_, rfl⟩
  · rw [get_other rfl hpayload h]
    exact ⟨_, rfl⟩

lemma stripText_orElse {v w : PyJson P} (hv : ∃ t, stripText v = .ok t)
    (hw : ∃ t, stripText w = .ok t) : ∃ t, stripText (orElse v w) = .ok t := by
  unfold orElse
  split
  · exact hv
  · exact hw

lemma preview_columns (hm : ByColumns r.model) (hout : Unstopped env db₀ db r) :
    previewLog db (buildLog db₀ r.toRecord) = .ok [] := by
  have htype : (buildLog db₀ r.toRecord).entityType = entityTypeForObject r.model := rfl
  have hstrip : entityTypeForObject r.model = .file ∨ entityTypeForObject r.model = .person →
      ∀ n ∈ ["matter_id", "file_asset_id", "party_id", "staff_party_id"],
        ∃ t, stripText ((buildLog db₀ r.toRecord).payload.get n) = .ok t := by
    have htext : ∀ m : Model, entityTypeForObject m = .file ∨ entityTypeForObject m = .person →
        (m ≠ .legacyInvoice ∧ m ≠ .legacyExpense) ∧
        ∀ n ∈ ["matter_id", "file_asset_id", "party_id", "staff_party_id"], TextOrAbsent m n := by
      decide
    intro h n hn
    exact stripText_row (htext r.model h).1 ((htext r.model h).2 n hn)
  have hpreview : ∃ blockers, previewLog db (buildLog db₀ r.toRecord) = .ok blockers := by
    have hcases : ∀ m : Model, ByColumns m → entityTypeForObject m = .file ∨
        entityTypeForObject m = .person ∨ entityTypeForObject m = .billingInvoice ∨
        entityTypeForObject m = .billingExpense ∨ entityTypeForObject m = .billingPayment ∨
        entityTypeForObject m = .billingLink := by decide
    unfold previewLog
    rw [htype]
    obtain h | h | h | h | h | h := hcases r.model hm
    · rw [h]
      dsimp only
      unfold previewFile
      obtain ⟨_, h1⟩ := hstrip (.inl h) "matter_id" (by decide)
      obtain ⟨_, h2⟩ := hstrip (.inl h) "file_asset_id" (by decide)
      rw [h1, h2]
      exact ⟨_, rfl⟩
    · rw [h]
      dsimp only
      unfold previewPerson
      obtain ⟨_, h1⟩ := hstrip (.inr h) "matter_id" (by decide)
      obtain ⟨_, h2⟩ := stripText_orElse (hstrip (.inr h) "party_id" (by decide))
        (hstrip (.inr h) "staff_party_id" (by decide))
      rw [h1, h2]
      dsimp only
      split <;> exact ⟨_, rfl⟩
    all_goals
      rw [h]
      exact ⟨_, rfl⟩
  obtain ⟨blockers, hok⟩ := hpreview
  rw [blockers_eq_nil rfl hok hout] at hok
  exact hok

/-- The payload has the columns of the row. -/
def HasColumns (payload : Payload P) (r : Record P) : Prop :=
  ∀ c ∈ r.model.columns, payload.any (fun kv => kv.1 = c.name.toList) = true ∧
    payload.get c.name = jsonSafe (r.cells c.name)

lemma any_columnPayload {q : Record P} {c : Column} (hc : c ∈ q.model.columns) :
    (columnPayload q).any (fun kv => kv.1 = c.name.toList) = true := by
  rw [List.any_eq_true]
  refine ⟨(c.name.toList, jsonSafe (q.cells c.name)), ?_, decide_eq_true rfl⟩
  unfold columnPayload
  exact List.mem_append_right _ (List.mem_map_of_mem hc)

lemma hasColumns_columnPayload (q : Record P) : HasColumns (columnPayload q) q :=
  fun _ hc => ⟨any_columnPayload hc, get_columnPayload hc⟩

lemma hasColumns_buildLog (db₀ : List (Record P)) (r : Row P) :
    HasColumns (buildLog db₀ r.toRecord).payload r.toRecord := by
  intro c hc
  obtain ⟨rest, hpayload⟩ :
      ∃ rest, (buildLog db₀ r.toRecord).payload = columnPayload r.toRecord ++ rest := by
    unfold buildLog payloadForObject
    dsimp only
    split
    · exact ⟨_, rfl⟩
    · exact ⟨_, rfl⟩
    · exact ⟨[], (List.append_nil _).symm⟩
  refine ⟨?_, get_column rfl ⟨c, hc, rfl⟩⟩
  rw [hpayload, List.any_append, any_columnPayload hc, Bool.true_or]

/-- All columns are in the payload, so all are assigned. -/
lemma assignPayloadColumns_eq {payload : Payload P} (hp : HasColumns payload r.toRecord) {o : Record P}
    (ho : o.model = r.model) :
    assignPayloadColumns o payload =
      o.setAll (r.model.columns.map (fun c =>
        (c.name, assignValue c.type (jsonSafe (r.cells c.name))))) := by
  have hfold : ∀ cs : List Column, (∀ c ∈ cs, c ∈ r.model.columns) → ∀ o : Record P,
      cs.foldl (fun o c =>
        if payload.any (fun kv => kv.1 = c.name.toList) then
          o.set c.name (assignValue c.type (payload.get c.name))
        else o) o =
      o.setAll (cs.map (fun c => (c.name, assignValue c.type (jsonSafe (r.cells c.name))))) := by
    intro cs
    induction cs with
    | nil =>
      intro _ o
      rfl
    | cons c cs ih =>
      intro hcs o
      obtain ⟨hany, hget⟩ := hp c (hcs c List.mem_cons_self)
      rw [List.foldl_cons, if_pos hany, hget, ih (fun c hc => hcs c (List.mem_cons_of_mem _ hc))]
      rfl
  unfold assignPayloadColumns
  rw [ho]
  exact hfold _ (fun _ hc => hc) o

lemma jsonSafe_eq_null {type : ColumnType} {v : Val P} (hv : type.Holds v)
    (h : jsonSafe v = .null) : v = .null := by
  cases v with
  | null => rfl
  | json j =>
    cases type with
    | json =>
      cases j with
      | null => cases hv
      | _ => cases h
    | _ => cases hv
  | _ => cases h

lemma jsonSafe_eq_empty {type : ColumnType} {v : Val P} (hv : type.Holds v) (hdate : type ≠ .date)
    (htime : type ≠ .datetime) (h : jsonSafe v = .str []) : v = .str [] := by
  cases v with
  | str t =>
    cases h
    rfl
  | date d =>
    cases type with
    | date => exact absurd rfl hdate
    | _ => cases hv
  | datetime t =>
    cases type with
    | datetime => exact absurd rfl htime
    | _ => cases hv
  | json j =>
    cases type with
    | json =>
      cases j with
      | str t => cases hv
      | _ => cases h
    | _ => cases hv
  | _ => cases h

/-- The empty text is the only value that an assignment changes. -/
lemma assignValue_jsonSafe {type : ColumnType} {v : Val P} (hv : type.Holds v)
    (hdate : type ≠ .date) (htime : type ≠ .datetime) (hempty : v ≠ .str []) :
    assignValue type (jsonSafe v) = v := by
  unfold assignValue
  split
  · next h => exact (jsonSafe_eq_null hv h).symm
  · next h => exact absurd (jsonSafe_eq_empty hv hdate htime h) hempty
  · split
    · exact absurd rfl hdate
    · exact absurd rfl htime
    · exact ofJson_jsonSafe hv hdate htime

/-- An assigned value can be stored. -/
lemma holds_assignValue {type : ColumnType} {v : Val P} (hv : type.Holds v) :
    type.Holds (assignValue type (jsonSafe v)) := by
  by_cases hdate : type = .date
  · subst hdate
    unfold assignValue
    split
    · rfl
    · rfl
    · unfold parseDate
      dsimp only
      split
      · cases PyDate.fromIsoformat _ <;> rfl
      · rfl
  by_cases htime : type = .datetime
  · subst htime
    unfold assignValue
    split
    · rfl
    · rfl
    · unfold parseDatetime
      dsimp only
      split
      · cases P.fromIsoformat _ <;> rfl
      · rfl
  by_cases hempty : v = .str []
  · rw [hempty]
    exact type.holds_null
  · rw [assignValue_jsonSafe hv hdate htime hempty]
    exact hv

/-! ### The object of a row -/

lemma getKeyed_row {payload : Payload P} (hp : HasColumns payload r.toRecord) :
    db.getKeyed r.model payload = foundRow db r.toRecord := by
  obtain ⟨c, hc, hname, htype, hnull⟩ := pk_mem r.model
  have hholds : c.type.Holds r.pkValue := Row.holdsAt rfl ⟨c, hc, hname, rfl⟩
  have hne : r.pkValue ≠ .null := Row.notNullAt rfl ⟨c, hc, hname, hnull⟩
  unfold Db.getKeyed foundRow
  rw [← hname, (hp c hc).2, hname, ← Record.pkValue]
  obtain h | h := archiveColumnType_cases r.model
  · rw [htype, h] at hholds
    obtain hv | ⟨t, hv⟩ := holds_text_cases hholds
    · exact absurd hv hne
    · rw [hv]
      cases t with
      | nil => rfl
      | cons c t => rfl
  · rw [htype, h] at hholds
    cases hv : r.pkValue with
    | null => exact absurd hv hne
    | int n => rfl
    | _ =>
      rw [hv] at hholds
      cases hholds

lemma foundRow_spec {q : Record P} (h : foundRow db r.toRecord = some q) :
    q ∈ db.rows ∧ q.model = r.model := by
  unfold foundRow at h
  split at h
  · cases h
  · have hget := Db.get_spec h
    exact ⟨hget.1, hget.2.1⟩

section ColumnsObject

variable {payload : Payload P} {w : Write P} (hp : HasColumns payload r.toRecord)
  (hw : w = upsertFromPayload db r.model payload)

include hp hw in
lemma loaded_columns : w.loaded = foundRow db r.toRecord := by
  rw [hw, ← getKeyed_row hp]
  rfl

lemma model_foundOrNew : (foundOrNew (foundRow db r.toRecord) r.model).model = r.model := by
  unfold foundOrNew
  cases h : foundRow db r.toRecord with
  | none => rfl
  | some q => exact (foundRow_spec h).2

include hp hw in
lemma object_columns : w.object = clearSoftDeleteFields ((foundOrNew (foundRow db r.toRecord)
    r.model).setAll (r.model.columns.map (fun c =>
      (c.name, assignValue c.type (jsonSafe (r.cells c.name)))))) := by
  rw [hw, ← assignPayloadColumns_eq hp model_foundOrNew, ← getKeyed_row hp]
  rfl

include hp hw in
lemma model_columns : w.object.model = r.model := by
  rw [object_columns hp hw, model_clearSoftDeleteFields, Record.model_setAll, model_foundOrNew]

include hp hw in
lemma cells_columns {c : Column} (hc : c ∈ r.model.columns) (hsoft : c.name ∉ softDeleteNames) :
    w.object.cells c.name = assignValue c.type (jsonSafe (r.cells c.name)) := by
  rw [object_columns hp hw, cells_clearSoftDeleteFields _ hsoft]
  apply Record.cells_setAll_of_mem
  · rw [List.map_map]
    exact Model.nodup_columns r.model
  · exact List.mem_map_of_mem hc

include hp hw in
lemma isDeleted_columns (h : r.model.hasColumn "is_deleted") :
    w.object.cells "is_deleted" = .bool false := by
  rw [object_columns hp hw, isDeleted_clearSoftDeleteFields]
  rw [← model_clearSoftDeleteFields, ← object_columns hp hw, model_columns hp hw]
  exact h

include hp hw in
lemma holds_columns {c : Column} (hc : c ∈ r.model.columns)
    (hmark : c.name = "is_deleted" → c.type = .boolean) : c.type.Holds (w.object.cells c.name) := by
  by_cases hsoft : c.name ∈ softDeleteNames
  · rw [object_columns hp hw]
    apply holds_clearSoftDeleteFields _ _ hsoft hmark
    rw [Record.model_setAll, model_foundOrNew]
    exact hc
  · rw [cells_columns hp hw hc hsoft]
    exact holds_assignValue (r.holds c hc)

include hp hw in
lemma loaded_typed (q : Record P) (hq : w.loaded = some q) : q.Typed ∧ q.model = w.object.model := by
  rw [loaded_columns hp hw] at hq
  obtain ⟨hmem, hm⟩ := foundRow_spec hq
  exact ⟨db.typed q hmem, hm.trans (model_columns hp hw).symm⟩

include hp hw in
/-- A row with a boolean mark, or with none, can always be written. -/
lemma typed_columns (hm : r.model ≠ .caseExpenseInvoiceMap) : (db.rowOf env w).Typed := by
  have hmark : ∀ m : Model, m ≠ .caseExpenseInvoiceMap → ∀ c ∈ m.columns, c.name = "is_deleted" →
      c.type = .boolean := by decide
  apply typed_rowOf
  · intro c hc
    rw [model_columns hp hw] at hc
    exact holds_columns hp hw hc (hmark r.model hm c hc)
  · exact loaded_typed hp hw

include hp hw in
/-- A link to an invoice can be written only if it is there and live: its mark is left alone then. -/
lemma typed_link_iff (hm : r.model = .caseExpenseInvoiceMap) : (db.rowOf env w).Typed ↔
    ∃ l, foundRow db r.toRecord = some l ∧ l.cells "is_deleted" = .int 0 := by
  have hcolumn : (required "is_deleted" .integer).withDefault (.int 0) ∈ r.model.columns := by
    rw [hm]
    decide
  have hmark : w.object.cells "is_deleted" = .bool false := by
    apply isDeleted_columns hp hw
    rw [hm]
    decide
  have hloaded := loaded_columns hp hw
  constructor
  · intro htyped
    have hcell := htyped _ (by rw [model_rowOf, model_columns hp hw]; exact hcolumn)
    change ColumnType.integer.Holds ((db.rowOf env w).cells "is_deleted") at hcell
    cases hfound : foundRow db r.toRecord with
    | none =>
      rw [hfound] at hloaded
      have hplain : w.Plain "is_deleted" := by
        intro q hq
        rw [hloaded] at hq
        cases hq
      rw [cells_rowOf_of_ne_null env db hplain (by rw [hmark]; nofun), hmark] at hcell
      cases hcell
    | some l =>
      refine ⟨l, rfl, ?_⟩
      rw [hfound] at hloaded
      by_cases hequal : equalsNumber (l.cells "is_deleted") (.bool false) = true
      · generalize l.cells "is_deleted" = v at hequal
        cases v with
        | int n => exact congrArg PyVal.int (of_decide_eq_true hequal)
        | _ => cases hequal
      · have hplain : w.Plain "is_deleted" := by
          intro q hq
          rw [hloaded] at hq
          cases hq
          rw [hmark]
          exact Bool.eq_false_iff.mpr hequal
        rw [cells_rowOf_of_ne_null env db hplain (by rw [hmark]; nofun), hmark] at hcell
        cases hcell
  · rintro ⟨l, hfound, hlive⟩
    rw [hfound] at hloaded
    intro c hc
    rw [model_rowOf, model_columns hp hw] at hc
    have hrow : db.rowOf env w = updatedRow l w.object := by
      unfold Db.rowOf
      rw [hloaded]
    rw [hrow]
    unfold updatedRow
    dsimp only
    split
    · obtain ⟨htyped, hmodel⟩ := loaded_typed hp hw l hloaded
      apply htyped c
      rw [hmodel, model_columns hp hw]
      exact hc
    · next hunequal =>
      apply holds_columns hp hw hc
      intro hname
      rw [hname, hmark, hlive] at hunequal
      exact absurd rfl hunequal

end ColumnsObject

/-! ### The row that is written -/

/-- What stands in a column whose attribute is `None`. -/
lemma isNull_defaultValue (env : RestoreEnv P) (c : Column) :
    isNull (defaultValue env c) = c.default.isNone := by
  unfold defaultValue
  split
  · next h =>
    rw [h]
    rfl
  all_goals
    next h =>
    rw [h]
    first
    | rfl
    | (split <;> rfl)

lemma plain_defaults : ∀ m : Model, ByColumns m → ∀ c ∈ comparedColumns m,
    c.type ≠ .date ∧ c.type ≠ .datetime ∧
      c.default ∈ [none, some (.bool false), some (.int 1), some (.str "")] := by
  decide

lemma required_plain : ∀ m : Model, ByColumns m → ∀ c ∈ m.columns, c.nullable = false →
    c.name ∉ softDeleteNames → c.type ≠ .date ∧ c.type ≠ .datetime := by
  decide

lemma required_soft : ∀ m : Model, ∀ c ∈ m.columns, c.nullable = false →
    c.name ∈ softDeleteNames → c.name = "is_deleted" := by
  decide

section ColumnsRow

variable {payload : Payload P} {w : Write P} (hp : HasColumns payload r.toRecord)
  (hw : w = upsertFromPayload db r.model payload)

include hp hw in
/-- A compared column comes back exactly if its value survives. -/
lemma compared_columns (hm : ByColumns r.model) {c : Column} (hc : c ∈ comparedColumns r.model) :
    (db.rowOf env w).cells c.name = r.cells c.name ↔
      (r.cells c.name = .str [] → foundRow db r.toRecord = none ∧ c.default = some (.str "")) ∧
      (r.cells c.name = .null → (foundRow db r.toRecord).isSome ∨ c.default = none) ∧
      ∀ q, foundRow db r.toRecord = some q →
        equalsNumber (q.cells c.name) (r.cells c.name) = false := by
  obtain ⟨hdate, htime, hdefault⟩ := plain_defaults r.model hm c hc
  obtain ⟨hcolumn, hcompared⟩ := List.mem_filter.mp hc
  obtain ⟨hpk, hsoft, _⟩ := of_decide_eq_true hcompared
  have hholds : c.type.Holds (r.cells c.name) := r.holds c hcolumn
  have hcell := cells_columns hp hw hcolumn hsoft
  have hmodel := model_columns hp hw
  have hloaded := loaded_columns hp hw
  have hnull : w.object.cells c.name = .null →
      (db.rowOf env w).cells c.name =
        if (foundRow db r.toRecord).isSome then .null else defaultValue env c := by
    intro h
    rw [cells_rowOf_of_null env db (hmodel ▸ hcolumn) (hmodel ▸ fun h => hpk h.1) h, hloaded]
  by_cases hempty : r.cells c.name = .str []
  · have hunequal : ∀ q, foundRow db r.toRecord = some q →
        equalsNumber (q.cells c.name) (r.cells c.name) = false := by
      intro q _
      rw [hempty]
      exact equalsNumber_of_not_bool (by simp)
    rw [← and_assoc, and_iff_left hunequal]
    rw [hempty] at hcell ⊢
    rw [hnull hcell]
    have hne : (PyVal.str [] : Val P) ≠ .null := by
      intro h
      cases h
    simp only [true_implies, hne, false_implies, and_true]
    cases foundRow db r.toRecord with
    | some q =>
      constructor
      · intro h
        cases h
      · rintro ⟨h, _⟩
        cases h
    | none =>
      simp only [Option.isSome_none, Bool.false_eq_true, if_false, true_and]
      unfold defaultValue
      simp only [List.mem_cons, List.not_mem_nil, or_false] at hdefault
      obtain h | h | h | h := hdefault <;> simp [h]
  · rw [assignValue_jsonSafe hholds hdate htime hempty] at hcell
    by_cases hv : r.cells c.name = .null
    · have hunequal : ∀ q, foundRow db r.toRecord = some q →
          equalsNumber (q.cells c.name) (r.cells c.name) = false := by
        intro q _
        rw [hv]
        exact equalsNumber_of_not_bool (by simp)
      rw [← and_assoc, and_iff_left hunequal]
      rw [hv] at hcell ⊢
      rw [hnull hcell]
      have hne : (PyVal.null : Val P) ≠ .str [] := by
        intro h
        cases h
      simp only [true_implies, hne, false_implies, true_and]
      cases foundRow db r.toRecord with
      | some q => simp
      | none =>
        simp only [Option.isSome_none, Bool.false_eq_true, if_false, false_or]
        unfold defaultValue
        simp only [List.mem_cons, List.not_mem_nil, or_false] at hdefault
        obtain h | h | h | h := hdefault <;> simp [h]
    · simp only [hempty, hv, false_implies, true_and]
      by_cases hplain : w.Plain c.name
      · rw [cells_rowOf_of_ne_null env db hplain (by rw [hcell]; exact hv), hcell]
        unfold Write.Plain at hplain
        rw [hloaded, hcell] at hplain
        exact iff_of_true rfl hplain
      · -- the column keeps the number that was loaded
        unfold Write.Plain at hplain
        push Not at hplain
        obtain ⟨q, hq, hequal⟩ := hplain
        have hkept : (db.rowOf env w).cells c.name = q.cells c.name := by
          unfold Db.rowOf
          rw [hq]
          exact if_pos (by simpa using hequal)
        rw [hkept]
        rw [hloaded] at hq
        rw [hcell] at hequal
        refine iff_of_false ?_ (fun h => hequal (h q hq))
        intro hsame
        rw [hsame] at hequal
        generalize r.cells c.name = v at hequal
        cases v <;> exact hequal rfl

include hp hw in
/-- No required column is `NULL` exactly if an empty one has a default. -/
lemma complete_columns (hm : ByColumns r.model) : (db.rowOf env w).Complete ↔
    ∀ c ∈ r.model.columns, c.nullable = false → c.name ∉ softDeleteNames →
      r.cells c.name = .str [] → foundRow db r.toRecord = none ∧ c.default ≠ none := by
  have hmodel := model_columns hp hw
  -- the columns that are not empty, and `is_deleted`, are written as they are
  have hkept : ∀ c ∈ r.model.columns, c.nullable = false →
      (c.name ∈ softDeleteNames ∨ r.cells c.name ≠ .str []) →
      isNull ((db.rowOf env w).cells c.name) = false := by
    intro c hc hnullable h
    have hne : w.object.cells c.name ≠ .null := by
      by_cases hsoft : c.name ∈ softDeleteNames
      · have hname := required_soft r.model c hc hnullable hsoft
        rw [hname, isDeleted_columns hp hw]
        · nofun
        · unfold Model.hasColumn
          rw [List.any_eq_true]
          exact ⟨c, hc, decide_eq_true hname⟩
      · obtain ⟨hdate, htime⟩ := required_plain r.model hm c hc hnullable hsoft
        rw [cells_columns hp hw hc hsoft,
          assignValue_jsonSafe (r.holds c hc) hdate htime (h.resolve_left hsoft)]
        exact r.notNull c hc hnullable
    exact isNull_eq_false.mpr (cells_rowOf_ne_null env db hne)
  -- an empty one gets its default
  have hempty : ∀ c ∈ r.model.columns, c.name ∉ softDeleteNames → r.cells c.name = .str [] →
      (isNull ((db.rowOf env w).cells c.name) = false ↔
        foundRow db r.toRecord = none ∧ c.default ≠ none) := by
    intro c hc hsoft hv
    have hcell : w.object.cells c.name = .null := by
      rw [cells_columns hp hw hc hsoft, hv]
      rfl
    have htype : c.type ≠ .integer := by
      intro h
      have hholds := r.holds c hc
      rw [h, hv] at hholds
      cases hholds
    have hrow : (db.rowOf env w).cells c.name =
        if (foundRow db r.toRecord).isSome then .null else defaultValue env c := by
      rw [cells_rowOf_of_null env db (hmodel ▸ hc) (fun h => htype h.2) hcell, loaded_columns hp hw]
    rw [hrow]
    cases foundRow db r.toRecord with
    | some q => simp [isNull]
    | none =>
      simp only [Option.isSome_none, Bool.false_eq_true, if_false, true_and, isNull_defaultValue]
      cases c.default <;> simp
  constructor
  · intro h c hc hnullable hsoft hv
    rw [← hempty c hc hsoft hv]
    apply h c _ hnullable
    rw [model_rowOf, hmodel]
    exact hc
  · intro h c hc hnullable
    rw [model_rowOf, hmodel] at hc
    by_cases hsoft : c.name ∈ softDeleteNames
    · exact hkept c hc hnullable (.inl hsoft)
    · by_cases hv : r.cells c.name = .str []
      · exact (hempty c hc hsoft hv).mpr (h c hc hnullable hsoft hv)
      · exact hkept c hc hnullable (.inr hv)

end ColumnsRow

lemma model_assignPayloadColumns (o : Record P) (payload : Payload P) :
    (assignPayloadColumns o payload).model = o.model := by
  have hfold : ∀ (cs : List Column) (q : Record P), (cs.foldl (fun q c =>
      if payload.any (fun kv => kv.1 = c.name.toList) then
        q.set c.name (assignValue c.type (payload.get c.name))
      else q) q).model = q.model := by
    intro cs
    induction cs with
    | nil =>
      intro q
      rfl
    | cons c cs ih =>
      intro q
      rw [List.foldl_cons, ih]
      split <;> rfl
  exact hfold _ o

lemma model_getKeyed {m : Model} {payload : Payload P} {q : Record P}
    (h : db.getKeyed m payload = some q) : q.model = m := by
  unfold Db.getKeyed at h
  split at h
  · cases h
  · cases h
  · exact (Db.get_spec h).2.1

lemma model_upsertFromPayload (db : Db P) (m : Model) (payload : Payload P) :
    (upsertFromPayload db m payload).object.model = m := by
  unfold upsertFromPayload
  dsimp only
  rw [model_clearSoftDeleteFields, model_assignPayloadColumns]
  unfold foundOrNew
  cases hfound : db.getKeyed m payload with
  | none => rfl
  | some q => exact model_getKeyed hfound

lemma model_restoreChildRows {m : Model} {v : PyJson P} {w : Write P}
    (h : w ∈ restoreChildRows db m v) : w.object.model = m := by
  unfold restoreChildRows at h
  split at h
  · obtain ⟨item, _, hitem⟩ := List.mem_filterMap.mp h
    split at hitem
    · cases hitem
      exact model_upsertFromPayload db m _
    · cases hitem
  · cases h

/-! ### The children of a row -/

lemma get_append_of_notMem {q : Record P} {name : String} (rest : Payload P)
    (h : name ∉ ["_model", "_table", "_schema"] ++ q.model.columns.map Column.name) :
    (columnPayload q ++ rest).get name = rest.get name := by
  have hkeys : name.toList ∉ (columnPayload q).map Prod.fst := by
    have hnames : (columnPayload q).map Prod.fst =
        (["_model", "_table", "_schema"] ++ q.model.columns.map Column.name).map String.toList := by
      unfold columnPayload
      rw [List.map_append, List.map_append, List.map_map, List.map_map]
      rfl
    rw [hnames, List.mem_map]
    rintro ⟨s, hs, heq⟩
    exact h (String.toList_inj.mp heq ▸ hs)
  have hfield : ∀ fields : Payload P, name.toList ∉ fields.map Prod.fst →
      field (fields ++ rest) name.toList = field rest name.toList := by
    intro fields hfields
    induction fields with
    | nil => rfl
    | cons kv fields ih =>
      rw [List.map_cons, List.mem_cons, not_or] at hfields
      rw [List.cons_append, field_cons, if_neg (Ne.symm hfields.1)]
      exact ih hfields.2
  exact hfield _ hkeys

/-- Every archived child is written as its own row would be. -/
lemma restoreChildRows_childPayloads (db : Db P) (db₀ : List (Record P)) (m : Model) (column : String)
    (key : Val P) : restoreChildRows db m (childPayloads db₀ m column key) =
      (db₀.filter (fun q => q.model = m ∧ isText (q.cells column) (pyStrVal key))).map
        (fun q => upsertFromPayload db m (columnPayload q)) := by
  unfold restoreChildRows childPayloads
  dsimp only
  rw [List.filterMap_map]
  exact congrFun List.filterMap_eq_map' _

/-- A record without a `NULL` that must not be, whose columns take their values, is a row. -/
def Record.toRow (q : Record P) (ht : q.Typed) (hc : q.Complete) : Row P :=
  { q with
    holds := ht
    notNull := fun c h hnull => isNull_eq_false.mp (hc c h hnull) }

section Children

variable {db₀ : List (Record P)} (hdb₀ : ∀ q ∈ db₀, q.Typed ∧ q.Complete)

include hdb₀ in
/-- The payments of an invoice or an expense can always be written. -/
lemma typed_children {m : Model} (hm : m ≠ .caseExpenseInvoiceMap) (column : String) (key : Val P) :
    ∀ w ∈ restoreChildRows db m (childPayloads db₀ m column key), (db.rowOf env w).Typed := by
  intro w hw
  rw [restoreChildRows_childPayloads] at hw
  obtain ⟨q, hq, rfl⟩ := List.mem_map.mp hw
  obtain ⟨hmem, hfilter⟩ := List.mem_filter.mp hq
  obtain ⟨rfl, -⟩ := of_decide_eq_true hfilter
  obtain ⟨ht, hc⟩ := hdb₀ q hmem
  exact typed_columns (r := q.toRow ht hc) (hasColumns_columnPayload q) rfl hm

include hdb₀ in
/-- The links of an expense can be written if they are all there and live. -/
lemma typed_links_iff {r : Record P} :
    (∀ w ∈ restoreChildRows db .caseExpenseInvoiceMap
        (childPayloads db₀ .caseExpenseInvoiceMap "expense_id" (r.cells "expense_id")),
      (db.rowOf env w).Typed) ↔
      ∀ q ∈ invoiceLinks db₀ r, ∃ l, foundRow db q = some l ∧ l.cells "is_deleted" = .int 0 := by
  rw [restoreChildRows_childPayloads, List.forall_mem_map]
  refine forall_congr' (fun q => forall_congr' (fun hq => ?_))
  obtain ⟨hmem, hfilter⟩ := List.mem_filter.mp hq
  have hm := (of_decide_eq_true hfilter).1
  obtain ⟨ht, hc⟩ := hdb₀ q hmem
  rw [← hm]
  exact typed_link_iff (r := q.toRow ht hc) (hasColumns_columnPayload q) rfl hm

end Children

/-- What the children of a plan are like: of other models, and written if the links of an expense are. -/
structure ChildrenOf (env : RestoreEnv P) (db₀ : List (Record P)) (db : Db P) (r : Record P)
    (children : List (Write P)) : Prop where
  apart : ∀ w ∈ children, w.object.model ≠ r.model
  typed : (∀ q ∈ db₀, q.Typed ∧ q.Complete) →
    ((∀ w ∈ children, (db.rowOf env w).Typed) ↔ (r.model = .legacyExpense →
      ∀ q ∈ invoiceLinks db₀ r, ∃ l, foundRow db q = some l ∧ l.cells "is_deleted" = .int 0))

lemma childrenOf_nil {r : Record P} (hm : r.model ≠ .legacyExpense) :
    ChildrenOf env db₀ db r [] :=
  ⟨by simp, fun _ => iff_of_true (by simp) (fun h => absurd h hm)⟩

/-- The plan of a billing row. -/
lemma restoreBilling_row
    (hmodel : modelForPayload (buildLog db₀ r.toRecord).payload = some r.model) :
    ∃ children, restoreBilling db (buildLog db₀ r.toRecord) =
        .ok (.rows (upsertFromPayload db r.model (buildLog db₀ r.toRecord).payload) children) ∧
      ChildrenOf env db₀ db r.toRecord children := by
  unfold restoreBilling
  dsimp only
  rw [hmodel]
  refine ⟨_, rfl, ?_⟩
  generalize hm : r.model = m
  cases m with
  | legacyInvoice =>
    have hpayments : (buildLog db₀ r.toRecord).payload.get "payments" =
        childPayloads db₀ .legacyInvoicePayment "invoice_id" (r.cells "invoice_id") := by
      unfold buildLog payloadForObject
      dsimp only
      rw [hm]
      exact get_append_of_notMem _ (by rw [hm]; decide)
    dsimp only
    rw [hpayments]
    constructor
    · intro w hw
      rw [model_restoreChildRows hw, hm]
      decide
    · intro hdb₀
      apply iff_of_true
      · exact typed_children hdb₀ (by decide) _ _
      · intro h
        rw [hm] at h
        cases h
  | legacyExpense =>
    have hpayload : (buildLog db₀ r.toRecord).payload = columnPayload r.toRecord ++
        [("payments".toList, childPayloads db₀ .legacyExpensePayment "expense_id" (r.cells "expense_id")),
          ("invoice_links".toList,
            childPayloads db₀ .caseExpenseInvoiceMap "expense_id" (r.cells "expense_id"))] := by
      unfold buildLog payloadForObject
      dsimp only
      rw [hm]
    have hpayments : (buildLog db₀ r.toRecord).payload.get "payments" =
        childPayloads db₀ .legacyExpensePayment "expense_id" (r.cells "expense_id") := by
      rw [hpayload, get_append_of_notMem _ (by rw [hm]; decide)]
      rfl
    have hlinks : (buildLog db₀ r.toRecord).payload.get "invoice_links" =
        childPayloads db₀ .caseExpenseInvoiceMap "expense_id" (r.cells "expense_id") := by
      rw [hpayload, get_append_of_notMem _ (by rw [hm]; decide)]
      rfl
    dsimp only
    rw [hpayments, hlinks]
    constructor
    · intro w hw
      rw [hm]
      obtain hw | hw := List.mem_append.mp hw
      · rw [model_restoreChildRows hw]
        decide
      · rw [model_restoreChildRows hw]
        decide
    · intro hdb₀
      rw [List.forall_mem_append, and_iff_right (typed_children hdb₀ (by decide) _ _),
        typed_links_iff hdb₀]
      exact (imp_iff_right hm).symm
  | _ => exact childrenOf_nil (by rw [hm]; decide)

/-- The plan of a row that is restored column by column. -/
lemma restorePlan_columns (hm : ByColumns r.model) :
    ∃ children, restorePlan env db (buildLog db₀ r.toRecord) =
        .ok (.rows (upsertFromPayload db r.model (buildLog db₀ r.toRecord).payload) children) ∧
      ChildrenOf env db₀ db r.toRecord children := by
  have htype : (buildLog db₀ r.toRecord).entityType = entityTypeForObject r.model := rfl
  have hmodel : modelForPayload (buildLog db₀ r.toRecord).payload = some r.model :=
    modelForPayload_row hm
  have hcases : ∀ m : Model, ByColumns m →
      (entityTypeForObject m = .file ∧ m ∈ [Model.matterFileAsset, .matterMemoFileAsset]) ∨
      (entityTypeForObject m = .person ∧ m ∈ [Model.matterPartyRole, .matterStaffAssignment,
        .party, .partyCode, .partyContact, .partyAddress]) ∨
      entityTypeForObject m ∈ [.billingInvoice, .billingExpense, .billingPayment, .billingLink] := by
    decide
  have hexpense : ∀ m : Model, m ∈ [Model.matterFileAsset, .matterMemoFileAsset] ∨
      m ∈ [Model.matterPartyRole, .matterStaffAssignment, .party, .partyCode, .partyContact,
        .partyAddress] → m ≠ .legacyExpense := by decide
  unfold restorePlan
  rw [htype]
  obtain ⟨h, hmem⟩ | ⟨h, hmem⟩ | h := hcases r.model hm
  · rw [h]
    dsimp only
    unfold restoreFile restoreAmong
    rw [hmodel]
    dsimp only
    rw [if_pos hmem]
    exact ⟨[], rfl, childrenOf_nil (hexpense r.model (.inl hmem))⟩
  · rw [h]
    dsimp only
    unfold restorePerson restoreAmong
    rw [hmodel]
    dsimp only
    rw [if_pos hmem]
    exact ⟨[], rfl, childrenOf_nil (hexpense r.model (.inr hmem))⟩
  · simp only [List.mem_cons, List.not_mem_nil, or_false] at h
    obtain h | h | h | h := h <;>
    · rw [h]
      exact restoreBilling_row hmodel

/-- No blocker stands against a link to an invoice only if it is gone or deleted. -/
lemma not_live_of_preview (hm : r.model = .caseExpenseInvoiceMap)
    (h : previewLog db (buildLog db₀ r.toRecord) = .ok []) :
    ¬∃ l, foundRow db r.toRecord = some l ∧ l.cells "is_deleted" = .int 0 := by
  rintro ⟨l, hfound, hlive⟩
  have htype : (buildLog db₀ r.toRecord).entityType = .billingLink := by
    change entityTypeForObject r.model = _
    rw [hm]
    rfl
  have hexisting : existingForPayload db (buildLog db₀ r.toRecord).payload = some l := by
    unfold existingForPayload
    rw [modelForPayload_row (by rw [hm]; decide), Option.bind_some,
      getKeyed_row (hasColumns_buildLog db₀ r), hfound]
  have hopen : l.isDeleted = false := by
    unfold Record.isDeleted
    rw [hlive]
    simp
  unfold previewLog at h
  rw [htype] at h
  dsimp only at h
  unfold previewBilling liveBlocker at h
  dsimp only at h
  rw [hexisting, Option.any_some, hopen] at h
  simp at h

/-- A row that is restored column by column comes back exactly if its values survive. -/
lemma bringsBack_columns (hdb₀ : ∀ q ∈ db₀, q.Typed ∧ q.Complete) (hm : ByColumns r.model)
    (hout : Unstopped env db₀ db r) :
    BringsBack env db₀ db r ↔ ColumnsSurvive db₀ db r.toRecord := by
  obtain ⟨children, hplan, hchildren⟩ : ∃ children,
      restorePlan env db (buildLog db₀ r.toRecord) = .ok (.rows _ children) ∧ _ :=
    restorePlan_columns hm
  have hp := hasColumns_buildLog db₀ r
  have hpreview := preview_columns hm hout
  generalize hw : upsertFromPayload db r.model (buildLog db₀ r.toRecord).payload = w at hplan
  have hmain : (db.rowOf env w).Typed ↔ r.model ≠ .caseExpenseInvoiceMap := by
    constructor
    · intro htyped hlink
      exact not_live_of_preview hlink hpreview ((typed_link_iff hp hw.symm hlink).mp htyped)
    · exact typed_columns hp hw.symm
  rw [bringsBack_iff hout hpreview hplan (model_columns hp hw.symm) hchildren.apart,
    List.forall_mem_cons, hmain, hchildren.typed hdb₀, complete_columns hp hw.symm hm]
  constructor
  · rintro ⟨⟨hlink, hlinks⟩, hrequired, hsame⟩
    have hcompared := fun c hc => (compared_columns hp hw.symm hm hc).mp (hsame c hc)
    constructor
    · exact hlink
    · exact hlinks
    · exact fun c hc => (hcompared c hc).1
    · exact fun c hc => (hcompared c hc).2.1
    · exact hrequired
    · exact fun c hc => (hcompared c hc).2.2
  · intro h
    refine ⟨⟨h.noLink, h.links⟩, h.required, ?_⟩
    intro c hc
    exact (compared_columns hp hw.symm hm hc).mpr ⟨h.empty c hc, h.null c hc, h.unchanged c hc⟩

end Columns

/-- A restoration of the deleted row succeeds and its row has the columns of the deleted one. -/
def RestoresSame (env : RestoreEnv P) (db₀ : List (Record P)) (db : Db P) (r : Row P)
    (actor : Option ℤ) (now : Time) : Prop :=
  ∃ restored log row, restoreLog env db (buildLog db₀ r.toRecord) actor now = .ok (restored, log) ∧
    restored.row = some row ∧ SameColumns r.toRecord row

lemma restoresSame_iff {env : RestoreEnv P} {db₀ : List (Record P)} {db : Db P} {r : Row P}
    {actor : Option ℤ} {now : Time} :
    RestoresSame env db₀ db r actor now ↔ BringsBack env db₀ db r := by
  unfold RestoresSame BringsBack restoreLog
  cases h : restoreRows env db (buildLog db₀ r.toRecord) with
  | error e =>
    constructor
    · rintro ⟨_, _, _, hok, _⟩
      cases hok
    · rintro ⟨_, _, hok, _⟩
      cases hok
  | ok restored =>
    constructor
    · rintro ⟨restored', log, row, hok, hrow, hsame⟩
      cases hok
      exact ⟨restored, row, rfl, hrow, hsame⟩
    · rintro ⟨restored', row, hok, hrow, hsame⟩
      cases hok
      exact ⟨restored, _, row, rfl, hrow, hsame⟩

/-- When no other row stands in the way, deleting a row and restoring it is the identity exactly
if the values of the row survive. -/
theorem delete_restore_identity_iff (env : RestoreEnv P) (before db : Db P) (r : Row P)
    (actor : Option ℤ) (now : Time) (hout : Unstopped env before.rows db r) :
    RestoresSame env before.rows db r actor now ↔ Survives env before.rows db r.toRecord := by
  have hbefore : ∀ q ∈ before.rows, q.Typed ∧ q.Complete :=
    fun q hq => ⟨before.typed q hq, before.complete q hq⟩
  rw [restoresSame_iff]
  unfold Survives
  cases hm : r.model with
  | docketItem => exact bringsBack_docket hm hout
  | annuityItem => exact bringsBack_annuity hm hout
  | workflow => exact bringsBack_workflow hm hout
  | _ =>
    apply bringsBack_columns hbefore _ hout
    rw [hm]
    decide

def asciiDateTables : DateTables where
  toDigitTables := asciiDigitTables
  decimal_eq_none c _ := asciiTables_decimal_eq_none c

def plainEnv : RestoreEnv plainTypes where
  tables := asciiDateTables
  today := (PyDate.make 2026 1 15).get (Eq.refl true)
  now := (0 : ℤ)
  timestamp := "2026-01-15T09:00:00".toList
  newKey := "k1".toList

/-- The database of one matter, whose other rows are deleted. -/
def oneMatter : Db plainTypes where
  rows := []
  legacy := []
  matters id := if id = "M1".toList then some false else none
  cases _ := false
  nextId := 1
  complete := by simp
  typed := by simp

def annuityRow (fee : Option ℤ) : Row plainTypes where
  model := .annuityItem
  cells name :=
    if name = "annuity_id" then .str "A1".toList
    else if name = "matter_id" then .str "M1".toList
    else if name = "cycle_no" then .int 4
    else if name = "annuity_status" then .str "pending".toList
    else if name = "official_fee" then (fee.map PyVal.float).getD .null
    else if name = "vat_amount" then .float (0 : ℤ)
    else if name = "service_fee" then .float (0 : ℤ)
    else if name = "is_deleted" then .bool false
    else .null
  holds c hc := by
    simp only [Model.columns, softDeleteColumns, List.cons_append, List.nil_append, List.mem_cons,
      List.not_mem_nil, or_false] at hc
    cases fee <;> obtain rfl | rfl | rfl | rfl | rfl | rfl | rfl | rfl | rfl | rfl | rfl | rfl |
      rfl | rfl | rfl | rfl | rfl | rfl | rfl | rfl | rfl | rfl | rfl := hc <;> trivial
  notNull c hc hnull := by
    have hnames : ∀ c ∈ Model.annuityItem.columns, c.nullable = false →
        c.name ∈ ["annuity_id", "matter_id", "cycle_no", "is_deleted"] := by decide
    have hmem := hnames c hc hnull
    simp only [List.mem_cons, List.not_mem_nil, or_false] at hmem
    obtain h | h | h | h := hmem <;> rw [h] <;> simp

lemma unstopped_annuityRow (fee : Option ℤ)
    (h : (restoreRows plainEnv oneMatter (buildLog oneMatter.rows (annuityRow fee).toRecord)).isOk = true) :
    Unstopped plainEnv oneMatter.rows oneMatter (annuityRow fee) := by
  intro e _ herror
  rw [herror] at h
  cases h

theorem delete_restore_annuity :
    RestoresSame plainEnv oneMatter.rows oneMatter (annuityRow (some 300)) none 0 := by
  refine (delete_restore_identity_iff _ oneMatter _ _ _ _ ?_).mpr ?_
  · exact unstopped_annuityRow _ (by decide)
  · constructor
    · decide
    · exact ⟨"pending".toList, by decide, rfl⟩
    · intro n hn
      simp only [List.mem_cons, List.not_mem_nil, or_false] at hn
      obtain rfl | rfl | rfl := hn <;> nofun
    · nofun
    · intro n hn
      simp only [List.mem_cons, List.not_mem_nil, or_false] at hn
      obtain rfl | rfl | rfl | rfl | rfl | rfl := hn <;> exact .inl rfl
    · intro n hn
      simp only [List.mem_cons, List.not_mem_nil, or_false] at hn
      obtain rfl | rfl := hn <;> rfl

def floatOf : Val plainTypes → Option ℤ
  | .float x => some x
  | _ => none

/-- An annuity without an official fee comes back with a fee of zero. -/
theorem restored_fee_zero :
    ¬RestoresSame plainEnv oneMatter.rows oneMatter (annuityRow none) none 0 ∧
    ((restoreLog plainEnv oneMatter (buildLog oneMatter.rows (annuityRow none).toRecord) none 0).toOption.bind
      (fun x => x.1.row)).bind (fun row => floatOf (row.cells "official_fee")) = some 0 := by
  have hzero : ((restoreLog plainEnv oneMatter (buildLog oneMatter.rows (annuityRow none).toRecord) none
      0).toOption.bind (fun x => x.1.row)).bind (fun row => floatOf (row.cells "official_fee")) =
      some 0 := by decide
  refine ⟨?_, hzero⟩
  rintro ⟨restored, log, row, hok, hrow, hsame⟩
  have hfee : row.cells "official_fee" = .null := hsame (col "official_fee" .float) (by decide)
  rw [hok] at hzero
  change (restored.row.bind (fun row => floatOf (row.cells "official_fee"))) = some 0 at hzero
  rw [hrow] at hzero
  change floatOf (row.cells "official_fee") = some 0 at hzero
  rw [hfee] at hzero
  cases hzero

end IpDocket.Deletion
