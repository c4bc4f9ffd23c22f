import IpDocket.Deletion.ArchiveComplete
import IpDocket.Deletion.Restore

/-!
# What a restoration brings back

The log of a deleted row has all its columns, but the restoration of a deadline, an annuity or
a workflow leaves some of them out and gives others a default, and for the other models an
empty text becomes `NULL` and a `NULL` becomes the default of its column. A restoration brings
back the row exactly if its columns have none of the values that are lost.
-/

namespace IpDocket.Deletion
open IpDocket.Lib

def softDeleteNames : List String :=
  ["is_deleted", "deleted_at", "deleted_by", "delete_reason", "deleted_op_id"]

/-- The columns that a restoration has to bring back. -/
def comparedColumns (m : Model) : List Column :=
  m.columns.filter (fun c => c.name ≠ m.pk ∧ c.name ∉ softDeleteNames ∧
    c.name ∉ ["created_at", "updated_at"])

variable {P : PyTypes}

def SameColumns (r q : Record P) : Prop :=
  ∀ c ∈ comparedColumns r.model, q.cells c.name = r.cells c.name

def NonemptyText (v : Val P) : Prop := ∃ c t, v = .str (c :: t)

/-- A column of the row that was found, `NULL` if none was. -/
def foundCell (found : Option (Record P)) (name : String) : Val P :=
  (found.map (fun r => r.cells name)).getD .null

/-- The key that a restoration looks for. -/
def restoreKey (env : RestoreEnv P) (v : Val P) : Text :=
  match v with
  | .str (c :: t) => c :: t
  | _ => env.newKey

def textOfVal : Val P → Text
  | .str t => t
  | _ => []

structure DocketSurvives (env : RestoreEnv P) (db : Db P) (cells : String → Val P) : Prop where
  category : NonemptyText (cells "category")
  nameFree : NonemptyText (cells "name_free")
  dates : ∀ name ∈ ["due_date", "extended_due_date", "visible_from_date"], IsoText (cells name)
  doneDate : DoneText (cells "done_date")
  notRestored : ∀ name ∈ ["snapshot_attorney", "snapshot_handler", "snapshot_manager"],
    cells name = foundCell (db.get .docketItem (.str (restoreKey env (cells "docket_id")))) name

/-- The annuity that a restoration finds. -/
def foundAnnuity (env : RestoreEnv P) (db : Db P) (cells : String → Val P) : Option (Record P) :=
  db.annuity (restoreKey env (cells "annuity_id")) (textOfVal (cells "matter_id"))
    (intOrZero (cells "cycle_no"))

structure AnnuitySurvives (env : RestoreEnv P) (db : Db P) (cells : String → Val P) : Prop where
  cycle : 0 < intOrZero (cells "cycle_no")
  status : ∃ t ∈ ["pending".toList, "paid".toList, "giveup".toList], cells "annuity_status" = .str t
  fees : ∀ name ∈ ["official_fee", "vat_amount", "service_fee"], cells name ≠ .null
  memo : cells "memo" ≠ .str []
  dates : ∀ name ∈ ["due_date", "extended_due_date", "renewal_open_date", "renewal_notice_due",
    "internal_due_date", "paid_date"], IsoText (cells name)
  notRestored : ∀ name ∈ ["discount_rate", "paid_amount"],
    cells name = foundCell (foundAnnuity env db cells) name

structure WorkflowSurvives (cells : String → Val P) : Prop where
  name : NonemptyText (cells "name")
  status : ∃ t, cells "status" = .str t ∧ validateStatus t = t
  category : NonemptyText (cells "category")
  priority : NonemptyText (cells "priority")
  notRestored : ∀ name ∈ ["source_docket_due_date", "source_docket_legal_due_date",
    "completed_by_id", "snapshot_attorney", "snapshot_handler", "snapshot_manager"],
    cells name = .null

/-- The row of the primary key that a restoration finds; it does not look for an empty one. -/
def foundRow (db : Db P) (r : Record P) : Option (Record P) :=
  match r.pkValue with
  | .str [] => none
  | v => db.get r.model v

/-- The archived links of an expense to invoices, in the tables before the deletion. -/
def invoiceLinks (db₀ : List (Record P)) (r : Record P) : List (Record P) :=
  db₀.filter (fun q => q.model = .caseExpenseInvoiceMap ∧
    isText (q.cells "expense_id") (pyStrVal (r.cells "expense_id")))

/-- An empty text becomes the default of the column, `NULL` if it has none or a row was found;
a `NULL` becomes the default unless a row was found. The mark of a link to an invoice is a number,
which no restoration writes: a link is there and live, or the restoration fails. -/
structure ColumnsSurvive (db₀ : List (Record P)) (db : Db P) (r : Record P) : Prop where
  noLink : r.model ≠ .caseExpenseInvoiceMap
  links : r.model = .legacyExpense → ∀ q ∈ invoiceLinks db₀ r,
    ∃ l, foundRow db q = some l ∧ l.cells "is_deleted" = .int 0
  empty : ∀ c ∈ comparedColumns r.model, r.cells c.name = .str [] →
    foundRow db r = none ∧ c.default = some (.str "")
  null : ∀ c ∈ comparedColumns r.model, r.cells c.name = .null →
    (foundRow db r).isSome ∨ c.default = none
  required : ∀ c ∈ r.model.columns, c.nullable = false → c.name ∉ softDeleteNames →
    r.cells c.name = .str [] → foundRow db r = none ∧ c.default ≠ none
  unchanged : ∀ c ∈ comparedColumns r.model, ∀ q, foundRow db r = some q →
    equalsNumber (q.cells c.name) (r.cells c.name) = false

/-- The values of the row survive the restoration. -/
def Survives (env : RestoreEnv P) (db₀ : List (Record P)) (db : Db P) (r : Record P) : Prop :=
  match r.model with
  | .docketItem => DocketSurvives env db r.cells
  | .annuityItem => AnnuitySurvives env db r.cells
  | .workflow => WorkflowSurvives r.cells
  | _ => ColumnsSurvive db₀ db r

lemma ofJson_jsonSafe {type : ColumnType} {v : Val P} (hv : type.Holds v) (hdate : type ≠ .date)
    (htime : type ≠ .datetime) : ofJson (jsonSafe v) = v := by
  cases v with
  | date d => cases type <;> first | exact absurd rfl hdate | cases hv
  | datetime t => cases type <;> first | exact absurd rfl htime | cases hv
  | json j =>
    cases type with
    | json =>
      cases j with
      | arr items => rfl
      | obj fields => rfl
      | _ => cases hv
    | _ => cases hv
  | _ => rfl

/-- What a column of the row holds. -/
lemma Row.holdsAt {r : Row P} {m : Model} (hm : r.model = m) {name : String} {type : ColumnType}
    (h : ∃ c ∈ m.columns, c.name = name ∧ c.type = type) : type.Holds (r.cells name) := by
  obtain ⟨c, hc, rfl, rfl⟩ := h
  exact r.holds c (hm ▸ hc)

lemma Row.notNullAt {r : Row P} {m : Model} (hm : r.model = m) {name : String}
    (h : ∃ c ∈ m.columns, c.name = name ∧ c.nullable = false) : r.cells name ≠ .null := by
  obtain ⟨c, hc, rfl, hnull⟩ := h
  exact r.notNull c (hm ▸ hc) hnull

lemma holds_text_cases {v : Val P} (hv : ColumnType.text.Holds v) : v = .null ∨ ∃ t, v = .str t := by
  cases v with
  | null => exact .inl rfl
  | str t => exact .inr ⟨t, rfl⟩
  | _ => cases hv

lemma Record.cells_set (r : Record P) (name n : String) (v : Val P) :
    (r.set name v).cells n = if n = name then v else r.cells n := rfl

@[simp] lemma Record.model_setAll (r : Record P) (values : List (String × Val P)) :
    (r.setAll values).model = r.model := by
  induction values generalizing r with
  | nil => rfl
  | cons nv values ih => exact ih (r.set nv.1 nv.2)

lemma Record.cells_setAll_of_notMem (r : Record P) {values : List (String × Val P)} {n : String}
    (h : n ∉ values.map Prod.fst) : (r.setAll values).cells n = r.cells n := by
  induction values generalizing r with
  | nil => rfl
  | cons nv values ih =>
    rw [List.map_cons, List.mem_cons, not_or] at h
    have hrest := ih (r.set nv.1 nv.2) h.2
    rw [Record.cells_set, if_neg h.1] at hrest
    exact hrest

lemma Record.cells_setAll_of_mem (r : Record P) {values : List (String × Val P)} {n : String}
    {v : Val P} (hvalues : (values.map Prod.fst).Nodup) (h : (n, v) ∈ values) :
    (r.setAll values).cells n = v := by
  induction values generalizing r with
  | nil => cases h
  | cons nv values ih =>
    rw [List.map_cons, List.nodup_cons] at hvalues
    obtain rfl | h := List.mem_cons.mp h
    · change ((r.set n v).setAll values).cells n = v
      rw [Record.cells_setAll_of_notMem _ hvalues.1, Record.cells_set, if_pos rfl]
    · exact ih (r.set nv.1 nv.2) hvalues.2 h

lemma model_clearSoftDeleteFields (r : Record P) : (clearSoftDeleteFields r).model = r.model := by
  have hfold : ∀ (attrs : List String) (q : Record P), (attrs.foldl (fun r attr =>
      if r.model.hasColumn attr then r.set attr .null else r) q).model = q.model := by
    intro attrs
    induction attrs with
    | nil =>
      intro q
      rfl
    | cons attr attrs ih =>
      intro q
      rw [List.foldl_cons, ih]
      split <;> rfl
  unfold clearSoftDeleteFields
  dsimp only
  rw [hfold]
  split <;> rfl

lemma cells_foldl_clear {attrs : List String} {n : String} (hn : n ∉ attrs) (q : Record P) :
    (attrs.foldl (fun r attr => if r.model.hasColumn attr then r.set attr .null else r) q).cells n =
      q.cells n := by
  induction attrs generalizing q with
  | nil => rfl
  | cons attr attrs ih =>
    rw [List.mem_cons, not_or] at hn
    rw [List.foldl_cons, ih hn.2]
    split
    · rw [Record.cells_set, if_neg hn.1]
    · rfl

/-- The other columns are not cleared. -/
lemma cells_clearSoftDeleteFields (r : Record P) {n : String} (hn : n ∉ softDeleteNames) :
    (clearSoftDeleteFields r).cells n = r.cells n := by
  unfold softDeleteNames at hn
  rw [List.mem_cons, not_or] at hn
  unfold clearSoftDeleteFields
  dsimp only
  rw [cells_foldl_clear hn.2]
  split
  · rw [Record.cells_set, if_neg hn.1]
  · rfl

lemma isDeleted_clearSoftDeleteFields (r : Record P) (h : r.model.hasColumn "is_deleted") :
    (clearSoftDeleteFields r).cells "is_deleted" = .bool false := by
  unfold clearSoftDeleteFields
  dsimp only
  rw [cells_foldl_clear (by decide), if_pos h, Record.cells_set, if_pos rfl]

lemma cells_foldl_clear_of_mem {attrs : List String} {n : String} (hn : n ∈ attrs) (q : Record P)
    (h : q.model.hasColumn n) :
    (attrs.foldl (fun r attr => if r.model.hasColumn attr then r.set attr .null else r) q).cells n =
      .null := by
  induction attrs generalizing q with
  | nil => cases hn
  | cons attr attrs ih =>
    rw [List.foldl_cons]
    by_cases hrest : n ∈ attrs
    · apply ih hrest
      split
      · exact h
      · exact h
    · obtain rfl | hrest' := List.mem_cons.mp hn
      · rw [cells_foldl_clear hrest, if_pos h, Record.cells_set, if_pos rfl]
      · exact absurd hrest' hrest

/-- A cleared column takes its value unless its mark is a number. -/
lemma holds_clearSoftDeleteFields (r : Record P) {c : Column} (hc : c ∈ r.model.columns)
    (hsoft : c.name ∈ softDeleteNames) (hmark : c.name = "is_deleted" → c.type = .boolean) :
    c.type.Holds ((clearSoftDeleteFields r).cells c.name) := by
  have hcolumn : r.model.hasColumn c.name = true := List.any_eq_true.mpr ⟨c, hc, decide_eq_true rfl⟩
  obtain hname | hname := List.mem_cons.mp hsoft
  · rw [hmark hname, hname, isDeleted_clearSoftDeleteFields r (hname ▸ hcolumn)]
    rfl
  · unfold clearSoftDeleteFields
    dsimp only
    rw [cells_foldl_clear_of_mem hname _ (by split <;> exact hcolumn)]
    exact c.type.holds_null

lemma find?_column {m : Model} {c : Column} (hc : c ∈ m.columns) :
    m.columns.find? (fun d => d.name = c.name) = some c := by
  have hnames : m.columns.Pairwise (fun c d => c.name ≠ d.name) :=
    List.pairwise_map.mp (Model.nodup_columns m)
  have hfind : findKey Column.name c.name m.columns = some c := (findKey_eq_some hnames).mpr ⟨hc, rfl⟩
  exact hfind

lemma model_rowOf (env : RestoreEnv P) (db : Db P) (w : Write P) :
    (db.rowOf env w).model = w.object.model := by
  unfold Db.rowOf
  split <;> rfl

/-- The attribute is written, or is what was loaded. -/
def Write.Plain (w : Write P) (n : String) : Prop :=
  ∀ q, w.loaded = some q → equalsNumber (q.cells n) (w.object.cells n) = false

lemma equalsNumber_of_not_bool {v w : Val P} (h : ∀ b, w ≠ .bool b) : equalsNumber v w = false := by
  cases w with
  | bool b => exact absurd rfl (h b)
  | _ => cases v <;> rfl

lemma equalsNumber_of_holds {type : ColumnType} {v w : Val P} (hv : type.Holds v)
    (htype : type ≠ .integer ∧ type ≠ .json) : equalsNumber v w = false := by
  cases v with
  | int n =>
    cases type with
    | integer => exact absurd rfl htype.1
    | json => exact absurd rfl htype.2
    | _ => cases hv
  | _ => rfl

lemma plain_of_not_bool {w : Write P} {n : String} (h : ∀ b, w.object.cells n ≠ .bool b) : w.Plain n :=
  fun _ _ => equalsNumber_of_not_bool h

lemma cells_updatedRow {loaded r : Record P} {n : String}
    (h : equalsNumber (loaded.cells n) (r.cells n) = false) : (updatedRow loaded r).cells n = r.cells n :=
  if_neg (Bool.eq_false_iff.mp h)

/-- A value that is not `None` is written as it is. -/
lemma cells_rowOf_of_ne_null (env : RestoreEnv P) (db : Db P) {w : Write P} {n : String}
    (hplain : w.Plain n) (h : w.object.cells n ≠ .null) :
    (db.rowOf env w).cells n = w.object.cells n := by
  unfold Db.rowOf
  split
  · next q hloaded => exact cells_updatedRow (hplain q hloaded)
  · unfold insertedRow
    dsimp only
    split
    · next hnull _ => exact absurd hnull h
    · rfl

lemma cells_rowOf_of_null (env : RestoreEnv P) (db : Db P) {w : Write P} {c : Column}
    (hc : c ∈ w.object.model.columns) (hkey : ¬(c.name = w.object.model.pk ∧ c.type = .integer))
    (h : w.object.cells c.name = .null) :
    (db.rowOf env w).cells c.name = if w.loaded.isSome then .null else defaultValue env c := by
  unfold Db.rowOf
  cases w.loaded with
  | some q =>
    have hplain : equalsNumber (q.cells c.name) (w.object.cells c.name) = false := by
      rw [h]
      exact equalsNumber_of_not_bool (by nofun)
    exact (cells_updatedRow hplain).trans h
  | none =>
    unfold insertedRow
    dsimp only
    rw [h, find?_column hc]
    dsimp only
    rw [if_neg hkey, if_neg (by simp)]

/-- Without a default the column is that of the object. -/
lemma cells_rowOf (env : RestoreEnv P) (db : Db P) {w : Write P} {c : Column}
    (hc : c ∈ w.object.model.columns) (hpk : c.name ≠ w.object.model.pk) (hplain : w.Plain c.name)
    (hdefault : c.default = none ∨ w.object.cells c.name ≠ .null) :
    (db.rowOf env w).cells c.name = w.object.cells c.name := by
  by_cases hnull : w.object.cells c.name = .null
  · have hnone := hdefault.resolve_right (not_not_intro hnull)
    rw [cells_rowOf_of_null env db hc (fun hkey => hpk hkey.1) hnull, hnull]
    unfold defaultValue
    rw [hnone]
    split <;> rfl
  · exact cells_rowOf_of_ne_null env db hplain hnull

/-- What is `NULL` in the row is `None` in the object. -/
lemma cells_rowOf_ne_null (env : RestoreEnv P) (db : Db P) {w : Write P} {n : String}
    (h : w.object.cells n ≠ .null) : (db.rowOf env w).cells n ≠ .null := by
  by_cases hplain : w.Plain n
  · rw [cells_rowOf_of_ne_null env db hplain h]
    exact h
  · unfold Write.Plain at hplain
    push Not at hplain
    obtain ⟨q, hloaded, hequal⟩ := hplain
    have hkept : (db.rowOf env w).cells n = q.cells n := by
      unfold Db.rowOf
      rw [hloaded]
      exact if_pos (by simpa using hequal)
    rw [hkept]
    intro hnull
    rw [hnull] at hequal
    exact hequal rfl

def ColumnDefault.fits : ColumnDefault → ColumnType → Bool
  | .bool _, type => type = .boolean
  | .int _, type => type = .integer
  | .str s, .string n => s.toList.length ≤ n
  | .str _, type => type = .text
  | .newKey, type => type = .text
  | .now, type => type = .datetime ∨ type = .text

lemma default_fits : ∀ m : Model, ∀ c ∈ m.columns, ∀ d, c.default = some d → d.fits c.type = true := by
  have hall : ∀ m : Model, ∀ c ∈ m.columns, c.default.all (fun d => d.fits c.type) = true := by
    decide +kernel
  intro m c hc d hd
  have h := hall m c hc
  rw [hd] at h
  exact h

lemma holds_defaultValue (env : RestoreEnv P) {m : Model} {c : Column} (hc : c ∈ m.columns) :
    c.type.Holds (defaultValue env c) := by
  have hfits := default_fits m c hc
  unfold defaultValue
  cases hd : c.default with
  | none => exact c.type.holds_null
  | some d =>
    have h := hfits d hd
    generalize c.type = type at h
    cases d with
    | bool b =>
      rw [of_decide_eq_true h]
      rfl
    | int n =>
      rw [of_decide_eq_true h]
      rfl
    | str s =>
      cases type with
      | string n => exact h
      | text => rfl
      | _ => cases h
    | newKey =>
      rw [of_decide_eq_true h]
      rfl
    | now =>
      obtain rfl | rfl := of_decide_eq_true h
      · rfl
      · rfl

/-- The row of a typed object is typed. -/
lemma typed_rowOf {env : RestoreEnv P} {db : Db P} {w : Write P} (hobj : w.object.Typed)
    (hloaded : ∀ q, w.loaded = some q → q.Typed ∧ q.model = w.object.model) : (db.rowOf env w).Typed := by
  intro c hc
  rw [model_rowOf] at hc
  unfold Db.rowOf
  cases hw : w.loaded with
  | some q =>
    obtain ⟨hq, hmodel⟩ := hloaded q hw
    unfold updatedRow
    dsimp only
    split
    · exact hq c (hmodel ▸ hc)
    · exact hobj c hc
  | none =>
    unfold insertedRow
    dsimp only
    rw [find?_column hc]
    split
    · next d _ hd =>
      cases hd
      split
      · next hkey =>
        rw [hkey.2]
        rfl
      · exact holds_defaultValue env hc
    · exact hobj c hc

/-- The next number of a sequence does not matter for the types. -/
lemma typed_rowOf_congr {env : RestoreEnv P} {w : Write P} (db db' : Db P)
    (h : (db.rowOf env w).Typed) : (db'.rowOf env w).Typed := by
  intro c hc
  have hc' : c ∈ (db.rowOf env w).model.columns := by
    rw [model_rowOf] at hc ⊢
    exact hc
  have hcell := h c hc'
  unfold Db.rowOf at hcell ⊢
  cases hw : w.loaded with
  | some q =>
    rw [hw] at hcell
    exact hcell
  | none =>
    rw [hw] at hcell
    rw [model_rowOf] at hc
    unfold insertedRow at hcell ⊢
    dsimp only at hcell ⊢
    rw [find?_column hc] at hcell ⊢
    split at hcell
    · next d _ hd =>
      cases hd
      split
      · next hkey =>
        rw [hkey.2]
        rfl
      · exact holds_defaultValue env hc
    · exact hcell

/-! ### A restoration that nothing else stops -/

/-- The errors for which the row itself is not the reason: a blocker, a unique constraint, a row
that has gone, and what its children lack. -/
def StopsFromOutside (m : Model) : RestoreError → Prop
  | .dependencyBlocked _ => True
  | .integrityError .unique _ => True
  | .integrityError .notNull table => table ≠ some m
  | .staleData => True
  | _ => False

lemma Db.save_error {env : RestoreEnv P} {db : Db P} {w : Write P} {e : RestoreError}
    (h : db.save env w = .error e) :
    e = .integrityError .unique (some w.object.model) ∨ e = .staleData ∨
      (e = .integrityError .notNull (some w.object.model) ∧ ¬(db.rowOf env w).Complete) ∨
      (e = .wrongType w.object.model ∧ ¬(db.rowOf env w).Typed) := by
  have hmodel := model_rowOf env db w
  unfold Db.save at h
  dsimp only at h
  split at h
  · split at h
    · split at h
      · cases h
        exact .inl (by rw [hmodel])
      · split at h
        · split at h
          · cases h
            exact .inr (.inl rfl)
          · cases h
        · split at h
          · cases h
            exact .inl (by rw [hmodel])
          · cases h
    · next hcomplete =>
      cases h
      exact .inr (.inr (.inl ⟨by rw [hmodel], hcomplete⟩))
  · next htyped =>
    cases h
    exact .inr (.inr (.inr ⟨by rw [hmodel], htyped⟩))

lemma Db.save_ok {env : RestoreEnv P} {db db' : Db P} {w : Write P} {row : Record P}
    (h : db.save env w = .ok (db', row)) :
    row = db.rowOf env w ∧ (db.rowOf env w).Typed ∧ (db.rowOf env w).Complete := by
  unfold Db.save at h
  dsimp only at h
  split at h
  · next htyped =>
    split at h
    · next hcomplete =>
      refine ⟨?_, htyped, hcomplete⟩
      split at h
      · cases h
      · split at h
        · split at h
          · cases h
          · cases h
            rfl
        · split at h
          · cases h
          · cases h
            rfl
    · cases h
  · cases h

/-- The children fail for reasons of their own, or because a column does not take its value. -/
lemma saveChildren_error {env : RestoreEnv P} {m : Model} {ws : List (Write P)}
    (hws : ∀ w ∈ ws, w.object.model ≠ m) {db : Db P} {e : RestoreError} (db₁ : Db P)
    (h : db.saveChildren env ws = .error e) :
    StopsFromOutside m e ∨ ∃ w ∈ ws, ¬(db₁.rowOf env w).Typed := by
  unfold Db.saveChildren at h
  induction ws generalizing db with
  | nil => cases h
  | cons w ws ih =>
    rw [List.foldlM_cons] at h
    cases hsave : db.save env w with
    | error e' =>
      rw [hsave] at h
      cases h
      obtain rfl | rfl | ⟨rfl, _⟩ | ⟨rfl, htyped⟩ := Db.save_error hsave
      · exact .inl trivial
      · exact .inl trivial
      · left
        intro heq
        exact hws w List.mem_cons_self (Option.some.inj heq)
      · exact .inr ⟨w, List.mem_cons_self, fun h => htyped (typed_rowOf_congr db₁ db h)⟩
    | ok saved =>
      rw [hsave] at h
      obtain hstop | ⟨w', hw', htyped⟩ := ih (fun w hw => hws w (List.mem_cons_of_mem _ hw)) h
      · exact .inl hstop
      · exact .inr ⟨w', List.mem_cons_of_mem _ hw', htyped⟩

lemma saveChildren_ok {env : RestoreEnv P} {ws : List (Write P)} {db db' : Db P} (db₁ : Db P)
    (h : db.saveChildren env ws = .ok db') : ∀ w ∈ ws, (db₁.rowOf env w).Typed := by
  unfold Db.saveChildren at h
  induction ws generalizing db with
  | nil => exact fun _ hw => absurd hw List.not_mem_nil
  | cons w ws ih =>
    rw [List.foldlM_cons] at h
    cases hsave : db.save env w with
    | error e =>
      rw [hsave] at h
      cases h
    | ok saved =>
      rw [hsave] at h
      intro w' hw'
      obtain rfl | hw' := List.mem_cons.mp hw'
      · exact typed_rowOf_congr db db₁ (Db.save_ok hsave).2.1
      · exact ih h w' hw'

lemma restoreRows_of_preview {env : RestoreEnv P} {db : Db P} {log : DeletionLog P}
    {blockers : List Text} (hlog : log.restoredAt = none) (h : previewLog db log = .ok blockers) :
    restoreRows env db log =
      if blockers ≠ [] then .error (.dependencyBlocked blockers)
      else (restorePlan env db log).bind (db.commitPlan env log) := by
  unfold restoreRows
  rw [hlog, h]
  rfl

/-- The restoration writes its row exactly if all columns take their values, those of the children too,
and no required column of the row is `NULL`. -/
lemma restoreRows_iff {env : RestoreEnv P} {db : Db P} {log : DeletionLog P} {main : Write P}
    {children : List (Write P)} {Q : Record P → Prop}
    (hlog : log.restoredAt = none) (hpreview : previewLog db log = .ok [])
    (hplan : restorePlan env db log = .ok (.rows main children))
    (hchildren : ∀ w ∈ children, w.object.model ≠ main.object.model)
    (hout : ∀ e, StopsFromOutside main.object.model e → restoreRows env db log ≠ .error e) :
    (∃ restored row, restoreRows env db log = .ok restored ∧ restored.row = some row ∧ Q row) ↔
      (∀ w ∈ main :: children, (db.rowOf env w).Typed) ∧
        (db.rowOf env main).Complete ∧ Q (db.rowOf env main) := by
  have hrun : restoreRows env db log = db.commitPlan env log (.rows main children) := by
    rw [restoreRows_of_preview hlog hpreview, hplan]
    rfl
  rw [hrun] at hout ⊢
  have hfails : ∀ {e : RestoreError} {p : Prop}, db.commitPlan env log (.rows main children) = .error e →
      ¬p → ((∃ restored row, db.commitPlan env log (.rows main children) = .ok restored ∧
        restored.row = some row ∧ Q row) ↔ p) := by
    intro e p hfail hp
    constructor
    · rintro ⟨restored, row, hok, _⟩
      rw [hfail] at hok
      cases hok
    · exact fun h => absurd h hp
  cases hsave : db.save env main with
  | error e =>
    have hfail : db.commitPlan env log (.rows main children) = .error e := by
      unfold Db.commitPlan
      dsimp only
      rw [hsave]
      rfl
    obtain rfl | rfl | ⟨rfl, hcomplete⟩ | ⟨rfl, htyped⟩ := Db.save_error hsave
    · exact absurd hfail (hout _ trivial)
    · exact absurd hfail (hout _ trivial)
    · exact hfails hfail (fun h => hcomplete h.2.1)
    · exact hfails hfail (fun h => htyped (h.1 main List.mem_cons_self))
  | ok saved =>
    obtain ⟨db', row⟩ := saved
    obtain ⟨rfl, htyped, hcomplete⟩ := Db.save_ok hsave
    cases hkids : db'.saveChildren env children with
    | error e =>
      have hfail : db.commitPlan env log (.rows main children) = .error e := by
        unfold Db.commitPlan
        dsimp only
        rw [hsave]
        change (do
          let db' ← db'.saveChildren env children
          _ : Except RestoreError (Restored P)) = _
        rw [hkids]
        rfl
      obtain hstop | ⟨w, hw, hkid⟩ := saveChildren_error hchildren db hkids
      · exact absurd hfail (hout e hstop)
      · exact hfails hfail (fun h => hkid (h.1 w (List.mem_cons_of_mem _ hw)))
    | ok db'' =>
      have hend : ∃ restored, db.commitPlan env log (.rows main children) = .ok restored ∧
          restored.row = some (db.rowOf env main) := by
        unfold Db.commitPlan
        dsimp only
        rw [hsave]
        change ∃ restored, (do
          let db' ← db'.saveChildren env children
          _ : Except RestoreError (Restored P)) = .ok restored ∧ _
        rw [hkids]
        exact ⟨_, rfl, rfl⟩
      obtain ⟨restored, hok, hrow⟩ := hend
      constructor
      · rintro ⟨restored', row', hok', hrow', hq⟩
        rw [hok] at hok'
        cases hok'
        rw [hrow] at hrow'
        cases hrow'
        exact ⟨List.forall_mem_cons.mpr ⟨htyped, saveChildren_ok db hkids⟩, hcomplete, hq⟩
      · rintro ⟨-, -, hq⟩
        exact ⟨restored, _, hok, hrow, hq⟩

/-- The preview of a restoration that nothing stops has no blockers. -/
lemma blockers_eq_nil {env : RestoreEnv P} {db : Db P} {log : DeletionLog P} {m : Model}
    {blockers : List Text} (hlog : log.restoredAt = none) (h : previewLog db log = .ok blockers)
    (hout : ∀ e, StopsFromOutside m e → restoreRows env db log ≠ .error e) : blockers = [] := by
  by_contra hne
  apply hout (.dependencyBlocked blockers) trivial
  rw [restoreRows_of_preview hlog h, if_pos hne]

section Payloads

variable {db₀ : List (Record P)} {r : Row P} {m : Model}

lemma get_column (hm : r.model = m) {name : String} (h : ∃ c ∈ m.columns, c.name = name) :
    (buildLog db₀ r.toRecord).payload.get name = jsonSafe (r.cells name) := by
  obtain ⟨c, hc, rfl⟩ := h
  exact (carries_buildLog db₀ r.toRecord).2 c (hm ▸ hc)

lemma get_other (hm : r.model = m) (hpayload : m ≠ .legacyInvoice ∧ m ≠ .legacyExpense)
    {name : String} (h : name ∉ ["_model", "_table", "_schema"] ++ m.columns.map Column.name) :
    (buildLog db₀ r.toRecord).payload.get name = .null := by
  have hcolumns : (buildLog db₀ r.toRecord).payload = columnPayload r.toRecord := by
    unfold buildLog payloadForObject
    dsimp only
    rw [hm]
    split
    · exact absurd rfl hpayload.1
    · exact absurd rfl hpayload.2
    · rfl
  rw [hcolumns]
  apply field_of_notMem
  intro hmem
  apply h
  have hkeys : (columnPayload r.toRecord).map Prod.fst =
      (["_model", "_table", "_schema"] ++ m.columns.map Column.name).map String.toList := by
    unfold columnPayload
    rw [hm, List.map_append, List.map_append, List.map_map, List.map_map]
    rfl
  rw [hkeys] at hmem
  obtain ⟨s, hs, heq⟩ := List.mem_map.mp hmem
  rwa [← String.toList_inj.mp heq]

end Payloads

lemma stripText_jsonSafe {v : Val P} (hv : ColumnType.text.Holds v) :
    stripText (jsonSafe v) = .ok (pyStrip (textOfVal v)) := by
  obtain rfl | ⟨t, rfl⟩ := holds_text_cases hv
  · rfl
  · cases t with
    | nil => rfl
    | cons c t => rfl

lemma truthy_jsonSafe_text {v : Val P} (hv : ColumnType.text.Holds v) :
    truthy (jsonSafe v) = true ↔ NonemptyText v := by
  obtain rfl | ⟨t, rfl⟩ := holds_text_cases hv
  · constructor
    · intro h
      cases h
    · rintro ⟨c, t, h⟩
      cases h
  · cases t with
    | nil =>
      constructor
      · intro h
        cases h
      · rintro ⟨c, t, h⟩
        cases h
    | cons c t => exact ⟨fun _ => ⟨c, t, rfl⟩, fun _ => rfl⟩

lemma ofJson_text {v : Val P} (hv : ColumnType.text.Holds v) : ofJson (jsonSafe v) = v :=
  ofJson_jsonSafe hv (by decide) (by decide)

/-- The title stands in for an empty text. -/
lemma orTitle_eq_iff {v : Val P} (hv : ColumnType.text.Holds v) (log : DeletionLog P) :
    orTitle (jsonSafe v) log = v ↔ NonemptyText v := by
  unfold orTitle
  by_cases htruthy : truthy (jsonSafe v) = true
  · rw [if_pos htruthy, ofJson_text hv]
    exact ⟨fun _ => (truthy_jsonSafe_text hv).mp htruthy, fun _ => rfl⟩
  · rw [if_neg htruthy]
    have hempty : ¬NonemptyText v := fun h => htruthy ((truthy_jsonSafe_text hv).mpr h)
    constructor
    · intro h
      exfalso
      apply hempty
      rw [← h]
      split
      · next htitle =>
        obtain ⟨c, t, hct⟩ := List.exists_cons_of_ne_nil htitle
        exact ⟨c, t, by rw [hct]⟩
      · exact ⟨_, _, rfl⟩
    · intro h
      exact absurd h hempty

lemma orText_eq_iff {v : Val P} (hv : ColumnType.text.Holds v) {s : String} {c : Char} {t : Text}
    (hs : s.toList = c :: t) : orText (jsonSafe v) s = v ↔ NonemptyText v := by
  unfold orText
  by_cases htruthy : truthy (jsonSafe v) = true
  · rw [if_pos htruthy, ofJson_text hv]
    exact ⟨fun _ => (truthy_jsonSafe_text hv).mp htruthy, fun _ => rfl⟩
  · rw [if_neg htruthy, hs]
    have hempty : ¬NonemptyText v := fun h => htruthy ((truthy_jsonSafe_text hv).mpr h)
    constructor
    · intro h
      exact ⟨c, t, h.symm⟩
    · intro h
      exact absurd h hempty

end IpDocket.Deletion
