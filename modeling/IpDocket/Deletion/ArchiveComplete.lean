import IpDocket.Lib.Keyed
import IpDocket.Deletion.Archive

/-!
# Which deletions the archive misses

The entity key of a row is the value of one of its columns, and for some models this is the id
of a parent. So two rows of one family can have the same identity, and then the second of them
is not archived. A flush archives all its rows exactly if no two of them share this value.
-/

namespace IpDocket.Deletion
open IpDocket.Lib

/-- The models that share an entity type. -/
inductive Family
  | dockets
  | annuities
  | workflows
  | files
  | persons
  | invoices
  | expenses
  | payments
  | links
  deriving DecidableEq

namespace Model

def family : Model → Family
  | docketItem => .dockets
  | annuityItem => .annuities
  | workflow => .workflows
  | matterFileAsset | matterMemoFileAsset => .files
  | matterPartyRole | matterStaffAssignment | party | partyCode | partyContact | partyAddress =>
    .persons
  | legacyInvoice => .invoices
  | legacyExpense => .expenses
  | legacyInvoicePayment | legacyExpensePayment => .payments
  | externalInvoiceCaseLink | externalInvoiceCaseMap | caseExpenseInvoiceMap => .links

/-- The primary key, except for the codes, contacts and addresses of a party and for payments,
where it is the id of the parent. -/
def archiveColumn : Model → String
  | partyCode | partyContact | partyAddress => "party_id"
  | legacyInvoicePayment => "invoice_id"
  | legacyExpensePayment => "expense_id"
  | m => m.pk

def archiveColumnType (m : Model) : ColumnType :=
  match m.family with
  | .workflows | .links => .integer
  | _ => .text

end Model

section Identity

variable {P : PyTypes}

/-- Only the columns of these two types are keys. -/
lemma find?_keyAttributes :
    ∀ m : Model, keyAttributes.find? m.hasColumn = some m.archiveColumn := by
  decide +kernel

lemma archiveColumn_mem : ∀ m : Model, ∃ c ∈ m.columns, c.name = m.archiveColumn ∧
    c.type = m.archiveColumnType ∧ c.nullable = false := by
  decide +kernel

lemma pk_mem : ∀ m : Model, ∃ c ∈ m.columns, c.name = m.pk ∧
    c.type = m.archiveColumnType ∧ c.nullable = false := by
  decide +kernel

lemma entityType_eq_iff : ∀ m m' : Model,
    entityTypeForObject m = entityTypeForObject m' ↔ m.family = m'.family := by
  decide +kernel

/-- A key column holds a text or an integer. -/
lemma Row.key_cases (r : Row P) {name : String} {type : ColumnType}
    (h : ∃ c ∈ r.model.columns, c.name = name ∧ c.type = type ∧ c.nullable = false) :
    (type = .text → ∃ t, r.cells name = .str t) ∧ (type = .integer → ∃ n, r.cells name = .int n) := by
  obtain ⟨c, hc, rfl, rfl, hnull⟩ := h
  have hholds := r.holds c hc
  have hvalue := r.notNull c hc hnull
  constructor
  · intro htype
    rw [htype] at hholds
    cases hv : r.cells c.name with
    | null => exact absurd hv hvalue
    | str t => exact ⟨t, rfl⟩
    | _ =>
      rw [hv] at hholds
      cases hholds
  · intro htype
    rw [htype] at hholds
    cases hv : r.cells c.name with
    | null => exact absurd hv hvalue
    | int n => exact ⟨n, rfl⟩
    | _ =>
      rw [hv] at hholds
      cases hholds

lemma findSome?_of_find? {α β : Type} {p : α → Bool} {g : α → Option β} {l : List α} {a : α} {b : β}
    (h : l.find? p = some a) (hb : g a = some b) :
    l.findSome? (fun x => if p x then g x else none) = some b := by
  induction l with
  | nil => cases h
  | cons x l ih =>
    rw [List.find?_cons] at h
    rw [List.findSome?_cons]
    cases hx : p x with
    | true =>
      rw [hx] at h
      cases h
      rw [if_pos rfl, hb]
    | false =>
      rw [hx] at h
      rw [if_neg Bool.false_ne_true]
      exact ih h

/-- The scan of the fifteen attributes ends at the archive column. -/
lemma entityKey_row (r : Row P) :
    entityKeyForObject r.toRecord = some (pyStrVal (r.cells r.model.archiveColumn)) := by
  have hcases := r.key_cases (archiveColumn_mem r.model)
  unfold entityKeyForObject
  apply findSome?_of_find? (find?_keyAttributes r.model)
  unfold Model.archiveColumnType at hcases
  split at hcases
  · obtain ⟨n, hn⟩ := hcases.2 rfl
    rw [hn]
    rfl
  · obtain ⟨n, hn⟩ := hcases.2 rfl
    rw [hn]
    rfl
  · obtain ⟨t, ht⟩ := hcases.1 rfl
    rw [ht]
    rfl

lemma entityId_of_text {r : Record P} (h : r.model.archiveColumnType = .text) :
    entityIdForObject r = 0 := by
  unfold entityIdForObject
  split <;> first | rfl | (next hm => rw [hm] at h; cases h)

lemma entityId_of_integer (r : Row P) (h : r.model.archiveColumnType = .integer) :
    r.cells r.model.archiveColumn = .int (entityIdForObject r.toRecord) := by
  obtain ⟨n, hn⟩ := (r.key_cases (archiveColumn_mem r.model)).2 h
  have hid : r.model.archiveColumn = "id" ∧
      entityIdForObject r.toRecord = intOrZero (r.cells "id") := by
    unfold entityIdForObject
    revert h
    cases r.model <;> intro h <;> first | exact ⟨rfl, rfl⟩ | cases h
  rw [hid.2, ← hid.1, hn]
  rfl

lemma archiveColumnType_cases (m : Model) :
    m.archiveColumnType = .text ∨ m.archiveColumnType = .integer := by
  cases m <;> decide

/-- Two rows have the same identity exactly if they are of one family and share the value of
the archive column. -/
lemma identity_eq_iff (db : List (Record P)) (r q : Row P) :
    (buildLog db r.toRecord).identity = (buildLog db q.toRecord).identity ↔
      r.model.family = q.model.family ∧
      r.cells r.model.archiveColumn = q.cells q.model.archiveColumn := by
  have hkeys : (buildLog db r.toRecord).identity = (buildLog db q.toRecord).identity ↔
      entityTypeForObject r.model = entityTypeForObject q.model ∧
      entityIdForObject r.toRecord = entityIdForObject q.toRecord ∧
      pyStrVal (r.cells r.model.archiveColumn) = pyStrVal (q.cells q.model.archiveColumn) := by
    unfold DeletionLog.identity buildLog
    rw [entityKey_row, entityKey_row, Prod.mk.injEq, Prod.mk.injEq, Option.getD_some,
      Option.getD_some]
  rw [hkeys, entityType_eq_iff]
  apply and_congr_right
  intro hfamily
  have htype : r.model.archiveColumnType = q.model.archiveColumnType := by
    unfold Model.archiveColumnType
    rw [hfamily]
  obtain htext | hint := archiveColumnType_cases r.model
  · obtain ⟨t, ht⟩ := (r.key_cases (archiveColumn_mem r.model)).1 htext
    obtain ⟨u, hu⟩ := (q.key_cases (archiveColumn_mem q.model)).1 (htype ▸ htext)
    have hstr : ∀ t : Text, pyStrVal (.str t : Val P) = t := fun _ => rfl
    rw [entityId_of_text htext, entityId_of_text (htype ▸ htext), ht, hu, hstr, hstr,
      PyVal.str.injEq, and_iff_right rfl]
  · rw [entityId_of_integer r hint, entityId_of_integer q (htype ▸ hint)]
    constructor
    · rintro ⟨hid, _⟩
      rw [hid]
    · intro h
      rw [PyVal.int.injEq] at h
      rw [h]
      exact ⟨rfl, rfl⟩

end Identity

section Carries

variable {P : PyTypes}

/-- The log has the values of all columns of the row. -/
def DeletionLog.Carries (log : DeletionLog P) (r : Record P) : Prop :=
  log.payload.get "_model" = .str r.model.className.toList ∧
  ∀ c ∈ r.model.columns, log.payload.get c.name = jsonSafe (r.cells c.name)

def Record.SameRow (r q : Record P) : Prop := r.model = q.model ∧ r.pkValue = q.pkValue

lemma carries_buildLog (db : List (Record P)) (r : Record P) : (buildLog db r).Carries r := by
  have hmodel : (columnPayload r).get "_model" = .str r.model.className.toList := rfl
  have hcarries : ∀ rest : Payload P, (columnPayload r ++ rest).get "_model" =
      .str r.model.className.toList ∧
      ∀ c ∈ r.model.columns, (columnPayload r ++ rest).get c.name = jsonSafe (r.cells c.name) := by
    intro rest
    refine ⟨hmodel, ?_⟩
    intro c hc
    rw [← get_columnPayload hc]
    apply field_append_of_mem
    unfold columnPayload
    rw [List.map_append, List.map_map]
    exact List.mem_append_right _ (List.mem_map_of_mem hc)
  unfold DeletionLog.Carries buildLog payloadForObject
  dsimp only
  split
  · exact hcarries _
  · exact hcarries _
  · have h := hcarries []
    rwa [List.append_nil] at h

/-- A log that carries a row was built from this row. -/
lemma sameRow_of_carries {db : List (Record P)} {x r : Row P}
    (h : (buildLog db x.toRecord).Carries r.toRecord) : x.SameRow r.toRecord := by
  obtain ⟨hmodel, hcolumns⟩ := carries_buildLog db x.toRecord
  have hsame : x.model = r.model := by
    have hname := hmodel.symm.trans h.1
    rw [Json.str.injEq] at hname
    exact Model.className_inj _ _ (String.toList_inj.mp hname)
  refine ⟨hsame, ?_⟩
  obtain ⟨c, hc, hpk, htype, hnull⟩ := pk_mem r.model
  have hjson : jsonSafe (x.cells r.model.pk) = jsonSafe (r.cells r.model.pk) := by
    rw [← hpk, ← hcolumns c (hsame ▸ hc), h.2 c hc]
  have hx : (c.type = .text → ∃ t, x.cells r.model.pk = .str t) ∧
      (c.type = .integer → ∃ n, x.cells r.model.pk = .int n) :=
    x.key_cases ⟨c, hsame ▸ hc, hpk, rfl, hnull⟩
  have hr := r.key_cases ⟨c, hc, hpk, rfl, hnull⟩
  unfold Record.pkValue
  rw [hsame]
  obtain htext | hint := archiveColumnType_cases r.model
  · obtain ⟨t, ht⟩ := hx.1 (htype.trans htext)
    obtain ⟨u, hu⟩ := hr.1 (htype.trans htext)
    rw [ht, hu] at hjson ⊢
    rw [Json.str.inj hjson]
  · obtain ⟨t, ht⟩ := hx.2 (htype.trans hint)
    obtain ⟨u, hu⟩ := hr.2 (htype.trans hint)
    rw [ht, hu] at hjson ⊢
    rw [Json.int.inj hjson]

end Carries

/-! ### A flush -/

section Flush

variable {P : PyTypes}

/-- A flush of a session. A row that was archived by hand is deleted as it was, and the session
has one object for a row. -/
structure Flush (P : PyTypes) where
  db : List (Record P)
  manual : List (Row P)
  deleted : List (Row P)
  dirty : List (Row P)
  manual_models : ∀ r ∈ manual, r.model.family = .dockets ∨ r.model.family = .annuities ∨
    r.model.family = .workflows
  one_object : ∀ r ∈ deleted, ∀ x ∈ manual ++ deleted ++ dirty, x.SameRow r.toRecord → x = r

/-- The pending logs after the listener. -/
def Flush.logs (f : Flush P) : List (DeletionLog P) :=
  autoArchiveBeforeFlush f.db ((f.manual.map Row.toRecord).foldl (archive f.db) [])
    (f.deleted.map Row.toRecord) (f.dirty.map Row.toRecord)

/-- No two rows of one family share the value of the archive column. -/
def Flush.Separate (f : Flush P) : Prop :=
  ∀ r ∈ f.deleted, ∀ q ∈ f.deleted, r.model.family = q.model.family →
    r.cells r.model.archiveColumn = q.cells q.model.archiveColumn → r = q

lemma foldl_archive (db : List (Record P)) (new : List (DeletionLog P)) (rows : List (Row P)) :
    (rows.map Row.toRecord).foldl (archive db) new =
      (rows.map (fun r => buildLog db r.toRecord)).foldl (keepFirst DeletionLog.identity) new := by
  rw [List.foldl_map, List.foldl_map]
  rfl

lemma Flush.logs_eq (f : Flush P) :
    f.logs = (f.dirty.map (fun r => buildLog f.db r.toRecord)).foldl (keepFirst DeletionLog.identity)
      (((f.manual ++ f.deleted).map (fun r => buildLog f.db r.toRecord)).foldl
        (keepFirst DeletionLog.identity) []) := by
  unfold Flush.logs autoArchiveBeforeFlush
  rw [foldl_archive, foldl_archive, foldl_archive, List.map_append, List.foldl_append]

/-- Every pending log was built from a row of the session. -/
lemma Flush.exists_of_mem_logs {f : Flush P} {log : DeletionLog P} (h : log ∈ f.logs) :
    ∃ x ∈ f.manual ++ f.deleted ++ f.dirty, log = buildLog f.db x.toRecord := by
  rw [f.logs_eq] at h
  rw [List.append_assoc]
  obtain h | h := mem_of_mem_foldl_keepFirst h
  · obtain h | h := mem_of_mem_foldl_keepFirst h
    · cases h
    · obtain ⟨x, hx, rfl⟩ := List.mem_map.mp h
      rw [← List.append_assoc]
      exact ⟨x, List.mem_append_left _ hx, rfl⟩
  · obtain ⟨x, hx, rfl⟩ := List.mem_map.mp h
    exact ⟨x, List.mem_append_right _ (List.mem_append_right _ hx), rfl⟩

lemma Flush.pairwise_logs (f : Flush P) :
    f.logs.Pairwise (fun log log' => log.identity ≠ log'.identity) := by
  rw [f.logs_eq]
  exact pairwise_foldl_keepFirst (pairwise_foldl_keepFirst .nil)

lemma Flush.eq_buildLog_of_carries {f : Flush P} {log : DeletionLog P} {r : Row P}
    (hr : r ∈ f.deleted) (hlog : log ∈ f.logs) (h : log.Carries r.toRecord) :
    log = buildLog f.db r.toRecord := by
  obtain ⟨x, hx, rfl⟩ := Flush.exists_of_mem_logs hlog
  rw [f.one_object r hr x hx (sameRow_of_carries h)]

/-- The rows of the three models that are archived by hand are told apart by their identity. -/
lemma sameRow_of_manual {x r : Row P} (hx : x.model.family = .dockets ∨
    x.model.family = .annuities ∨ x.model.family = .workflows)
    (hfamily : x.model.family = r.model.family)
    (hcell : x.cells x.model.archiveColumn = r.cells r.model.archiveColumn) :
    x.SameRow r.toRecord := by
  have hmodels : ∀ m m' : Model, (m.family = .dockets ∨ m.family = .annuities ∨
      m.family = .workflows) → m.family = m'.family → m = m' ∧ m.archiveColumn = m.pk := by
    decide +kernel
  obtain ⟨hmodel, hpk⟩ := hmodels _ _ hx hfamily
  refine ⟨hmodel, ?_⟩
  unfold Record.pkValue
  rw [← hpk, hcell, ← hmodel, ← hpk]

/-- Separate rows are all archived. -/
lemma Flush.carries_of_separate {f : Flush P} (h : f.Separate) {r : Row P} (hr : r ∈ f.deleted) :
    buildLog f.db r.toRecord ∈ f.logs := by
  have hmem : buildLog f.db r.toRecord ∈
      (f.manual ++ f.deleted).map (fun r => buildLog f.db r.toRecord) :=
    List.mem_map.mpr ⟨r, List.mem_append_right _ hr, rfl⟩
  obtain ⟨log, hlog, hidentity⟩ : ∃ log ∈ _, DeletionLog.identity log = _ :=
    exists_key_foldl_keepFirst [] hmem
  have hkept : log ∈ f.logs := by
    rw [f.logs_eq]
    exact subset_foldl_keepFirst _ hlog
  obtain hnil | hrow := mem_of_mem_foldl_keepFirst hlog
  · cases hnil
  obtain ⟨x, hx, rfl⟩ := List.mem_map.mp hrow
  obtain ⟨hfamily, hcell⟩ := (identity_eq_iff f.db x r).mp hidentity
  have heq : x = r := by
    obtain hmanual | hdeleted := List.mem_append.mp hx
    · exact f.one_object r hr x (List.mem_append_left _ hx)
        (sameRow_of_manual (f.manual_models x hmanual) hfamily hcell)
    · exact h x hdeleted r hr hfamily hcell
  rwa [heq] at hkept

/-- Rows that are all archived in logs of their own are separate. -/
lemma Flush.separate_of_archived {f : Flush P}
    (h : ∀ r ∈ f.deleted, ∃ log ∈ f.logs, log.Carries r.toRecord ∧
      ∀ q ∈ f.deleted, log.Carries q.toRecord → q = r) : f.Separate := by
  intro r hr q hq hfamily hcell
  obtain ⟨log, hlog, hcarries, _⟩ := h r hr
  obtain ⟨log', hlog', hcarries', hown⟩ := h q hq
  have hr' := Flush.eq_buildLog_of_carries hr hlog hcarries
  have hq' := Flush.eq_buildLog_of_carries hq hlog' hcarries'
  have hidentity : log.identity = log'.identity := by
    rw [hr', hq']
    exact (identity_eq_iff f.db r q).mpr ⟨hfamily, hcell⟩
  have heq := eq_of_key_eq_of_pairwise f.pairwise_logs hlog hlog' hidentity
  exact hown r hr (heq ▸ hcarries)

/-- A flush archives every row it deletes in a log of its own, and the identity tells these rows
apart, exactly if no two of them are of one family and share the value of the archive column. -/
theorem archive_complete_iff (f : Flush P) :
    ((∀ r ∈ f.deleted, ∃ log ∈ f.logs, log.Carries r.toRecord ∧
        ∀ q ∈ f.deleted, log.Carries q.toRecord → q = r) ↔ f.Separate) ∧
    ((∀ r ∈ f.deleted, ∀ q ∈ f.deleted,
        (buildLog f.db r.toRecord).identity = (buildLog f.db q.toRecord).identity → r = q) ↔
      f.Separate) := by
  constructor
  · constructor
    · exact Flush.separate_of_archived
    · intro h r hr
      refine ⟨_, Flush.carries_of_separate h hr, carries_buildLog f.db r.toRecord, ?_⟩
      intro q hq hcarries
      have hx : r ∈ f.manual ++ f.deleted ++ f.dirty :=
        List.mem_append_left _ (List.mem_append_right _ hr)
      exact (f.one_object q hq r hx (sameRow_of_carries hcarries)).symm
  · constructor
    · intro h r hr q hq hfamily hcell
      exact h r hr q hq ((identity_eq_iff f.db r q).mpr ⟨hfamily, hcell⟩)
    · intro h r hr q hq hidentity
      obtain ⟨hfamily, hcell⟩ := (identity_eq_iff f.db r q).mp hidentity
      exact h r hr q hq hfamily hcell

end Flush

/-- Whole numbers for floats, and microseconds for datetimes. -/
def plainTypes : PyTypes where
  float := ℤ
  datetime := ℤ
  zero := 0
  isZero x := x = 0
  toFloat
    | .float x => some x
    | .int n => some n
    | _ => none
  toInt
    | .int n => some n
    | .float x => some x
    | _ => none
  isoformat t := pyInt t
  fromIsoformat _ := none
  str
    | .float x => pyInt x ++ ".0".toList
    | _ => []
  isZero_iff x := by simp
  toFloat_float x := rfl
  toInt_int n := rfl

def partyCodeRow (id : String) : Row plainTypes where
  model := .partyCode
  cells name :=
    if name = "party_code_id" then .str id.toList
    else if name = "party_id" then .str "P1".toList
    else if name = "code_type" then .str "customer".toList
    else .str "10".toList
  holds c hc := by
    simp only [Model.columns, List.mem_cons, List.not_mem_nil, or_false] at hc
    obtain rfl | rfl | rfl | rfl := hc <;> trivial
  notNull c hc _ := by
    split_ifs <;> simp

def twoCodes : Flush plainTypes where
  db := []
  manual := []
  deleted := [partyCodeRow "C1", partyCodeRow "C2"]
  dirty := []
  manual_models := by simp
  one_object r hr x hx h := by
    have hne : ¬(partyCodeRow "C1").SameRow (partyCodeRow "C2").toRecord ∧
        ¬(partyCodeRow "C2").SameRow (partyCodeRow "C1").toRecord := by
      constructor
      · rintro ⟨_, hpk⟩
        cases hpk
      · rintro ⟨_, hpk⟩
        cases hpk
    simp only [List.nil_append, List.append_nil, List.mem_cons, List.not_mem_nil, or_false] at hr hx
    obtain rfl | rfl := hr
    · obtain rfl | rfl := hx
      · rfl
      · exact absurd h hne.2
    · obtain rfl | rfl := hx
      · exact absurd h hne.1
      · rfl

/-- One of two codes of a party that are deleted together is not archived. -/
theorem archive_misses_party_code :
    ¬(∀ r ∈ twoCodes.deleted, ∃ log ∈ twoCodes.logs, log.Carries r.toRecord ∧
      ∀ q ∈ twoCodes.deleted, log.Carries q.toRecord → q = r) ∧
    (buildLog [] (partyCodeRow "C1").toRecord).identity =
      (buildLog [] (partyCodeRow "C2").toRecord).identity := by
  have hparty : ∀ id, (partyCodeRow id).cells (partyCodeRow id).model.archiveColumn = .str "P1".toList :=
    fun _ => rfl
  have hshare := (hparty "C1").trans (hparty "C2").symm
  have hpartyFamily : ∀ id, (partyCodeRow id).model.family = Model.partyCode.family := fun _ => rfl
  have hfamily := (hpartyFamily "C1").trans (hpartyFamily "C2").symm
  have hidentity : (buildLog [] (partyCodeRow "C1").toRecord).identity =
      (buildLog [] (partyCodeRow "C2").toRecord).identity :=
    (identity_eq_iff [] _ _).mpr ⟨hfamily, hshare⟩
  refine ⟨?_, hidentity⟩
  intro h
  have heq : partyCodeRow "C1" = partyCodeRow "C2" :=
    Flush.separate_of_archived h _ (by simp [twoCodes]) _ (by simp [twoCodes]) hfamily hshare
  have hcells : (partyCodeRow "C1").cells "party_code_id" =
      (partyCodeRow "C2").cells "party_code_id" := by
    rw [heq]
  cases hcells

end IpDocket.Deletion
