import IpDocket.Deletion.Archive
import IpDocket.Deletion.DocketDates

/-!
# Restoring a deleted row

`restore_log` looks at what stands against the restoration (`preview_log`), writes the row in a
transaction of its own and then marks the log as restored in a second one. Which columns are
written, and with which defaults, is listed by hand for deadlines, annuities and workflows; for
the other models it goes through all columns.

What the preview shows to the user besides its blockers is left out.
-/

namespace IpDocket.Deletion
open IpDocket.Lib

variable {P : PyTypes}

/-- `bool(v)`. -/
def truthy : PyJson P → Bool
  | .null => false
  | .bool b => b
  | .int n => n ≠ 0
  | .float x => !P.isZero x
  | .str t => t ≠ []
  | .arr items => !items.isEmpty
  | .obj fields => !fields.isEmpty

/-- `v or w`. -/
def orElse (v w : PyJson P) : PyJson P := if truthy v then v else w

/-- `str(v or t)`. -/
def strOr (v : PyJson P) (t : Text) : Text := if truthy v then pyStrVal (ofJson v) else t

/-- The constraint that an `IntegrityError` is about. -/
inductive Constraint
  | notNull
  | unique
  deriving DecidableEq

inductive RestoreError
  | alreadyRestored
  | dependencyBlocked (blockers : List Text)
  | missingDueDate
  | missingAnnuityIdentity
  | unsupportedEntityType
  | attributeError
  | valueError
  | integrityError (c : Constraint) (table : Option Model)
  | wrongType (table : Model)
  | staleData
  deriving DecidableEq

/-- `(v or "").strip()`. -/
def stripText (v : PyJson P) : Except RestoreError Text :=
  if truthy v then
    match v with
    | .str t => .ok (pyStrip t)
    | _ => .error .attributeError
  else .ok []

/-- `_coerce_int`. -/
def coerceInt (v : PyJson P) : Option ℤ :=
  match v with
  | .null => none
  | v => if pyStrip (pyStrVal (ofJson v)) = [] then none else P.toInt v

/-- `_parse_date`. -/
def parseDate (v : PyJson P) : Val P :=
  if truthy v then
    ((PyDate.fromIsoformat ((pyStrip (pyStrVal (ofJson v))).takeWhile (· ≠ 'T'))).map PyVal.date).getD
      .null
  else .null

/-- `_parse_datetime`. -/
def parseDatetime (v : PyJson P) : Val P :=
  if truthy v then ((P.fromIsoformat (pyStrip (pyStrVal (ofJson v)))).map PyVal.datetime).getD .null
  else .null

/-- `_safe_float`. -/
def safeFloat (v : PyJson P) : Val P :=
  match v with
  | .null => .float P.zero
  | .str [] => .float P.zero
  | v => .float ((P.toFloat v).getD P.zero)

inductive LegacyKind
  | deadline
  | renewalFee
  deriving DecidableEq

/-- A row of `deadlines` or `renewal_fees`, without its id. -/
structure LegacyRow (P : PyTypes) where
  kind : LegacyKind
  cells : String → Val P

def isNull : Val P → Bool
  | .null => true
  | _ => false

/-- No column is `NULL` that must not be. -/
def Record.Complete (r : Record P) : Prop :=
  ∀ c ∈ r.model.columns, c.nullable = false → isNull (r.cells c.name) = false

instance (r : Record P) : Decidable r.Complete :=
  inferInstanceAs (Decidable (∀ c ∈ r.model.columns, c.nullable = false →
    isNull (r.cells c.name) = false))

/-- Every column takes its value. -/
def Record.Typed (r : Record P) : Prop := ∀ c ∈ r.model.columns, c.type.Holds (r.cells c.name)

instance (r : Record P) : Decidable r.Typed :=
  inferInstanceAs (Decidable (∀ c ∈ r.model.columns, c.type.Holds (r.cells c.name)))

/-- `matters` says whether the matter is deleted; `cases` are the legacy cases. -/
structure Db (P : PyTypes) where
  rows : List (Record P)
  legacy : List (LegacyRow P)
  matters : Text → Option Bool
  cases : ℤ → Bool
  nextId : ℤ
  complete : ∀ r ∈ rows, r.Complete
  typed : ∀ r ∈ rows, r.Typed

/-- The SQL equality of texts, numbers and dates; `NULL` equals nothing. -/
def sameValue : Val P → Val P → Bool
  | .str s, .str t => s = t
  | .int m, .int n => m = n
  | .date d, .date e => d = e
  | _, _ => false

/-- `db.session.get(model, v)`. -/
def Db.get (db : Db P) (m : Model) (v : Val P) : Option (Record P) :=
  db.rows.find? (fun r => r.model = m ∧ sameValue r.pkValue v)

/-- `bool(getattr(row, "is_deleted", False))`. -/
def Record.isDeleted (r : Record P) : Bool :=
  r.model.hasColumn "is_deleted" &&
    (match r.cells "is_deleted" with
    | .bool b => b
    | .int n => decide (n ≠ 0)
    | _ => false)

def Record.set (r : Record P) (name : String) (v : Val P) : Record P :=
  { r with cells := fun n => if n = name then v else r.cells n }

/-- The assignments in their order. -/
def Record.setAll (r : Record P) (values : List (String × Val P)) : Record P :=
  values.foldl (fun r nv => r.set nv.1 nv.2) r

/-- An object whose attributes are not set. -/
def newObject (m : Model) : Record P := ⟨m, fun _ => .null⟩

/-- `_clear_soft_delete_fields`. -/
def clearSoftDeleteFields (r : Record P) : Record P :=
  let r := if r.model.hasColumn "is_deleted" then r.set "is_deleted" (.bool false) else r
  ["deleted_at", "deleted_by", "delete_reason", "deleted_op_id"].foldl
    (fun r attr => if r.model.hasColumn attr then r.set attr .null else r) r

/-- `_matter_dependency`. -/
def matterDependency (db : Db P) (mid : Text) : List Text :=
  let matterId := pyStrip mid
  if matterId = [] then [" Matter (matter_id/case_id)  Restore  none.".toList]
  else
    match db.matters matterId with
    | none => [" Matter(matter_id=".toList ++ matterId ++ ")  Restore  none.".toList]
    | some true => [" Matter Deleted status. Matter Restore/active  Retry.".toList]
    | some false => []

def legacyDependency (db : Db P) (kind : Text) (payload : Payload P) : List Text :=
  match coerceInt (payload.get "case_id") with
  | none => ["legacy ".toList ++ kind ++ " Restore Required case_id none.".toList]
  | some caseId =>
    if db.cases caseId then [] else ["legacy case_id=".toList ++ pyInt caseId ++ "  does not.".toList]

/-- A row that is there and not deleted. -/
def liveBlocker (existing : Option (Record P)) (message : Text) : List Text :=
  if existing.any (fun r => !r.isDeleted) then [message] else []

def previewDeadline (db : Db P) (payload : Payload P) : Except RestoreError (List Text) :=
  if truthy (payload.get "docket_id") || truthy (payload.get "matter_id") then do
    let docketId ← stripText (payload.get "docket_id")
    let matterId ← stripText (payload.get "matter_id")
    let existing := if docketId = [] then none else db.get .docketItem (.str docketId)
    let _ ← stripText (payload.get "name_ref")
    let _ ← stripText (payload.get "due_date")
    let _ ← stripText (payload.get "done_date")
    return matterDependency db matterId ++
      liveBlocker existing ("docket_id=".toList ++ docketId ++ "   active Status .".toList)
  else return legacyDependency db "deadline".toList payload

/-- The first live annuity of a matter and a cycle. -/
def Db.liveAnnuity (db : Db P) (matterId : Text) (cycleNo : ℤ) : Option (Record P) :=
  db.rows.find? (fun r => r.model = .annuityItem ∧ sameValue (r.cells "matter_id") (.str matterId) ∧
    sameValue (r.cells "cycle_no") (.int cycleNo) ∧ !r.isDeleted)

def previewRenewal (db : Db P) (payload : Payload P) : Except RestoreError (List Text) :=
  if truthy (payload.get "annuity_id") || truthy (payload.get "matter_id") then do
    let annuityId ← stripText (payload.get "annuity_id")
    let matterId ← stripText (payload.get "matter_id")
    let existing := if annuityId = [] then none else db.get .annuityItem (.str annuityId)
    let cycleNo := (coerceInt (orElse (payload.get "cycle_no") (payload.get "year"))).getD 0
    let duplicate := if matterId = [] ∨ cycleNo = 0 then none else
      (db.liveAnnuity matterId cycleNo).filter (fun r =>
        annuityId = [] ∨ pyStrVal (r.cells "annuity_id") ≠ annuityId)
    return matterDependency db matterId ++
      liveBlocker existing ("annuity_id=".toList ++ annuityId ++ "   active Status .".toList) ++
      duplicate.toList.map (fun r => " Matter/   . (matter_id=".toList ++ matterId ++
        ", cycle_no=".toList ++ pyInt cycleNo ++ ", annuity_id=".toList ++
        pyStrVal (r.cells "annuity_id") ++ ")".toList)
  else return legacyDependency db "renewal".toList payload

def previewWorkflow (db : Db P) (payload : Payload P) : Except RestoreError (List Text) := do
  let caseId ← stripText (payload.get "case_id")
  let businessCode ← stripText (payload.get "business_code")
  let existing := if businessCode = [] then none else
    db.rows.find? (fun r => r.model = .workflow ∧
      sameValue (r.cells "business_code") (.str businessCode))
  return matterDependency db caseId ++
    existing.toList.map (fun r => "business_code=".toList ++ businessCode ++
      "    In Progress. (workflow_id=".toList ++ pyStrVal (r.cells "id") ++ ")".toList)

/-- `_model_for_payload`. -/
def modelForPayload (payload : Payload P) : Option Model :=
  let name := pyStrip (strOr (payload.get "_model") [])
  [Model.matterFileAsset, .matterMemoFileAsset, .matterPartyRole, .matterStaffAssignment, .party,
    .partyCode, .partyContact, .partyAddress, .legacyInvoice, .legacyInvoicePayment,
    .legacyExpense, .legacyExpensePayment, .externalInvoiceCaseLink, .externalInvoiceCaseMap,
    .caseExpenseInvoiceMap].find? (fun m => m.className.toList = name)

/-- The row of a primary key, which is neither `None` nor empty. -/
def Db.getKeyed (db : Db P) (m : Model) (payload : Payload P) : Option (Record P) :=
  match payload.get m.pk with
  | .null => none
  | .str [] => none
  | v => db.get m (ofJson v)

/-- `_existing_for_payload`. -/
def existingForPayload (db : Db P) (payload : Payload P) : Option (Record P) :=
  (modelForPayload payload).bind (fun m => db.getKeyed m payload)

def previewFile (db : Db P) (payload : Payload P) : Except RestoreError (List Text) := do
  let matterId ← stripText (payload.get "matter_id")
  let _ ← stripText (payload.get "file_asset_id")
  let matter :=
    if strOr (payload.get "_model") [] = "MatterFileAsset".toList then matterDependency db matterId
    else []
  return matter ++ liveBlocker (existingForPayload db payload) " File link  active Status.".toList

def previewPerson (db : Db P) (payload : Payload P) : Except RestoreError (List Text) := do
  let name := strOr (payload.get "_model") []
  let matter ←
    if name = "MatterPartyRole".toList ∨ name = "MatterStaffAssignment".toList then do
      let matterId ← stripText (payload.get "matter_id")
      pure (matterDependency db matterId)
    else pure []
  let _ ← stripText (orElse (payload.get "party_id") (payload.get "staff_party_id"))
  return matter ++ liveBlocker (existingForPayload db payload) " /Contact   .".toList

def previewBilling (db : Db P) (entityType : EntityType) (payload : Payload P) : List Text :=
  let matter :=
    if truthy (payload.get "matter_id") then
      matterDependency db (strOr (payload.get "matter_id") [])
    else if entityType = .billingInvoice ∨ entityType = .billingExpense then
      ["Billing/Expense Restore Required matter_id none.".toList]
    else []
  matter ++ liveBlocker (existingForPayload db payload)
    " Billing/Expense   active Status.".toList

/-- The blockers of `preview_log`. -/
def previewLog (db : Db P) (log : DeletionLog P) : Except RestoreError (List Text) :=
  match log.entityType with
  | .deadline => previewDeadline db log.payload
  | .renewal => previewRenewal db log.payload
  | .workflow => previewWorkflow db log.payload
  | .file => previewFile db log.payload
  | .person => previewPerson db log.payload
  | .billingInvoice | .billingExpense | .billingPayment | .billingLink =>
    .ok (previewBilling db log.entityType log.payload)
  | .other t => .ok ["  entity_type : ".toList ++ (if t = [] then "-".toList else t)]

/-! ### The rows that are written -/

/-- What a restoration reads besides the database: the clock, the Unicode tables and a new
`uuid4().hex`. -/
structure RestoreEnv (P : PyTypes) where
  tables : DateTables
  today : PyDate
  now : P.datetime
  timestamp : Text
  newKey : Text

/-- An object to be flushed, with the row it was loaded from if one was found. -/
structure Write (P : PyTypes) where
  loaded : Option (Record P)
  object : Record P

/-- The rows of a restoration: one of a supported model, with its children, or one of a legacy
table. -/
inductive Plan (P : PyTypes)
  | rows (main : Write P) (children : List (Write P))
  | legacy (r : LegacyRow P)

section Restore

variable (env : RestoreEnv P) (db : Db P)

/-- `get_staff_role_for_matter`. -/
def Db.staffRole (matterId : Text) (staffPartyId : Text) : Option Text :=
  (db.rows.find? (fun r => r.model = .matterStaffAssignment ∧
    sameValue (r.cells "matter_id") (.str matterId) ∧
    sameValue (r.cells "staff_party_id") (.str staffPartyId))).bind (fun r =>
      match r.cells "staff_role_code" with
      | .str t => some t
      | _ => none)

/-- `determine_category_by_staff_role(matter_id, staff_party_id=owner)`. -/
def determineCategoryByStaffRole (matterId : Text) (owner : PyJson P) : Text :=
  if matterId = [] ∨ !truthy owner then "WORK".toList
  else
    match db.staffRole matterId (pyStrVal (ofJson owner)) with
    | some role =>
      if pyStrip (role.map asciiLower) ∈ ["manager".toList, "mgmt".toList] then "MGMT".toList
      else "WORK".toList
    | none => "WORK".toList

/-- `v or log.title or "(restored)"`. -/
def orTitle (v : PyJson P) (log : DeletionLog P) : Val P :=
  if truthy v then ofJson v
  else if log.title ≠ [] then .str log.title else .str "(restored)".toList

/-- `v or t`. -/
def orText (v : PyJson P) (t : String) : Val P := if truthy v then ofJson v else .str t.toList

/-- The object of a row that was found, or a new one. -/
def foundOrNew (existing : Option (Record P)) (m : Model) : Record P := existing.getD (newObject m)

/-- The assignments to a docket in `_restore_deadline`. -/
def docketAssignments (log : DeletionLog P) : List (String × Val P) :=
  let payload := log.payload
  let copy := fun name => (name, ofJson (payload.get name))
  let date := fun name =>
    (name, normalizeDateStr env.tables.toUnicodeTables (ofJson (payload.get name)))
  let matterId := strOr (payload.get "matter_id") []
  [("matter_id", .str matterId),
    ("category",
      if truthy (payload.get "category") then ofJson (payload.get "category")
      else .str (determineCategoryByStaffRole db matterId (payload.get "owner_staff_party_id"))),
    copy "name_ref", ("name_free", orTitle (payload.get "name_free") log), date "due_date",
    date "extended_due_date", date "visible_from_date",
    ("done_date", normalizeDoneDate env.tables.toUnicodeTables env.today
      (ofJson (payload.get "done_date"))),
    copy "owner_staff_party_id", copy "memo", copy "raw_id"]

def restoreDeadline (log : DeletionLog P) : Except RestoreError (Plan P) :=
  let payload := log.payload
  if truthy (payload.get "docket_id") || truthy (payload.get "matter_id") then
    let docketId := strOr (payload.get "docket_id") env.newKey
    let existing := db.get .docketItem (.str docketId)
    let di := existing.getD ((newObject .docketItem).set "docket_id" (.str docketId))
    .ok (.rows ⟨existing,
      (clearSoftDeleteFields di).setAll (docketAssignments env db log)⟩ [])
  else
    match parseDate (payload.get "due_date") with
    | .null => .error .missingDueDate
    | dueDate =>
      .ok (.legacy ⟨.deadline, ((newObject .docketItem).setAll
        [("case_id", ofJson (payload.get "case_id")),
          ("title", orTitle (payload.get "title") log), ("type", ofJson (payload.get "type")),
          ("due_date", dueDate), ("internal_due_date", parseDate (payload.get "internal_due_date")),
          ("status", orText (payload.get "status") "new"),
          ("assigned_to", ofJson (payload.get "assigned_to")),
          ("priority", orText (payload.get "priority") "normal"),
          ("notes", ofJson (payload.get "notes"))]).cells⟩)

/-- `AnnuityItem._validate_annuity_status`. -/
def validateAnnuityStatus (value : Text) : Text :=
  let raw := pyStrip value
  let v := raw.map asciiLower
  if raw = [] then "pending".toList
  else if v ∈ ["giveup".toList, "give_up".toList, "give-up".toList, "abandoned".toList,
      "waived".toList, "forfeit".toList] then "giveup".toList
  else if "Abandoned".toList <:+: raw ∨ "Withdrawn".toList <:+: raw then "giveup".toList
  else if v ∈ ["paid".toList, "payed".toList, "done".toList, "complete".toList,
      "completed".toList] then "paid".toList
  else if "Done".toList <:+: raw then "pending".toList
  else if "Receipt".toList <:+: raw then "paid".toList
  else "pending".toList

/-- The annuity of an id, or that of the matter and the cycle. -/
def Db.annuity (annuityId matterId : Text) (cycleNo : ℤ) : Option (Record P) :=
  (db.get .annuityItem (.str annuityId)).or
    (db.rows.find? (fun r => r.model = .annuityItem ∧
      sameValue (r.cells "matter_id") (.str matterId) ∧
      sameValue (r.cells "cycle_no") (.int cycleNo)))

/-- The assignments to an annuity in `_restore_renewal`. -/
def annuityAssignments (log : DeletionLog P) (cycleNo : ℤ) : List (String × Val P) :=
  let payload := log.payload
  let copy := fun name => (name, ofJson (payload.get name))
  let date := fun name =>
    (name, normalizeDateStr env.tables.toUnicodeTables (ofJson (payload.get name)))
  let status := strOr (orElse (payload.get "annuity_status") (payload.get "status"))
    "pending".toList
  [("matter_id", .str (strOr (payload.get "matter_id") [])), ("cycle_no", .int cycleNo),
    ("annuity_status", .str (validateAnnuityStatus ((pyStrip status).map asciiLower))),
    copy "owner_staff_party_id", date "due_date", date "extended_due_date",
    date "renewal_open_date", date "renewal_notice_due", date "internal_due_date",
    date "paid_date",
    ("official_fee", safeFloat (orElse (payload.get "official_fee") (payload.get "fee_amount"))),
    ("vat_amount", safeFloat (payload.get "vat_amount")),
    ("service_fee", safeFloat (payload.get "service_fee")),
    ("memo", ofJson (orElse (payload.get "memo") (payload.get "notes"))), copy "raw_id"]

/-- `_restore_renewal`; `revive_soft_deleted_annuity_item` clears the same fields as
`_clear_soft_delete_fields`. -/
def restoreRenewal (log : DeletionLog P) : Except RestoreError (Plan P) :=
  let payload := log.payload
  if truthy (payload.get "annuity_id") || truthy (payload.get "matter_id") then
    let matterId := strOr (payload.get "matter_id") []
    let cycleNo := (coerceInt (orElse (payload.get "cycle_no") (payload.get "year"))).getD 0
    if matterId = [] ∨ cycleNo ≤ 0 then .error .missingAnnuityIdentity
    else
      let annuityId := strOr (payload.get "annuity_id") env.newKey
      let existing := db.annuity annuityId matterId cycleNo
      let ai := existing.getD ((newObject .annuityItem).set "annuity_id" (.str annuityId))
      .ok (.rows ⟨existing,
        (clearSoftDeleteFields ai).setAll (annuityAssignments env log cycleNo)⟩ [])
  else
    match parseDate (payload.get "due_date") with
    | .null => .error .missingDueDate
    | dueDate =>
      -- `int(v or 1)`, which may raise
      match P.toInt (orElse (payload.get "year") (.int 1)) with
      | none => .error .valueError
      | some year =>
        .ok (.legacy ⟨.renewalFee, ((newObject .annuityItem).setAll
          [("case_id", ofJson (payload.get "case_id")), ("year", .int year), ("due_date", dueDate),
            ("fee_amount", ofJson (orElse (payload.get "fee_amount") (.int 0))),
            ("currency", orText (payload.get "currency") "USD"),
            ("status", orText (payload.get "status") "pending"),
            ("notes", ofJson (payload.get "notes"))]).cells⟩)

/-- `Workflow._validate_status`. -/
def validateStatus (value : Text) : Text :=
  let raw := pyStrip value
  let normalized := raw.map (fun c => if c = '_' ∨ c = '-' then ' ' else asciiLower c)
  if raw = [] then "Pending".toList
  else if normalized = "pending".toList then "Pending".toList
  else if normalized = "in progress".toList then "In Progress".toList
  else if normalized ∈ ["completed".toList, "complete".toList, "done".toList] then
    "Completed".toList
  else if normalized ∈ ["abandoned".toList, "cancelled".toList, "canceled".toList] then
    "Abandoned".toList
  else raw

/-- The values of a workflow in `_restore_workflow`, besides the status. -/
def workflowValues (log : DeletionLog P) : List (String × Val P) :=
  let payload := log.payload
  let copy := fun name => (name, ofJson (payload.get name))
  let date := fun name => (name, parseDate (payload.get name))
  [copy "case_id", ("name", orTitle (payload.get "name") log), copy "business_code",
    ("category", orText (payload.get "category") "WORK"),
    ("priority", orText (payload.get "priority") "normal"), copy "send_memo",
    date "request_start_date", date "legal_due_date", date "draft_due_date",
    date "draft_due_date2", date "submit_due_date", date "draft_sent_date", date "submit_date",
    date "due_date", date "completed_date", copy "difficulty", copy "page_count",
    copy "work_hours", copy "assignee_id", copy "attorney_assignee_id", copy "inspector_id",
    copy "created_by_id", copy "note"]

def restoreWorkflow (log : DeletionLog P) : Except RestoreError (Plan P) :=
  match orText (log.payload.get "status") "Pending" with
  | .str status =>
    .ok (.rows ⟨none, (newObject .workflow).setAll
      (workflowValues log ++ [("status", .str (validateStatus status))])⟩ [])
  | _ => .error .attributeError

/-- The value that `_assign_payload_columns` gives to a column. -/
def assignValue (type : ColumnType) (v : PyJson P) : Val P :=
  match v with
  | .null => .null
  | .str [] => .null
  | v =>
    match type with
    | .date => parseDate v
    | .datetime => parseDatetime v
    | _ => ofJson v

/-- `_assign_payload_columns`. -/
def assignPayloadColumns (r : Record P) (payload : Payload P) : Record P :=
  r.model.columns.foldl (fun r c =>
    if payload.any (fun kv => kv.1 = c.name.toList) then
      r.set c.name (assignValue c.type (payload.get c.name))
    else r) r

/-- `_upsert_from_payload`. -/
def upsertFromPayload (m : Model) (payload : Payload P) : Write P :=
  let existing := db.getKeyed m payload
  ⟨existing, clearSoftDeleteFields (assignPayloadColumns (foundOrNew existing m) payload)⟩

/-- `_restore_child_rows`. -/
def restoreChildRows (m : Model) (v : PyJson P) : List (Write P) :=
  match v with
  | .arr items => items.filterMap (fun item =>
    match item with
    | .obj fields => some (upsertFromPayload db m fields)
    | _ => none)
  | _ => []

/-- `_restore_file` and `_restore_person`, for their models. -/
def restoreAmong (models : List Model) (log : DeletionLog P) : Except RestoreError (Plan P) :=
  match modelForPayload log.payload with
  | some m =>
    if m ∈ models then .ok (.rows (upsertFromPayload db m log.payload) [])
    else .error .unsupportedEntityType
  | none => .error .unsupportedEntityType

def restoreFile (log : DeletionLog P) : Except RestoreError (Plan P) :=
  restoreAmong db [.matterFileAsset, .matterMemoFileAsset] log

def restorePerson (log : DeletionLog P) : Except RestoreError (Plan P) :=
  restoreAmong db [.matterPartyRole, .matterStaffAssignment, .party, .partyCode, .partyContact,
    .partyAddress] log

def restoreBilling (log : DeletionLog P) : Except RestoreError (Plan P) :=
  let fallback : Option Model :=
    match log.entityType with
    | .billingInvoice => some .legacyInvoice
    | .billingExpense => some .legacyExpense
    | _ => none
  match (modelForPayload log.payload).or fallback with
  | none => .error .unsupportedEntityType
  | some m =>
    let children :=
      match m with
      | .legacyInvoice => restoreChildRows db .legacyInvoicePayment (log.payload.get "payments")
      | .legacyExpense =>
        restoreChildRows db .legacyExpensePayment (log.payload.get "payments") ++
          restoreChildRows db .caseExpenseInvoiceMap (log.payload.get "invoice_links")
      | _ => []
    .ok (.rows (upsertFromPayload db m log.payload) children)

/-- The rows of the restore function of the entity type. -/
def restorePlan (log : DeletionLog P) : Except RestoreError (Plan P) :=
  match log.entityType with
  | .deadline => restoreDeadline env db log
  | .renewal => restoreRenewal env db log
  | .workflow => restoreWorkflow log
  | .file => restoreFile db log
  | .person => restorePerson db log
  | .billingInvoice | .billingExpense | .billingPayment | .billingLink => restoreBilling db log
  | .other _ => .error .unsupportedEntityType

end Restore

def defaultValue (env : RestoreEnv P) (c : Column) : Val P :=
  match c.default with
  | none => .null
  | some (.bool b) => .bool b
  | some (.int n) => .int n
  | some (.str t) => .str t.toList
  | some .newKey => .str env.newKey
  | some .now => if c.type = .datetime then .datetime env.now else .str env.timestamp

/-- The row of an `INSERT`: a column that the object leaves `None` gets its default, and an
integer primary key the next number of its sequence. -/
def insertedRow (env : RestoreEnv P) (nextId : ℤ) (r : Record P) : Record P :=
  { r with
    cells := fun name =>
      match r.cells name, r.model.columns.find? (fun c => c.name = name) with
      | .null, some c =>
        if c.name = r.model.pk ∧ c.type = .integer then .int nextId else defaultValue env c
      | v, _ => v }

/-- The columns of the unique constraints, besides the primary key. -/
def uniqueKeys : Model → List (List String)
  | .annuityItem => [["matter_id", "cycle_no"]]
  | .workflow => [["business_code"]]
  | .matterFileAsset => [["matter_id", "file_asset_id", "role"]]
  | .matterMemoFileAsset => [["memo_id", "file_asset_id", "role"]]
  | .externalInvoiceCaseLink => [["external_invoice_id"]]
  | .externalInvoiceCaseMap => [["matter_id", "external_invoice_id"]]
  | .caseExpenseInvoiceMap => [["expense_id", "billing_invoice_id", "billing_line_item_id"]]
  | _ => []

/-- `NULLIF(TRIM(column), '')`. -/
def trimmed : Val P → Option Text
  | .str t =>
    let t := ((t.dropWhile (· = ' ')).reverse.dropWhile (· = ' ')).reverse
    if t = [] then none else some t
  | _ => none

/-- The key of a docket in the index `ux_docket_item_open_natural`, of the open ones. -/
def openNatural (r : Record P) : Option (Text × Text × Text) :=
  match r.cells "done_date", r.cells "matter_id", r.cells "name_ref",
    (trimmed (r.cells "extended_due_date")).or (trimmed (r.cells "due_date")) with
  | .null, .str matterId, .str nameRef, some due =>
    if r.isDeleted then none else some (matterId, nameRef, due)
  | _, _, _, _ => none

/-- Two rows that cannot both be in the database, unless they are one row. -/
def sharesKey (r q : Record P) : Bool :=
  r.model = q.model &&
    ((uniqueKeys r.model).any (fun key => key.all (fun name =>
        sameValue (r.cells name) (q.cells name))) ||
      (r.model = .docketItem && (openNatural r).isSome && openNatural r = openNatural q))

def sameRow (r q : Record P) : Bool := r.model = q.model && sameValue r.pkValue q.pkValue

lemma forall_map_replace {rows : List (Record P)} {row : Record P} {same : Record P → Bool}
    {p : Record P → Prop} (h : ∀ r ∈ rows, p r) (hrow : p row) :
    ∀ r ∈ rows.map (fun q => if same q then row else q), p r := by
  intro r hr
  obtain ⟨q, hq, rfl⟩ := List.mem_map.mp hr
  split
  · exact hrow
  · exact h q hq

/-- `True` and `False` equal the numbers 1 and 0. -/
def equalsNumber : Val P → Val P → Bool
  | .int n, .bool b => n = if b then 1 else 0
  | _, _ => false

/-- The row of an `UPDATE`, which leaves out an attribute that equals what was loaded. -/
def updatedRow (loaded r : Record P) : Record P :=
  { r with
    cells := fun name =>
      if equalsNumber (loaded.cells name) (r.cells name) then loaded.cells name else r.cells name }

/-- The row that the flush of an object writes. -/
def Db.rowOf (env : RestoreEnv P) (db : Db P) (w : Write P) : Record P :=
  match w.loaded with
  | some loaded => updatedRow loaded w.object
  | none => insertedRow env db.nextId w.object

/-- The flush of one object. PostgreSQL takes no boolean for an integer column, and no text that is too
long for its column. -/
def Db.save (env : RestoreEnv P) (db : Db P) (w : Write P) : Except RestoreError (Db P × Record P) :=
  let row := db.rowOf env w
  if ht : row.Typed then
    if h : row.Complete then
      if db.rows.any (fun q => sharesKey row q && !sameRow row q) then
        .error (.integrityError .unique (some row.model))
      else if w.loaded.isSome then
        -- an `UPDATE` that matches no row raises `StaleDataError`
        if !db.rows.any (sameRow row) then .error .staleData
        else .ok ({ db with
          rows := db.rows.map (fun q => if sameRow row q then row else q)
          complete := forall_map_replace db.complete h
          typed := forall_map_replace db.typed ht }, row)
      else if db.rows.any (sameRow row) then .error (.integrityError .unique (some row.model))
      else
        .ok ({ db with
          rows := db.rows ++ [row]
          nextId := db.nextId + 1
          complete := List.forall_mem_append.mpr ⟨db.complete, List.forall_mem_singleton.mpr h⟩
          typed := List.forall_mem_append.mpr ⟨db.typed, List.forall_mem_singleton.mpr ht⟩ }, row)
    else .error (.integrityError .notNull (some row.model))
  else .error (.wrongType row.model)

/-- The key of a legacy deadline in the index `ux_deadlines_open_natural`, of those not done. -/
def sharesLegacyKey (r q : LegacyRow P) : Bool :=
  let isOpen := fun (r : LegacyRow P) => !isText (r.cells "status") "done".toList
  r.kind = .deadline && q.kind = .deadline && isOpen r && isOpen q &&
    ["case_id", "type", "due_date"].all (fun name => sameValue (r.cells name) (q.cells name))

def Db.saveLegacy (db : Db P) (r : LegacyRow P) : Except RestoreError (Db P) :=
  if db.legacy.any (sharesLegacyKey r) then .error (.integrityError .unique none)
  else .ok { db with legacy := db.legacy ++ [r], nextId := db.nextId + 1 }

def Db.saveChildren (env : RestoreEnv P) (db : Db P) (ws : List (Write P)) :
    Except RestoreError (Db P) :=
  ws.foldlM (fun db w => (db.save env w).map Prod.fst) db

/-- What a committed restoration has written; the row is that of a supported model. -/
structure Restored (P : PyTypes) where
  db : Db P
  row : Option (Record P)
  restoredId : ℤ
  restoredKey : Option Text

/-- The first transaction of `restore_log`. -/
def Db.commitPlan (env : RestoreEnv P) (db : Db P) (log : DeletionLog P) (plan : Plan P) :
    Except RestoreError (Restored P) :=
  match plan with
  | .legacy r => (db.saveLegacy r).map (fun db' => ⟨db', none, db.nextId, none⟩)
  | .rows main children => do
    let (db', row) ← db.save env main
    let db' ← db'.saveChildren env children
    let restoredId := if row.model.hasColumn "id" then intOrZero (row.cells "id") else 0
    let restoredKey :=
      match log.entityType with
      | .workflow => none
      | .deadline => some (pyStrVal (row.cells "docket_id"))
      | .renewal => some (pyStrVal (row.cells "annuity_id"))
      | _ =>
        match entityKeyForObject row with
        | some (c :: key) => some (c :: key)
        | _ => some (log.entityKey.getD [])
    return ⟨db', some row, restoredId, restoredKey⟩

/-- `restore_log` up to its first commit. -/
def restoreRows (env : RestoreEnv P) (db : Db P) (log : DeletionLog P) :
    Except RestoreError (Restored P) :=
  if log.restoredAt.isSome then .error .alreadyRestored
  else do
    let blockers ← previewLog db log
    if blockers ≠ [] then throw (.dependencyBlocked blockers)
    let plan ← restorePlan env db log
    db.commitPlan env log plan

/-- The second transaction. -/
def markRestored (log : DeletionLog P) (restored : Restored P) (actor : Option ℤ) (now : Time) :
    DeletionLog P :=
  { log with
    restoredEntityId := some restored.restoredId
    restoredEntityKey := restored.restoredKey
    restoredBy := actor
    restoredAt := some now }

def restoreLog (env : RestoreEnv P) (db : Db P) (log : DeletionLog P) (actor : Option ℤ)
    (now : Time) : Except RestoreError (Restored P × DeletionLog P) := do
  let restored ← restoreRows env db log
  return (restored, markRestored log restored actor now)

end IpDocket.Deletion
