import IpDocket.Lib.Time
import IpDocket.Deletion.Schema

/-!
# The deletion archive

Before a flush `_auto_archive_before_flush` writes a `DeletionLog` for every supported row that
the flush deletes. A log is not written when the session already has a pending one of the same
identity, which consists of the entity type, the entity id and the entity key. The key is the
first attribute of a fixed list that the object has and that is not `None`.

A pending log may also come from a route that archives a row by hand before it deletes it; the
routes do so for deadlines, annuities and workflows.
-/

namespace IpDocket.Deletion
open IpDocket.Lib

variable {P : PyTypes}

abbrev Payload (P : PyTypes) := List (Text × PyJson P)

/-- `payload.get(name)`. -/
def Payload.get (payload : Payload P) (name : String) : PyJson P := field payload name.toList

/-- `_column_payload`. -/
def columnPayload (r : Record P) : Payload P :=
  [("_model".toList, .str r.model.className.toList),
    ("_table".toList, .str r.model.tableName.toList),
    ("_schema".toList, .str "deletion-log-v2".toList)] ++
  r.model.columns.map (fun c => (c.name.toList, jsonSafe (r.cells c.name)))

lemma column_ne_meta : ∀ m : Model, ∀ c ∈ m.columns,
    c.name ≠ "_model" ∧ c.name ≠ "_table" ∧ c.name ≠ "_schema" := by
  decide +kernel

lemma get_columnPayload {r : Record P} {c : Column} (hc : c ∈ r.model.columns) :
    (columnPayload r).get c.name = jsonSafe (r.cells c.name) := by
  obtain ⟨h1, h2, h3⟩ := column_ne_meta r.model c hc
  have hmeta : ∀ s : String, c.name ≠ s → s.toList ≠ c.name.toList := by
    intro s hs h
    exact hs (String.toList_inj.mp h).symm
  have hnodup : (r.model.columns.map (fun c => c.name.toList)).Nodup := by
    have h := (Model.nodup_columns r.model).map (fun s t h => String.toList_inj.mp h)
    rwa [List.map_map] at h
  unfold Payload.get columnPayload
  rw [List.cons_append, field_cons, if_neg (hmeta _ h1), List.cons_append, field_cons,
    if_neg (hmeta _ h2), List.cons_append, field_cons, if_neg (hmeta _ h3), List.nil_append]
  exact field_map hnodup (fun c => jsonSafe (r.cells c.name)) hc

def isText (v : Val P) (t : Text) : Bool :=
  match v with
  | .str s => s = t
  | _ => false

/-- The payloads of the rows of `m` with the text `key` in a column. -/
def childPayloads (db : List (Record P)) (m : Model) (column : String) (key : Val P) : PyJson P :=
  .arr ((db.filter (fun r => r.model = m ∧ isText (r.cells column) (pyStrVal key))).map
    (fun r => .obj (columnPayload r)))

def payloadForObject (db : List (Record P)) (r : Record P) : Payload P :=
  match r.model with
  | .legacyInvoice =>
    columnPayload r ++ [("payments".toList,
      childPayloads db .legacyInvoicePayment "invoice_id" (r.cells "invoice_id"))]
  | .legacyExpense =>
    columnPayload r ++
      [("payments".toList,
        childPayloads db .legacyExpensePayment "expense_id" (r.cells "expense_id")),
      ("invoice_links".toList,
        childPayloads db .caseExpenseInvoiceMap "expense_id" (r.cells "expense_id"))]
  | _ => columnPayload r

/-- The entity types, in lower case and stripped; `other` is any other text. -/
inductive EntityType
  | deadline
  | renewal
  | workflow
  | file
  | person
  | billingInvoice
  | billingExpense
  | billingPayment
  | billingLink
  | other (t : Text)
  deriving DecidableEq

def entityTypeForObject (m : Model) : EntityType :=
  match m with
  | .docketItem => .deadline
  | .annuityItem => .renewal
  | .workflow => .workflow
  | .matterFileAsset | .matterMemoFileAsset => .file
  | .matterPartyRole | .matterStaffAssignment | .party | .partyCode | .partyContact
  | .partyAddress => .person
  | .legacyInvoice => .billingInvoice
  | .legacyExpense => .billingExpense
  | .legacyInvoicePayment | .legacyExpensePayment => .billingPayment
  | .externalInvoiceCaseLink | .externalInvoiceCaseMap | .caseExpenseInvoiceMap => .billingLink

def keyAttributes : List String :=
  ["docket_id", "annuity_id", "id", "matter_file_id", "memo_file_id", "mpr_id", "msa_id",
    "party_id", "party_code_id", "contact_id", "address_id", "invoice_id", "payment_id",
    "expense_id", "exp_payment_id"]

/-- `str(v)` unless it is `None`. -/
def notNone : Val P → Option Text
  | .null => none
  | v => some (pyStrVal v)

def entityKeyForObject (r : Record P) : Option Text :=
  keyAttributes.findSome? (fun attr =>
    if r.model.hasColumn attr then notNone (r.cells attr) else none)

/-- `int(v or 0)` for an integer column. -/
def intOrZero : Val P → ℤ
  | .int n => n
  | _ => 0

def entityIdForObject (r : Record P) : ℤ :=
  match r.model with
  | .workflow | .externalInvoiceCaseLink | .externalInvoiceCaseMap | .caseExpenseInvoiceMap =>
    intOrZero (r.cells "id")
  | _ => 0

/-- `(a or b or … or "")` for texts. -/
def firstText (vs : List (Val P)) : Text :=
  (vs.findSome? (fun v =>
    match v with
    | .str (c :: t) => some (c :: t)
    | _ => none)).getD []

def titleForObject (r : Record P) : Text :=
  let texts := fun names => pyStrip (firstText (names.map r.cells))
  match r.model with
  | .docketItem => texts ["name_free", "name_ref", "docket_id"]
  | .annuityItem =>
    if intOrZero (r.cells "cycle_no") ≠ 0 then
      "Renewal ".toList ++ pyStrVal (r.cells "cycle_no")
    else pyStrVal (r.cells "annuity_id")
  | .workflow =>
    let name := firstText [r.cells "name"]
    pyStrip (if name ≠ [] then name else pyStrVal (r.cells "id"))
  | .matterFileAsset => texts ["description", "role", "file_asset_id", "matter_file_id"]
  | .matterMemoFileAsset => texts ["description", "role", "file_asset_id", "memo_file_id"]
  | .matterPartyRole => texts ["raw_text", "party_id", "role_code", "mpr_id"]
  | .matterStaffAssignment => texts ["raw_text", "staff_party_id", "staff_role_code", "msa_id"]
  | .party => texts ["name_display", "name_en", "party_id"]
  | .legacyInvoice => texts ["fee_ref", "external_invoice_number", "description", "invoice_id"]
  | .legacyExpense => texts ["expense_ref", "dn_no", "vendor_name", "expense_id"]
  | m =>
    match entityKeyForObject r with
    | some (c :: key) => c :: key
    | _ => m.className.toList

/-- A `DeletionLog`, without the columns that only the search pages read. -/
structure DeletionLog (P : PyTypes) where
  entityType : EntityType
  entityId : ℤ
  entityKey : Option Text
  title : Text
  payload : Payload P
  restoredEntityId : Option ℤ := none
  restoredEntityKey : Option Text := none
  restoredBy : Option ℤ := none
  restoredAt : Option Time := none

def buildLog (db : List (Record P)) (r : Record P) : DeletionLog P where
  entityType := entityTypeForObject r.model
  entityId := entityIdForObject r
  entityKey := entityKeyForObject r
  title := titleForObject r
  payload := payloadForObject db r

def DeletionLog.identity (log : DeletionLog P) : EntityType × ℤ × Text :=
  (log.entityType, log.entityId, log.entityKey.getD [])

/-- `_has_pending_duplicate`. -/
def hasPendingDuplicate (new : List (DeletionLog P)) (log : DeletionLog P) : Bool :=
  new.any (fun row => row.identity = log.identity)

def archive (db : List (Record P)) (new : List (DeletionLog P)) (r : Record P) :
    List (DeletionLog P) :=
  let log := buildLog db r
  if hasPendingDuplicate new log then new else new ++ [log]

/-- `_auto_archive_before_flush`; `dirty` are the objects that have become soft-deleted. -/
def autoArchiveBeforeFlush (db : List (Record P)) (new : List (DeletionLog P))
    (deleted dirty : List (Record P)) : List (DeletionLog P) :=
  dirty.foldl (archive db) (deleted.foldl (archive db) new)

end IpDocket.Deletion
