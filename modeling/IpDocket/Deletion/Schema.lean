import Mathlib.Data.Fintype.Basic
import IpDocket.Lib.Calendar
import IpDocket.Lib.Json

/-!
# The tables of the deletion archive

The models whose rows the deletion archive supports, with their columns. An object of a model
is its attributes; a row of a table has values of the types of its columns, and no `NULL` where
a column does not allow it.
-/

namespace IpDocket.Deletion
open IpDocket.Lib

/-- A value of a column in the host language, where `null` is `None`: a JSON column reads it from `NULL`
and from the JSON `null` alike. `F` and `D` are the floats and the datetimes. -/
inductive PyVal (F D : Type)
  | null
  | bool (b : Bool)
  | int (n : ℤ)
  | float (x : F)
  | str (t : Text)
  | date (d : PyDate)
  | datetime (t : D)
  | json (j : Json F)

/-- The floats, of which only zero is looked at, and the datetimes. `toFloat` and `toInt` are
`float(v)` and `int(v)`, `none` when they raise; `str` is that of the values which `pyStrVal`
does not spell out. -/
structure PyTypes where
  float : Type
  datetime : Type
  zero : float
  isZero : float → Bool
  toFloat : Json float → Option float
  toInt : Json float → Option ℤ
  isoformat : datetime → Text
  fromIsoformat : Text → Option datetime
  str : PyVal float datetime → Text
  isZero_iff : ∀ x, isZero x = true ↔ x = zero
  toFloat_float : ∀ x, toFloat (.float x) = some x
  toInt_int : ∀ n, toInt (.int n) = some n

abbrev Val (P : PyTypes) := PyVal P.float P.datetime

abbrev PyJson (P : PyTypes) := Json P.float

section Values

variable {P : PyTypes}

/-- `str(v)`. -/
def pyStrVal : Val P → Text
  | .null => "None".toList
  | .bool true => "True".toList
  | .bool false => "False".toList
  | .int n => pyInt n
  | .str t => t
  | .date d => d.isoformat
  | v => P.str v

/-- `_json_safe`. A column holds no date inside a list or a `dict`. -/
def jsonSafe : Val P → PyJson P
  | .null => .null
  | .bool b => .bool b
  | .int n => .int n
  | .float x => .float x
  | .str t => .str t
  | .date d => .str d.isoformat
  | .datetime t => .str (P.isoformat t)
  | .json j => j

/-- A value of a payload as it is assigned to an attribute. -/
def ofJson : PyJson P → Val P
  | .null => .null
  | .bool b => .bool b
  | .int n => .int n
  | .float x => .float x
  | .str t => .str t
  | j => .json j

end Values

inductive ColumnType
  | text
  | string (length : Nat)
  | integer
  | float
  | boolean
  | date
  | datetime
  | json
  deriving DecidableEq

/-- What an `INSERT` puts into a column that the object leaves `None`. -/
inductive ColumnDefault
  | bool (b : Bool)
  | int (n : ℤ)
  | str (s : String)
  | newKey
  | now
  deriving DecidableEq

structure Column where
  name : String
  type : ColumnType
  nullable : Bool
  default : Option ColumnDefault
  deriving DecidableEq

def col (name : String) (type : ColumnType) : Column := ⟨name, type, true, none⟩

def required (name : String) (type : ColumnType) : Column := ⟨name, type, false, none⟩

def Column.withDefault (d : ColumnDefault) (c : Column) : Column := { c with default := some d }

def softDeleteColumns : List Column :=
  [(required "is_deleted" .boolean).withDefault (.bool false), col "deleted_at" .datetime,
    col "deleted_by" .integer, col "delete_reason" .text, col "deleted_op_id" .integer]

inductive Model
  | docketItem
  | annuityItem
  | workflow
  | matterFileAsset
  | matterMemoFileAsset
  | matterPartyRole
  | matterStaffAssignment
  | party
  | partyCode
  | partyContact
  | partyAddress
  | legacyInvoice
  | legacyInvoicePayment
  | legacyExpense
  | legacyExpensePayment
  | externalInvoiceCaseLink
  | externalInvoiceCaseMap
  | caseExpenseInvoiceMap
  deriving DecidableEq

namespace Model

def all : List Model :=
  [docketItem, annuityItem, workflow, matterFileAsset, matterMemoFileAsset, matterPartyRole,
    matterStaffAssignment, party, partyCode, partyContact, partyAddress, legacyInvoice,
    legacyInvoicePayment, legacyExpense, legacyExpensePayment, externalInvoiceCaseLink,
    externalInvoiceCaseMap, caseExpenseInvoiceMap]

instance : Fintype Model := Fintype.ofList all (fun m => by cases m <;> decide)

/-- The name of the class. -/
def className : Model → String
  | docketItem => "DocketItem"
  | annuityItem => "AnnuityItem"
  | workflow => "Workflow"
  | matterFileAsset => "MatterFileAsset"
  | matterMemoFileAsset => "MatterMemoFileAsset"
  | matterPartyRole => "MatterPartyRole"
  | matterStaffAssignment => "MatterStaffAssignment"
  | party => "Party"
  | partyCode => "PartyCode"
  | partyContact => "PartyContact"
  | partyAddress => "PartyAddress"
  | legacyInvoice => "LegacyInvoice"
  | legacyInvoicePayment => "LegacyInvoicePayment"
  | legacyExpense => "LegacyExpense"
  | legacyExpensePayment => "LegacyExpensePayment"
  | externalInvoiceCaseLink => "ExternalInvoiceCaseLink"
  | externalInvoiceCaseMap => "ExternalInvoiceCaseMap"
  | caseExpenseInvoiceMap => "CaseExpenseInvoiceMap"

def tableName : Model → String
  | docketItem => "docket_item"
  | annuityItem => "annuity_item"
  | workflow => "workflows"
  | matterFileAsset => "matter_file_asset"
  | matterMemoFileAsset => "matter_memo_file_asset"
  | matterPartyRole => "matter_party_role"
  | matterStaffAssignment => "matter_staff_assignment"
  | party => "party"
  | partyCode => "party_code"
  | partyContact => "party_contact"
  | partyAddress => "party_address"
  | legacyInvoice => "invoice"
  | legacyInvoicePayment => "invoice_payment"
  | legacyExpense => "expense"
  | legacyExpensePayment => "expense_payment"
  | externalInvoiceCaseLink => "external_invoice_case_link"
  | externalInvoiceCaseMap => "external_invoice_case_map"
  | caseExpenseInvoiceMap => "case_expense_invoice_map"

/-- `_pk_column_name`. -/
def pk : Model → String
  | docketItem => "docket_id"
  | annuityItem => "annuity_id"
  | workflow => "id"
  | matterFileAsset => "matter_file_id"
  | matterMemoFileAsset => "memo_file_id"
  | matterPartyRole => "mpr_id"
  | matterStaffAssignment => "msa_id"
  | party => "party_id"
  | partyCode => "party_code_id"
  | partyContact => "contact_id"
  | partyAddress => "address_id"
  | legacyInvoice => "invoice_id"
  | legacyInvoicePayment => "payment_id"
  | legacyExpense => "expense_id"
  | legacyExpensePayment => "exp_payment_id"
  | externalInvoiceCaseLink => "id"
  | externalInvoiceCaseMap => "id"
  | caseExpenseInvoiceMap => "id"

def columns : Model → List Column
  | docketItem =>
    [(required "docket_id" .text).withDefault .newKey, required "matter_id" .text,
      required "category" .text, col "name_ref" .text, col "name_free" .text,
      col "due_date" .text, col "extended_due_date" .text, col "visible_from_date" .text,
      col "done_date" .text, col "owner_staff_party_id" .text, col "snapshot_attorney" .text,
      col "snapshot_handler" .text, col "snapshot_manager" .text, col "memo" .text,
      col "raw_id" .text] ++ softDeleteColumns
  | annuityItem =>
    [(required "annuity_id" .text).withDefault .newKey, required "matter_id" .text,
      col "owner_staff_party_id" .text, required "cycle_no" .integer,
      (col "annuity_status" .text).withDefault (.str "pending"), col "due_date" .text,
      col "extended_due_date" .text, col "renewal_open_date" .text,
      col "renewal_notice_due" .text, col "discount_rate" .float, col "official_fee" .float,
      col "vat_amount" .float, col "service_fee" .float, col "paid_date" .text,
      col "paid_amount" .float, col "internal_due_date" .text, col "memo" .text,
      col "raw_id" .text] ++ softDeleteColumns
  | workflow =>
    [required "id" .integer, col "case_id" .text, required "name" (.string 100),
      (col "status" (.string 20)).withDefault (.str "Pending"), col "business_code" (.string 50),
      col "category" (.string 20), col "priority" (.string 10), col "request_start_date" .date,
      col "legal_due_date" .date, col "source_docket_due_date" .date,
      col "source_docket_legal_due_date" .date, col "draft_due_date" .date,
      col "draft_due_date2" .date, col "submit_due_date" .date, col "draft_sent_date" .date,
      col "submit_date" .date, col "difficulty" .float, col "page_count" .integer,
      col "work_hours" .float, col "due_date" .date, col "completed_date" .date,
      col "assignee_id" .integer, col "attorney_assignee_id" .integer, col "inspector_id" .integer,
      col "created_by_id" .integer, col "completed_by_id" .integer, col "note" .text,
      col "send_memo" .text, (col "created_at" .datetime).withDefault .now,
      (col "updated_at" .datetime).withDefault .now, col "snapshot_attorney" .text,
      col "snapshot_handler" .text, col "snapshot_manager" .text]
  | matterFileAsset =>
    [required "matter_file_id" .text, required "matter_id" .text, required "file_asset_id" .text,
      col "role" .text, col "description" .text, col "parent_id" .text,
      col "doc_type" (.string 40), col "tags" .json,
      (col "previewable" .boolean).withDefault (.bool false), col "created_at" .text] ++
      softDeleteColumns
  | matterMemoFileAsset =>
    [(required "memo_file_id" .text).withDefault .newKey, required "memo_id" .integer,
      required "file_asset_id" .text, (col "role" .text).withDefault (.str ""),
      col "description" .text, (col "created_at" .datetime).withDefault .now] ++ softDeleteColumns
  | matterPartyRole =>
    [(required "mpr_id" .text).withDefault .newKey, required "matter_id" .text,
      col "party_id" .text, required "role_code" .text, (col "seq" .integer).withDefault (.int 1),
      col "raw_text" .text]
  | matterStaffAssignment =>
    [(required "msa_id" .text).withDefault .newKey, required "matter_id" .text,
      col "staff_party_id" .text, required "staff_role_code" .text,
      (col "seq" .integer).withDefault (.int 1), col "raw_text" .text]
  | party =>
    [required "party_id" .text, required "name_display" .text, col "name_en" .text,
      col "party_kind" .text, col "nationality" .text, col "reg_no" .text,
      col "business_no" .text, col "created_at" .text]
  | partyCode =>
    [required "party_code_id" .text, required "party_id" .text, required "code_type" .text,
      required "code_value" .text]
  | partyContact =>
    [required "contact_id" .text, required "party_id" .text, required "contact_type" .text,
      col "label" .text, required "value" .text]
  | partyAddress =>
    [required "address_id" .text, required "party_id" .text, required "address_type" .text,
      required "address_text" .text]
  | legacyInvoice =>
    [(required "invoice_id" .text).withDefault .newKey, required "matter_id" .text,
      col "external_invoice_id" .integer, col "external_invoice_number" .text,
      col "external_invoice_url" .text, col "integrated_fee_ref" .text, col "fee_ref" .text,
      col "bill_date" .text, col "due_date" .text, col "tax_issued_date" .text,
      col "tax_no" .text, col "currency" .text, col "total_amount" .float, col "gov_fee" .float,
      col "service_fee" .float, col "vat_amount" .float, col "received_total" .float,
      col "outstanding_amount" .float, col "status" .text, col "status_changed_date" .text,
      col "description" .text, col "raw_id" .text] ++ softDeleteColumns
  | legacyInvoicePayment =>
    [(required "payment_id" .text).withDefault .newKey, required "invoice_id" .text,
      required "installment_no" .integer, col "paid_date" .text, col "paid_amount" .float,
      col "method" .text, col "payer_name" .text, col "fx_rate" .float] ++ softDeleteColumns
  | legacyExpense =>
    [(required "expense_id" .text).withDefault .newKey, required "matter_id" .text,
      col "expense_ref" .text, col "dn_no" .text, col "dn_date" .text, col "remit_no" .text,
      col "expense_date" .text, col "due_date" .text, col "vendor_name" .text,
      col "category_code" .text, col "currency" .text, col "requested_total" .float,
      col "remit_total" .float, col "outstanding_amount" .float, col "status" .text,
      col "description" .text, col "raw_id" .text] ++ softDeleteColumns
  | legacyExpensePayment =>
    [(required "exp_payment_id" .text).withDefault .newKey, required "expense_id" .text,
      required "installment_no" .integer, col "sent_date" .text, col "sent_amount" .float,
      col "fx_rate" .float] ++ softDeleteColumns
  | externalInvoiceCaseLink =>
    [required "id" .integer, required "matter_id" .text, col "our_ref" .text,
      required "external_invoice_id" .integer, col "external_invoice_number" .text,
      col "external_invoice_url" .text, col "ipm_invoice_id" .text,
      (col "created_at" .datetime).withDefault .now,
      (col "updated_at" .datetime).withDefault .now] ++ softDeleteColumns
  | externalInvoiceCaseMap =>
    [required "id" .integer, required "matter_id" .text, col "our_ref" .text,
      required "external_invoice_id" .integer,
      (col "created_at" .datetime).withDefault .now] ++ softDeleteColumns
  | caseExpenseInvoiceMap =>
    [required "id" .integer, required "matter_id" .text, required "expense_id" .text,
      required "billing_invoice_id" .integer, col "billing_line_item_id" .integer,
      col "amount_minor" .integer, col "currency" .text, col "created_by" .integer,
      (required "created_at" .text).withDefault .now,
      (required "is_deleted" .integer).withDefault (.int 0), col "deleted_at" .text,
      col "deleted_by" .integer, col "delete_reason" .text]

/-- `hasattr` for an attribute that is a column. -/
def hasColumn (m : Model) (name : String) : Bool := m.columns.any (fun c => c.name = name)

lemma nodup_columns : ∀ m : Model, (m.columns.map Column.name).Nodup := by
  decide +kernel

lemma className_inj : ∀ m m' : Model, m.className = m'.className → m = m' := by
  decide +kernel

end Model

variable {P : PyTypes}

/-- A list or a `dict`; the other JSON values are host values themselves. -/
def isContainer : PyJson P → Bool
  | .arr _ => true
  | .obj _ => true
  | _ => false

/-- The value can be stored in a column of the type. -/
def ColumnType.accepts : ColumnType → Val P → Bool
  | _, .null => true
  | .text, .str _ => true
  | .string n, .str t => t.length ≤ n
  | .integer, .int _ => true
  | .float, .float _ => true
  | .boolean, .bool _ => true
  | .date, .date _ => true
  | .datetime, .datetime _ => true
  | .json, .bool _ => true
  | .json, .int _ => true
  | .json, .float _ => true
  | .json, .str _ => true
  | .json, .json j => isContainer j
  | _, _ => false

def ColumnType.Holds (type : ColumnType) (v : Val P) : Prop := type.accepts v = true

instance (type : ColumnType) (v : Val P) : Decidable (type.Holds v) :=
  inferInstanceAs (Decidable (type.accepts v = true))

@[simp] lemma ColumnType.holds_null (type : ColumnType) : type.Holds (.null : Val P) := by
  cases type <;> rfl

/-- An object of a model. -/
structure Record (P : PyTypes) where
  model : Model
  cells : String → Val P

structure Row (P : PyTypes) extends Record P where
  holds : ∀ c ∈ model.columns, c.type.Holds (cells c.name)
  notNull : ∀ c ∈ model.columns, c.nullable = false → cells c.name ≠ .null

def Record.pkValue (r : Record P) : Val P := r.cells r.model.pk

end IpDocket.Deletion
